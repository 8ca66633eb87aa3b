import CommandLog.Proofs.Journal.File

/-!
# Replacements that are cut short

A journal is replaced by writing its temporary sibling and renaming it. Wherever this stops, the
journal's path leads to the old journal or to the new one.

* `CommandLog.Journal.Twin` – **a path and its temporary sibling name two places**, none of them
  above the other, and there is nothing but perhaps a file at either. This is all that a replacement
  needs, and every part of one leaves it as it is;
* `CommandLog.Journal.Stands` – the path of such a pair leads to a file with given contents;
* `CommandLog.Journal.Twin.replace` – a replacement of such a journal succeeds;
* `CommandLog.Journal.Stands.of_leaves` – **a replacement that is cut short** leaves the old
  contents or the new ones, and a pair that can be used again;
* `CommandLog.Journal.twin_of_replace_ok` – where a replacement has succeeded once, there is such
  a pair.

Only the rename changes what the path leads to. Everything before it happens to the file of the
sibling, which is another one, because the sibling is at another place.
-/

namespace CommandLog

namespace Disk

variable {k k' : Desk} {s : Step} {steps : List Step}

/-- **What is left of a first step and others**: nothing was done, or a part of a write, or the
first step and what is left of the others. -/
theorem Leaves.cases_cons (h : Leaves k (s :: steps) k') :
    k' = k ∨
      (∃ id front rest, k.file = some id ∧ s = .write (front ++ rest) ∧
        k' = { k with disk := k.disk.write id front }) ∨
      ∃ k₁, s.run k = .ok k₁ ∧ Leaves k₁ steps k' := by
  cases h with
  | none => exact .inl rfl
  | torn _ hfile front rest => exact .inr (.inl ⟨_, front, rest, hfile, rfl, rfl⟩)
  | step hrun hlater => exact .inr (.inr ⟨_, hrun, hlater⟩)

theorem Leaves.eq_of_nil (h : Leaves k [] k') : k' = k := by
  cases h
  rfl

/-- **What is left of a write and others**: nothing was done, or the write was done in part or in
full, and then the others may have begun. -/
theorem Leaves.cases_write {d : Disk} {id : FileId} {data : Bytes}
    (h : Leaves { disk := d, file := some id } (.write data :: steps) k') :
    k'.disk = d ∨
      (∃ front rest, data = front ++ rest ∧ k'.disk = d.write id front) ∨
      Leaves { disk := d.write id data, file := some id } steps k' := by
  rcases h.cases_cons with rfl | ⟨id', front, rest, hfile, hwrite, rfl⟩ | ⟨k₁, hrun, hlater⟩
  · exact .inl rfl
  · cases hfile
    exact .inr (.inl ⟨front, rest, Step.write.inj hwrite, rfl⟩)
  · cases hrun
    exact .inr (.inr hlater)

/-- **What is left of a step that writes nothing**, and others. -/
theorem Leaves.cases_of_ne_write (h : Leaves k (s :: steps) k') (hs : ∀ data, s ≠ .write data) :
    k' = k ∨ ∃ k₁, s.run k = .ok k₁ ∧ Leaves k₁ steps k' := by
  rcases h.cases_cons with hnone | ⟨_, _, _, _, hwrite, -⟩ | hlater
  · exact .inl hnone
  · exact absurd hwrite (hs _)
  · exact .inr hlater

/-- Waiting for the medium makes no difference to what is left. -/
theorem Leaves.of_sync (h : Leaves k (.sync :: steps) k') : Leaves k steps k' := by
  rcases h.cases_of_ne_write (by simp) with rfl | ⟨k₁, hrun, hlater⟩
  · exact .none k' steps
  · cases hrun
    exact hlater

end Disk

namespace Journal

open Disk (Leads Opened Leaves Desk Step)

variable {d d' : Disk} {path : Path} {above above' : Place} {name name' : String} {id : FileId}
  {bytes data : Bytes} {ps : List Bytes}

/-! ### Pairs of places -/

/-- **A path and its temporary sibling name two places**, and files can be at both. -/
structure Twin (d : Disk) (path : Path) (above : Place) (name : String) (above' : Place)
    (name' : String) : Prop where
  /-- The path names its place. -/
  leads : d.Leads path above name
  /-- The sibling names its place. -/
  sibling : d.Leads path.temporary above' name'
  /-- The two places are two. -/
  ne : above' ++ [name'] ≠ above ++ [name]
  /-- The sibling is not above the path. -/
  not_above : ¬(above' ++ [name']) <+: above
  /-- The path is not above the sibling. -/
  not_below : ¬(above ++ [name]) <+: above'
  /-- There is nothing but perhaps a file at the place of the path. -/
  plain : d.IsLeaf (above ++ [name])
  /-- There is nothing but perhaps a file at the place of the sibling. -/
  vacant : d.IsLeaf (above' ++ [name'])

theorem Twin.keeps (h : Twin d path above name above' name') (hkeeps : d.Keeps d')
    (hplain : d'.IsLeaf (above ++ [name])) (hvacant : d'.IsLeaf (above' ++ [name'])) :
    Twin d' path above name above' name' where
  leads := h.leads.keeps hkeeps
  sibling := h.sibling.keeps hkeeps
  ne := h.ne
  not_above := h.not_above
  not_below := h.not_below
  plain := hplain
  vacant := hvacant

theorem Twin.write (h : Twin d path above name above' name') (id : FileId) (data : Bytes) :
    Twin (d.write id data) path above name above' name' :=
  h.keeps (Disk.keeps_write d id data) h.plain h.vacant

/-- **A file at the sibling** that has been opened leaves a pair. -/
theorem Twin.opened (h : Twin d path above name above' name')
    (hopened : Opened d (above' ++ [name']) id d') : Twin d' path above name above' name' :=
  h.keeps hopened.keeps (hopened.isLeaf_of h.plain) (hopened.isLeaf_of h.vacant)

/-- **A single name and its sibling** are such a pair. -/
theorem twin_logPath (hplain : d.IsLeaf (d.home ++ ["log"]))
    (hvacant : d.IsLeaf (d.home ++ ["log.tmp"])) :
    Twin d logPath d.home "log" d.home "log.tmp" where
  leads := leads_logPath d
  sibling := leads_temporary_logPath d
  ne := by simp
  not_above := Disk.not_above_of_append d.home "log.tmp"
  not_below := Disk.not_above_of_append d.home "log"
  plain := hplain
  vacant := hvacant

/-- The path of a pair leads to a file with given contents. -/
structure Stands (d : Disk) (path : Path) (above : Place) (name : String) (above' : Place)
    (name' : String) (bytes : Bytes) : Prop where
  /-- There is a pair. -/
  twin : Twin d path above name above' name'
  /-- The path leads to the contents. -/
  holds : ∃ id, Holds d path above name id bytes

/-- **Whatever is written to the sibling**, the journal stands. -/
theorem Stands.opened (h : Stands d path above name above' name' bytes)
    (hopened : Opened d (above' ++ [name']) id d') :
    Stands d' path above name above' name' bytes := by
  obtain ⟨id', hholds⟩ := h.holds
  exact ⟨h.twin.opened hopened, id', hholds.opened hopened h.twin.ne.symm⟩

/-- What is at the sibling is not the journal. -/
theorem Stands.node?_ne (h : Stands d path above name above' name' bytes) :
    d.node? (above' ++ [name']) ≠ d.node? (above ++ [name]) := by
  intro hsame
  -- one file cannot have two names here
  obtain ⟨id, hholds⟩ := h.holds
  exact hholds.sound.ne_of_ne (hsame.trans hholds.node) hholds.node h.twin.ne rfl

/-! ### The steps of a replacement -/

/-- **What is written to the sibling** is all that is there. -/
theorem Twin.create (h : Twin d path above name above' name') (hsound : d.Sound)
    (hcreate : d.create path.temporary = .ok (id, d')) :
    Opened d (above' ++ [name']) id d' ∧ ∀ data, (d'.write id data).content id = data := by
  obtain ⟨above₁, name₁, hleads, hopened, hempty⟩ := hsound.create_eq_ok hcreate
  obtain ⟨rfl, rfl⟩ := hleads.unique h.sibling
  refine ⟨hopened, fun data => ?_⟩
  rw [Disk.content_write_self ((hopened.sound hsound).lt_size hopened.self), hempty,
    List.nil_append]

/-- **The sibling takes the place of the path.** -/
theorem Twin.rename (h : Twin d path above name above' name') (hsound : d.Sound) {d₁ : Disk}
    (hopened : Opened d (above' ++ [name']) id d₁) (hcontent : d₁.content id = bytes) :
    ∃ d₂, d₁.rename path.temporary path = .ok d₂ ∧
      Stands d₂ path above name above' name' bytes := by
  have htwin := h.opened hopened
  have hsound₁ := hopened.sound hsound
  have hsource := Disk.append_singleton_ne_nil above' name'
  have htarget := Disk.append_singleton_ne_nil above name
  have hkeeps := Disk.keeps_putAt hsource htarget hopened.self htwin.plain
  have hnode : (d₁.putAt (above' ++ [name']) (above ++ [name]) id).node? (above ++ [name]) =
      some (.file id) := by
    rw [Disk.node?_putAt hsource htarget, if_pos rfl]
  refine ⟨d₁.putAt (above' ++ [name']) (above ++ [name]) id, ?_, ?_, id, ?_⟩
  · rw [htwin.sibling.rename hsound₁ hopened.self htwin.leads htwin.plain h.not_above h.not_below,
      if_neg h.ne]
  · refine htwin.keeps hkeeps (Disk.isLeaf_of_file hnode) (Disk.isLeaf_of_none ?_)
    rw [Disk.node?_putAt hsource htarget, if_neg h.ne, if_pos rfl]
  · exact ⟨hsound₁.rebind hopened.self _, htwin.leads.keeps hkeeps, hnode, hcontent⟩

/-- **A replacement succeeds**, and the new journal stands. Its steps and the opening of the new
journal do nothing else. -/
theorem Twin.replace (h : Twin d path above name above' name') (hsound : d.Sound)
    (hfits : ∀ p ∈ ps, fits p = true) (file : Option FileId) :
    ∃ d', Journal.replace path ps d = (.ok (), d') ∧
      Stands d' path above name above' name' (encode ps) ∧
      ∃ k, Disk.runSteps { disk := d, file } (replaceSteps path ps ++ openSteps path false) =
        (.ok (), k) ∧ k.disk = d' := by
  obtain ⟨⟨id, d₁⟩, hcreate⟩ := h.sibling.create h.vacant
  obtain ⟨hopened, hwritten⟩ := h.create hsound hcreate
  obtain ⟨d₂, hrename, hstands⟩ :=
    h.rename hsound (hopened.write (encode ps)) (hwritten (encode ps))
  obtain ⟨id', hholds⟩ := hstands.holds
  refine ⟨d₂, ?_, hstands, { disk := d₂, file := some id' }, ?_, rfl⟩
  · rw [replace_eq hfits, hcreate]
    simp only [hrename]
  · simp [replaceSteps, draftSteps, openSteps, Disk.runSteps, Step.run, hcreate, hrename,
      hholds.leads.openAppend hholds.node, Except.map]

/-- Opening a journal that stands changes nothing. -/
theorem Stands.of_leaves_open (h : Stands d path above name above' name' bytes)
    {file : Option FileId} {k : Desk}
    (hleaves : Leaves { disk := d, file } (openSteps path false) k) :
    Stands k.disk path above name above' name' bytes := by
  rcases hleaves.cases_of_ne_write (by simp) with rfl | ⟨k₁, hrun, hleaves⟩
  · exact h
  · obtain ⟨id, hholds⟩ := h.holds
    simp only [Step.run, hholds.leads.openAppend hholds.node] at hrun
    cases hrun
    rw [hleaves.eq_of_nil]
    exact h

/-- **The sibling is complete**, and takes the place of the journal or does not. -/
theorem Stands.of_leaves_rename (h : Stands d path above name above' name' bytes) {d₁ : Disk}
    (hopened : Opened d (above' ++ [name']) id d₁) (hcontent : d₁.content id = data)
    {file : Option FileId} {k : Desk}
    (hleaves : Leaves { disk := d₁, file }
      (.rename path.temporary path :: openSteps path false) k) :
    Stands k.disk path above name above' name' bytes ∨
      Stands k.disk path above name above' name' data := by
  rcases hleaves.cases_of_ne_write (by simp) with rfl | ⟨k₁, hrun, hleaves⟩
  · exact .inl (h.opened hopened)
  · have hsound : d.Sound := h.holds.elim fun _ hholds => hholds.sound
    obtain ⟨d₂, hrename, hstands⟩ := h.twin.rename hsound hopened hcontent
    simp only [Step.run, hrename] at hrun
    cases hrun
    exact .inr (hstands.of_leaves_open hleaves)

/-- **A replacement that is cut short** leaves the old contents or the new ones. -/
theorem Stands.of_leaves (h : Stands d path above name above' name' bytes) {file : Option FileId}
    {k : Desk}
    (hleaves : Leaves { disk := d, file } (replaceSteps path ps ++ openSteps path false) k) :
    Stands k.disk path above name above' name' bytes ∨
      Stands k.disk path above name above' name' (encode ps) := by
  have hsound : d.Sound := h.holds.elim fun _ hholds => hholds.sound
  rcases hleaves.cases_of_ne_write (by simp) with rfl | ⟨k₁, hrun, hleaves⟩
  · exact .inl h
  simp only [Step.run] at hrun
  rcases hcreate : d.create path.temporary with f | ⟨id, d₁⟩
  · rw [hcreate] at hrun
    cases hrun
  rw [hcreate] at hrun
  cases hrun
  obtain ⟨hopened, hwritten⟩ := h.twin.create hsound hcreate
  -- whatever of the new journal has been written, it is at the sibling
  rcases hleaves.cases_write with hk | ⟨front, rest, -, hk⟩ | hleaves
  · rw [hk]
    exact .inl (h.opened hopened)
  · rw [hk]
    exact .inl (h.opened (hopened.write front))
  · exact h.of_leaves_rename (hopened.write (encode ps)) (hwritten (encode ps)) hleaves.of_sync

/-- **Where a replacement has succeeded once**, there is a pair, unless the journal is its own
temporary sibling. -/
theorem twin_of_replace_ok (hsound : d.Sound) (hextension : path.extension? ≠ some "tmp")
    (hfits : ∀ p ∈ ps, fits p = true) (hreplace : Journal.replace path ps d = (.ok (), d')) :
    ∃ above name above' name', Stands d' path above name above' name' (encode ps) := by
  rw [replace_eq hfits] at hreplace
  split at hreplace
  · cases hreplace
  · next id d₁ hcreate =>
    split at hreplace
    · cases hreplace
    · next d₂ hrename =>
      cases hreplace
      obtain ⟨above', name', hsibling, hopened, hholds⟩ := drafted hsound hcreate (encode ps)
      obtain ⟨above, name, hleads, hplain, hbelow, habove, hd'⟩ :=
        hholds.leads.of_rename hholds.sound hholds.node hrename
      have htwin : Twin (d₁.write id (encode ps)) path above name above' name' :=
        { leads := hleads
          sibling := hholds.leads
          ne := Disk.temporary_ne hleads.goal hholds.leads.goal hextension
          not_above := hbelow
          not_below := habove
          plain := hplain
          vacant := Disk.isLeaf_of_file hholds.node }
      obtain ⟨d₃, hrename', hstands⟩ :=
        htwin.rename hholds.sound (Disk.opened_of_file hholds.node) hholds.content
      rw [hrename] at hrename'
      cases hrename'
      exact ⟨above, name, above', name', hstands⟩

end Journal

end CommandLog
