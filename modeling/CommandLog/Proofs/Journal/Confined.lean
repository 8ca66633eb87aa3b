import CommandLog.Proofs.Disk.Frame
import CommandLog.Proofs.Disk.Relink
import CommandLog.Proofs.Journal.Atomic

/-!
# What a journal operation touches

Every operation on a journal keeps to a few entries and to one file, whether it succeeds, fails, or
is stopped on the way, and on whatever disk.

* `CommandLog.Journal.rewriteExtent` – **what a replacement may touch**: the entries of the path and
  of its temporary sibling, and the file that the sibling leads to;
* `CommandLog.Disk.openExtent` and `CommandLog.Disk.writeExtent` are the same for opening a journal
  and for appending to it;
* `CommandLog.Journal.confined_of_leaves_rewrite`, `CommandLog.Journal.confined_of_leaves_open` and
  `CommandLog.Journal.confined_of_leaves_append` – the operations at every moment, from which what
  they have done when they end follows by `CommandLog.Disk.leaves_runSteps`;
* `CommandLog.Journal.vacated_of_replace_ok` – nothing is left at the sibling once a replacement has
  succeeded;
* `CommandLog.Journal.reopen_confined` – **opening the journal that has been replaced** touches
  nothing else, and no entry at all.

A sibling that is a link is followed when it is created, and is itself what is renamed afterwards.
The journal is a link then, and has to be followed when it is opened: it leads to the file that has
been written, because the way behind a link does not change when the link gets another name.
-/

namespace CommandLog

namespace Disk

/-- **Running steps leaves something that an interruption may leave**, too. -/
theorem leaves_runSteps (k : Desk) (steps : List Step) : Leaves k steps (runSteps k steps).2 := by
  induction steps generalizing k with
  | nil => exact .none k []
  | cons s steps ih =>
    rw [runSteps]
    split
    · exact .none k _
    · next hrun => exact .step hrun (ih _)

end Disk

namespace Journal

open Disk (Confined Desk Extent Leaves Opened Step)

variable {d d' : Disk} {path : Path} {ps : List Bytes} {id : FileId} {p q : Place} {k : Desk}
  {above : Place} {name : String}

/-! ### Replacing -/

/-- **What a replacement may touch**: the entries of the path and of its temporary sibling, and the
file that the sibling leads to, which is made if it is not there. -/
def rewriteExtent (d : Disk) (path : Path) : Extent where
  entry q := d.placeOf? path = some q ∨ d.placeOf? path.temporary = some q ∨
    d.targetOf? path.temporary = some q ∧ d.node? q = none
  file id := d.fileAt? path.temporary = some id

/-- **A draft is where the sibling leads to**, and nowhere else. -/
theorem Drafted.confined (h : Drafted d path d') : Confined (rewriteExtent d path) d d' := by
  obtain ⟨above, name, id, hreach, hopened⟩ := h
  exact (hopened.confined hreach).mono (fun _ hq => .inr (.inr hq)) fun _ hid => hid

/-- What is at the sibling is the file that has been opened, or a link that leads to it. -/
theorem cases_of_opened (h : Opened d (above ++ [name]) id d')
    (hreach : d.reach true path = .ok (.entry above name false))
    (hplace : d.placeOf? path = some q) :
    d'.node? q = some (.file id) ∨
      ∃ i target, d.node? q = some (.link i target) ∧ d'.node? q = some (.link i target) := by
  by_cases hlink : ∃ i target, d.node? q = some (.link i target)
  · obtain ⟨i, target, hnode⟩ := hlink
    exact .inr ⟨i, target, hnode, h.keeps.way hnode (by simp)⟩
  · have htarget := Disk.placeOf?_of_target (Disk.targetOf?_of_reach hreach)
      fun q' hq' i target hnode => hlink ⟨i, target, by
        rwa [Option.some.inj (hplace.symm.trans hq')]⟩
    rw [hplace] at htarget
    rw [Option.some.inj htarget]
    exact .inl h.self

/-- **The sibling has been put in place of the journal.** -/
structure Exchanged (d : Disk) (path : Path) (p q : Place) (d₁ d' : Disk) : Prop where
  /-- The journal is here. -/
  place : d.placeOf? path = some p
  /-- The sibling is here. -/
  sibling : d.placeOf? path.temporary = some q
  /-- It is not a directory. -/
  plain : d₁.node? q ≠ some .directory
  /-- The journal is what the sibling was. -/
  node : d'.node? p = d₁.node? q
  /-- The sibling has gone, unless it was the journal already. -/
  gone : d' = d₁ ∨ d'.node? q = none
  /-- There is nothing else that has changed. -/
  confined : Confined { entry := fun r => r = p ∨ r = q, file := fun _ => False } d₁ d'

/-- **A replacement that is done** has exchanged the draft for the journal. -/
theorem Renamed.exists_draft (h : Renamed d path ps d') :
    ∃ above name id d₁ p q, d.reach true path.temporary = .ok (.entry above name false) ∧
      Opened d (above ++ [name]) id d₁ ∧ Exchanged d path p q d₁ d' := by
  obtain ⟨id, d₁, hcreate, hrename⟩ := h
  obtain ⟨above, name, hreach, hopened⟩ := Disk.opened_of_create hcreate
  have hopened' := hopened.write (encode ps)
  have hplain : ∀ q, (d₁.write id (encode ps)).placeOf? path.temporary = some q →
      (d₁.write id (encode ps)).node? q ≠ some .directory := by
    intro q hq
    rw [hopened'.placeOf?_eq] at hq
    rcases cases_of_opened hopened' hreach hq with hnode | ⟨i, target, -, hnode⟩ <;>
    simp [hnode]
  obtain ⟨hconfined, q, p, hq, hp, hnode, hgone⟩ := Disk.confined_rename hrename hplain
  exact ⟨above, name, id, d₁.write id (encode ps), p, q, hreach, hopened',
    { place := by rw [← hp, hopened'.placeOf?_eq]
      sibling := by rw [← hq, hopened'.placeOf?_eq]
      plain := hplain q hq
      node := hnode
      gone := hgone
      confined := hconfined.mono (fun r hr => hr.symm.imp
          (fun hr => Option.some.inj (hr.symm.trans hp))
          fun hr => Option.some.inj (hr.symm.trans hq)) fun _ hid => hid }⟩

theorem Renamed.confined (h : Renamed d path ps d') : Confined (rewriteExtent d path) d d' := by
  obtain ⟨above, name, id, d₁, p, q, hreach, hopened, hexchanged⟩ := h.exists_draft
  have hdraft : Confined (rewriteExtent d path) d d₁ :=
    Drafted.confined ⟨above, name, id, hreach, hopened⟩
  refine hdraft.trans hexchanged.confined ?_ fun _ hid => hid.elim
  rintro r (rfl | rfl)
  · exact .inl hexchanged.place
  · exact .inr (.inl hexchanged.sibling)

/-- **A replacement that is cut short** has kept to its extent, wherever it was stopped. -/
theorem confined_of_leaves_rewrite
    (hleaves : Leaves { disk := d, file := none } (rewriteSteps path ps) k) :
    Confined (rewriteExtent d path) d k.disk := by
  rcases cases_of_leaves hleaves with hnone | hdrafted | hrenamed
  · rw [hnone]
    exact .refl _ d
  · exact hdrafted.confined
  · exact hrenamed.confined

/-- **A replacement keeps to its extent**, whatever comes of it. -/
theorem replace_confined (path : Path) (ps : List Bytes) (d : Disk) :
    Confined (rewriteExtent d path) d (replace path ps d).2 := by
  have hconfined := confined_of_leaves_rewrite
    (Disk.leaves_runSteps { disk := d, file := none } (rewriteSteps path ps))
  rw [replace_eq_runSteps]
  rcases hrun : Disk.runSteps { disk := d, file := none } (rewriteSteps path ps) with ⟨_ | _, k⟩
  all_goals
    rw [hrun] at hconfined
    exact hconfined

theorem renamed_of_replace_ok (hok : (replace path ps d).1 = .ok ()) :
    Renamed d path ps (replace path ps d).2 := by
  have hcases := cases_of_replace path ps d
  rcases hreplace : replace path ps d with ⟨f | _, d'⟩
  · rw [hreplace] at hok
    cases hok
  · rw [hreplace] at hcases
    exact hcases

/-- **Nothing is left at the sibling** of a journal that has been replaced, unless the two are one
place, or two names of one file or link. -/
theorem vacated_of_replace_ok (hok : (replace path ps d).1 = .ok ())
    (hp : d.placeOf? path = some p) (hq : d.placeOf? path.temporary = some q) :
    (replace path ps d).2.node? q = none ∨
      (replace path ps d).2.node? q = (replace path ps d).2.node? p := by
  obtain ⟨above, name, id, d₁, p', q', -, -, h⟩ := (renamed_of_replace_ok hok).exists_draft
  obtain rfl : p' = p := Option.some.inj (h.place.symm.trans hp)
  obtain rfl : q' = q := Option.some.inj (h.sibling.symm.trans hq)
  rcases h.gone with heq | hnone
  · exact .inr (by rw [h.node, heq])
  · exact .inl hnone

/-! ### Opening and appending -/

/-- **Opening a file for appending**, with its header, keeps to the place that the path leads to,
wherever it is stopped. -/
theorem confined_of_leaves_open {isNew : Bool}
    (hleaves : Leaves { disk := d, file := none } (openSteps path isNew) k) :
    Confined (d.openExtent path) d k.disk := by
  obtain ⟨later, hsteps, hlater⟩ : ∃ later, openSteps path isNew = .openAppend path :: later ∧
      (later = [] ∨ ∃ data, later = [.write data, .sync]) := by
    cases isNew with
    | false => exact ⟨_, rfl, .inl rfl⟩
    | true => exact ⟨_, rfl, .inr ⟨_, rfl⟩⟩
  rw [hsteps] at hleaves
  rcases hleaves.cases_of_ne_write (by simp) with rfl | ⟨k₁, hrun, hleaves⟩
  · exact .refl _ d
  simp only [Step.run, Disk.openAppend] at hrun
  rcases hobtain : d.obtain path with f | ⟨id, d₁⟩
  all_goals
    rw [hobtain] at hrun
    cases hrun
  obtain ⟨above, name, hreach, -, hopened⟩ := Disk.opened_of_obtain hobtain
  rcases hlater with rfl | ⟨data, rfl⟩
  · rw [hleaves.eq_of_nil]
    exact hopened.confined hreach
  · rcases hleaves.cases_write with hk | ⟨front, rest, -, hk⟩ | hleaves
    · rw [hk]
      exact hopened.confined hreach
    · rw [hk]
      exact (hopened.write front).confined hreach
    · rw [hleaves.of_sync.eq_of_nil]
      exact (hopened.write data).confined hreach

/-- Opening a file for appending keeps to its extent. -/
theorem attach_confined (path : Path) (isNew : Bool) (nextSeq : Nat) (d : Disk) :
    Confined (d.openExtent path) d (Writer.attach path isNew nextSeq d).2 := by
  have hconfined := confined_of_leaves_open
    (Disk.leaves_runSteps { disk := d, file := none } (openSteps path isNew))
  unfold Writer.attach
  rcases hrun : Disk.runSteps { disk := d, file := none } (openSteps path isNew) with ⟨_ | _, k⟩
  all_goals rw [hrun] at hconfined
  · exact hconfined
  · simp only
    split <;> exact hconfined

/-- **Opening a journal touches the place that the path leads to** and nothing else. -/
theorem open_confined (path : Path) (d : Disk) :
    Confined (d.openExtent path) d (Writer.open path d).2 := by
  unfold Writer.open
  split
  · split
    · exact .refl _ d
    · split
      · exact .refl _ d
      · exact attach_confined path false _ d
  · exact attach_confined path true 0 d

/-- **An append touches the file that is open**, wherever it is stopped. -/
theorem confined_of_leaves_append {r : Record}
    (hleaves : Leaves { disk := d, file := some id } (appendSteps r) k) :
    Confined (Disk.writeExtent id) d k.disk := by
  rcases hleaves.cases_write with hk | ⟨front, rest, -, hk⟩ | hlater
  · rw [hk]
    exact .refl _ d
  · rw [hk]
    exact Disk.confined_write d id front
  · rw [hlater.of_sync.eq_of_nil]
    exact Disk.confined_write d id r.encode

theorem append_confined (w : Writer) (payload : Bytes) (d : Disk) :
    Confined (Disk.writeExtent w.file) d (w.append payload d).2.2 := by
  have hconfined := confined_of_leaves_append
    (Disk.leaves_runSteps { disk := d, file := some w.file }
      (appendSteps { seq := w.nextSeq, payload }))
  unfold Writer.append
  split
  · rcases hrun : Disk.runSteps { disk := d, file := some w.file }
      (appendSteps { seq := w.nextSeq, payload }) with ⟨_ | _, k⟩
    all_goals
      rw [hrun] at hconfined
      exact hconfined
  · exact .refl _ d

/-! ### Opening the journal that has been replaced -/

/-- **A sibling that was no link** makes no way that was not there before, and the path leads to the
file that it names now. -/
theorem Exchanged.target_of_file {d₁ : Disk} (h : Exchanged d path p q d₁ d')
    (hkept : d₁.Keeps d) (hfile : d'.node? p = some (.file id)) {r : Place}
    (hr : d'.targetOf? path = some r) : r = p := by
  have hkept' : d'.Keeps d := by
    refine Disk.Keeps.trans ?_ hkept
    rcases h.gone with rfl | hnone
    · exact .refl d'
    · refine ⟨h.confined.home.symm, fun {r node} hr hway => ?_⟩
      -- there is nothing at the one place any more, and a file at the other
      rw [h.confined.node r] at hr
      · exact hr
      · rintro (rfl | rfl)
        · rw [hfile] at hr
          exact hway id (Option.some.inj hr).symm
        · rw [hnone] at hr
          cases hr
  have hplace := Disk.placeOf?_of_target hr fun p' hp' i target hnode => by
    obtain rfl : p = p' := Option.some.inj (h.place.symm.trans (hkept'.placeOf? hp'))
    rw [hfile] at hnode
    cases hnode
  exact Option.some.inj ((hkept'.placeOf? hplace).symm.trans h.place)

/-- **A sibling that was a link** leads to the same file when it is the journal, or nowhere. -/
theorem Exchanged.target_of_link {d₁ : Disk} (h : Exchanged d path p q d₁ d')
    (hopened : Opened d (above ++ [name]) id d₁)
    (hreach : d.reach true path.temporary = .ok (.entry above name false)) {i : Nat} {target : Path}
    (hlink : d.node? q = some (.link i target)) {r : Place}
    (hr : d'.targetOf? path = some r) : r = p ∨ r = above ++ [name] := by
  obtain ⟨above₁, name₁, slash₁, hgoal₁, rfl⟩ := Disk.exists_goal_of_placeOf? h.place
  obtain ⟨above₂, name₂, slash₂, hgoal₂, rfl⟩ := Disk.exists_goal_of_placeOf? h.sibling
  obtain rfl := Disk.above_temporary hgoal₁ hgoal₂
  have hold := hopened.keeps.way hlink (by simp)
  have hne : above ++ [name] ≠ above₂ ++ [name₂] := by
    intro hne
    rw [← hne, hopened.self] at hold
    cases hold
  obtain ⟨g, hgoal, rfl | hlinked⟩ := Disk.exists_goal_of_reach hreach
  · rw [hgoal₂] at hgoal
    cases hgoal
    exact absurd rfl hne
  obtain ⟨above₃, name₃, slash₃, i', target', rfl, hchild, left, slash', hway⟩ := hlinked
  rw [hgoal₂] at hgoal
  cases hgoal
  have hnode := hlink.symm.trans (Disk.short_of_child hchild).2.symm
  cases hnode
  -- the way behind the link has not changed by the draft
  have hway' := hopened.keeps.goes hway fun above' name' _ i target hg _ hchild => by
    cases hg
    have hnode := hopened.self.symm.trans (Disk.short_of_child hchild).2.symm
    cases hnode
  have hrelinked : Disk.Relinked d₁ d' above₂ name₂ name₁ i target :=
    { old := hold
      new := h.node.trans hold
      plain := fun hplain => by
        rw [← h.confined.directory, h.node] at hplain
        exact h.plain hplain
      gone := by
        rcases h.gone with heq | hnone
        · exact .inr (by rw [heq, hold])
        · exact .inl hnone
      others := fun q hq hp => h.confined.node q fun hpq => hpq.elim hp hq }
  obtain ⟨b, n, hreach', rfl⟩ := Disk.exists_reach_of_targetOf? hr
  refine hrelinked.reach h.confined.home (hopened.keeps.goal hgoal₁) hway' ?_ hreach'
  by_cases hp : above ++ [name] = above₂ ++ [name₁]
  · exact .inl hp
  · exact .inr ⟨id, (hrelinked.others _ hne hp).trans hopened.self⟩

/-- **What a replaced journal leads to** is the file that has been written, unless there is a link
that leads back to itself. -/
theorem Renamed.exists_file (h : Renamed d path ps d') :
    ∃ id, (d.fileAt? path.temporary = some id ∨ d.files.size ≤ id) ∧
      ∀ r, d'.targetOf? path = some r →
        d'.node? r = some (.file id) ∨ ∃ i target, d'.node? r = some (.link i target) := by
  obtain ⟨above, name, id, d₁, p, q, hreach, hopened, hexchanged⟩ := h.exists_draft
  refine ⟨id, hopened.file hreach, fun r hr => ?_⟩
  rcases cases_of_opened hopened hreach hexchanged.sibling with hfile | ⟨i, target, hlink, hlink'⟩
  · have hplace := hexchanged.node.trans hfile
    obtain rfl := hexchanged.target_of_file hopened.kept hplace hr
    exact .inl hplace
  · have hplace := hexchanged.node.trans hlink'
    rcases hexchanged.target_of_link hopened hreach hlink hr with rfl | rfl
    · exact .inr ⟨i, target, hplace⟩
    · by_cases hp : above ++ [name] = p
      · exact .inr ⟨i, target, hp ▸ hplace⟩
      · refine .inl ((hexchanged.confined.node _ ?_).trans hopened.self)
        rintro (hp' | rfl)
        · exact hp hp'
        · rw [hopened.self] at hlink'
          cases hlink'

/-- **Opening the journal that has been replaced** touches nothing that the replacement has not
touched, and no entry at all. -/
theorem reopen_confined (hok : (replace path ps d).1 = .ok ()) :
    Confined (rewriteExtent d path) d (Writer.open path (replace path ps d).2).2 ∧
      ∀ q, (Writer.open path (replace path ps d).2).2.node? q = (replace path ps d).2.node? q := by
  obtain ⟨id, hsource, htarget⟩ := (renamed_of_replace_ok hok).exists_file
  have hopen := open_confined path (replace path ps d).2
  have hentry : ∀ q, ¬((replace path ps d).2.openExtent path).entry q := by
    rintro q ⟨hq, hnone⟩
    rcases htarget q hq with hnode | ⟨i, target, hnode⟩ <;>
    simp [hnone] at hnode
  refine ⟨(replace_confined path ps d).trans hopen (fun q hq => absurd hq (hentry q)) ?_,
    fun q => hopen.node q (hentry q)⟩
  intro id' hid
  obtain ⟨q, hq, hfile⟩ := Disk.exists_target_of_fileAt? hid
  rcases htarget q hq with hnode | ⟨i, target, hnode⟩
  · rw [hfile] at hnode
    cases hnode
    exact hsource
  · rw [hfile] at hnode
    cases hnode

end Journal

end CommandLog
