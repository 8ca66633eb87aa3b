import CommandLog.Proofs.Journal.File

/-!
# Journals that can be replaced

A journal can be replaced wherever its temporary sibling can be created. The two are in one
directory then, so a rename can put the one in place of the other. Nothing else is needed: the
journal need not be there yet, and it may be its own temporary sibling.

* `CommandLog.Journal.Placed` – **a place for a journal**, and one for its temporary sibling in the
  same directory. Whatever is opened, written or replaced, it stays one
  (`CommandLog.Journal.Placed.opened`);
* `CommandLog.Journal.placed_of_create` – where the sibling can be created, there is such a place;
* `CommandLog.Journal.Placed.replace` – **a replacement succeeds**, and the path leads to the new
  journal;
* `CommandLog.Journal.Blank` – nothing is there, or a file without contents, and
  `CommandLog.Journal.Blank.open` – **the first opening makes an empty journal**.
-/

namespace CommandLog.Journal

open Disk (Leads Opened)

variable {d d' : Disk} {path : Path} {above place : Place} {name name' : String} {id : FileId}
  {bytes : Bytes} {ps : List Bytes}

/-! ### Places for journals -/

/-- **A place for a journal**, and one for its temporary sibling. They may be the same place. -/
structure Placed (d : Disk) (path : Path) (above : Place) (name name' : String) : Prop where
  /-- The path names its place. -/
  leads : d.Leads path above name
  /-- The sibling has a place in the same directory. -/
  sibling : d.Leads path.temporary above name'
  /-- There is nothing but perhaps a file at the place of the path. -/
  plain : d.IsLeaf (above ++ [name])
  /-- There is nothing but perhaps a file at the place of the sibling. -/
  vacant : d.IsLeaf (above ++ [name'])

/-- **Where the temporary sibling can be created**, there is a place for the journal. -/
theorem placed_of_create (hsound : d.Sound) (hleads : d.Leads path above name)
    (hplain : d.IsLeaf (above ++ [name])) (hcreate : ∃ r, d.create path.temporary = .ok r) :
    ∃ name', Placed d path above name name' := by
  obtain ⟨⟨id, d'⟩, hcreate⟩ := hcreate
  obtain ⟨above', name', hsibling, hopened, -⟩ := hsound.create_eq_ok hcreate
  obtain rfl := Disk.above_temporary hleads.goal hsibling.goal
  exact ⟨name', hleads, hsibling, hplain, hopened.isLeaf⟩

/-- **A file that has been opened**, at whichever place, leaves a place for the journal. -/
theorem Placed.opened (h : Placed d path above name name') (hopened : Opened d place id d') :
    Placed d' path above name name' where
  leads := h.leads.keeps hopened.keeps
  sibling := h.sibling.keeps hopened.keeps
  plain := hopened.isLeaf_of h.plain
  vacant := hopened.isLeaf_of h.vacant

/-! ### Replacing -/

/-- **The sibling takes the place of the journal.** -/
theorem Placed.rename (h : Placed d path above name name') (hsound : d.Sound)
    (hfile : d.node? (above ++ [name']) = some (.file id)) :
    ∃ d', d.rename path.temporary path = .ok d' ∧ Placed d' path above name name' := by
  have hsource := Disk.append_singleton_ne_nil above name'
  have htarget := Disk.append_singleton_ne_nil above name
  refine ⟨_, h.sibling.rename hsound hfile h.leads h.plain (Disk.not_above_of_append above name')
    (Disk.not_above_of_append above name), ?_⟩
  split
  · -- the journal is its own sibling, and the rename does nothing
    exact h
  · next hne =>
    have hkeeps := Disk.keeps_putAt hsource htarget hfile h.plain
    have hnode : (d.putAt (above ++ [name']) (above ++ [name]) id).node? (above ++ [name]) =
        some (.file id) := by
      rw [Disk.node?_putAt hsource htarget, if_pos rfl]
    refine ⟨h.leads.keeps hkeeps, h.sibling.keeps hkeeps, Disk.isLeaf_of_file hnode,
      Disk.isLeaf_of_none ?_⟩
    · rw [Disk.node?_putAt hsource htarget, if_neg hne, if_pos rfl]

/-- **A replacement succeeds**, and the path leads to the new journal. -/
theorem Placed.replace (h : Placed d path above name name') (hsound : d.Sound)
    (hfits : ∀ p ∈ ps, fits p = true) :
    ∃ d' id, Journal.replace path ps d = (.ok (), d') ∧ Placed d' path above name name' ∧
      Holds d' path above name id (encode ps) := by
  -- what has been written so far is at the sibling, which is all that the rename asks for
  obtain ⟨⟨id, d₁⟩, hcreate⟩ := h.sibling.create h.vacant
  obtain ⟨above', name₁, hsibling, hopened, hdraft⟩ := drafted hsound hcreate (encode ps)
  obtain ⟨rfl, rfl⟩ := hsibling.unique h.sibling
  obtain ⟨d', hrename, hplaced⟩ := (h.opened hopened).rename hdraft.sound hdraft.node
  have hreplace : Journal.replace path ps d = (.ok (), d') := by
    rw [replace_eq hfits, hcreate]
    simp only [hrename]
  obtain ⟨above', name', id', hholds⟩ := Holds.of_replace_ok hsound hfits hreplace
  obtain ⟨rfl, rfl⟩ := hholds.leads.unique hplaced.leads
  exact ⟨d', id', hreplace, hplaced, hholds⟩

/-! ### Journals that are not there yet -/

/-- **Nothing is there, or a file without contents.** A slash at the end of the path would ask for
a directory. -/
def Blank (d : Disk) (path : Path) : Prop :=
  (d.locate path = .ok none ∧ path.endsInSlash = false) ∨ d.read path = .ok []

theorem holds_of_read (hsound : d.Sound) (hread : d.read path = .ok bytes) :
    ∃ above name id, Holds d path above name id bytes := by
  rw [Disk.read] at hread
  rcases hlocate : d.locateFile path with f | id
  · rw [hlocate] at hread
    exact absurd hread (by simp [Except.map])
  · rw [hlocate] at hread
    obtain ⟨above, name, hholds⟩ := holds_of_locateFile hsound hlocate
    obtain rfl : d.content id = bytes := Except.ok.inj hread
    exact ⟨above, name, id, hholds⟩

/-- **Where nothing is there, or a file without contents**, there is a place for a file, and opening
the file for writing at its end makes it or finds it empty. -/
theorem Blank.obtain (h : Blank d path) (hsound : d.Sound) :
    ∃ above name, d.Leads path above name ∧ d.IsLeaf (above ++ [name]) ∧
      d.hasContent path = false ∧ ∃ id d', d.openAppend path = .ok (id, d') ∧
        Opened d (above ++ [name]) id d' ∧ Holds d' path above name id [] := by
  rcases h with ⟨hlocate, hslash⟩ | hread
  · -- the file is made, and a new file is empty
    obtain ⟨above, name, hleads, hnone⟩ := hsound.leads_of_locate_none hlocate hslash
    have hopen := hleads.openAppend_of_none hnone
    obtain ⟨above', name', hleads', hopened⟩ := hsound.obtain_eq_ok hopen
    obtain ⟨rfl, rfl⟩ := hleads'.unique hleads
    refine ⟨above', name', hleads, Disk.isLeaf_of_none hnone, by simp [Disk.hasContent, hlocate],
      _, _, hopen, hopened, hopened.sound hsound, hleads.keeps hopened.keeps, hopened.self,
      Disk.content_addFile_self⟩
  · obtain ⟨above, name, id, hholds⟩ := holds_of_read hsound hread
    exact ⟨above, name, hholds.leads, Disk.isLeaf_of_file hholds.node,
      by rw [hholds.hasContent]; rfl, id, d, hholds.leads.openAppend hholds.node,
      Disk.opened_of_file hholds.node, hholds⟩

/-- **The first opening makes an empty journal.** -/
theorem Blank.open (h : Blank d path) (hplaced : Placed d path above name name')
    (hsound : d.Sound) :
    ∃ id d', Writer.open path d = (.ok { path, file := id, nextSeq := 0 }, d') ∧
      Placed d' path above name name' ∧ Holds d' path above name id (encode []) := by
  obtain ⟨above', name₁, hleads, -, hcontent, id, d₁, hopen, hopened, hholds⟩ := h.obtain hsound
  obtain ⟨rfl, rfl⟩ := hleads.unique hplaced.leads
  exact ⟨id, _, open_of_empty hcontent hopen, hplaced.opened (hopened.write _),
    hholds.write (encode [])⟩

end CommandLog.Journal
