import CommandLog.Disk
import CommandLog.Proofs.Disk.Way

/-!
# Operations by path

Where a path leads depends on directories and links only, up to its last name. So as long as these
stay what they are, a path keeps naming one place, whatever files come and go.

* `CommandLog.Disk.Leads` – **a path names a place**: all of it but the last name is a directory
  that is there, and the last name is one that could be bound;
* `CommandLog.Disk.Opened` – what opening a file does to a disk, with
  `CommandLog.Disk.opened_of_obtain` for the place that was opened,
  `CommandLog.Disk.Sound.create_eq_ok` for a file that is emptied and
  `CommandLog.Disk.Leads.openAppend` for one that is there already;
* `CommandLog.Disk.Leads.of_rename` and `CommandLog.Disk.Leads.rename` – **a file put in place of
  another**, from the outcome and to it;
* `CommandLog.Disk.Sound.rename` and its siblings – every operation keeps a disk sound.

A path that names a place leads there only if no link is in the way at the very end. On a sound disk
there are none, which is where most of this is used.
-/

namespace CommandLog.Disk

variable {d d' d'' : Disk} {path path' : Path} {above above' : Place} {name name' : String}
  {id : FileId} {p q : Place} {creates slash : Bool}

/-! ### Directories and links that stay -/

theorem keeps_setContent (d : Disk) (id : FileId) (data : Bytes) : d.Keeps (d.setContent id data) :=
  ⟨rfl, fun h _ => h⟩

theorem keeps_write (d : Disk) (id : FileId) (data : Bytes) : d.Keeps (d.write id data) :=
  keeps_setContent d id _

theorem keeps_bind (hp : p ≠ []) (hleaf : d.IsLeaf p) (node : Node) : d.Keeps (d.bind p node) := by
  refine ⟨rfl, fun {q old} hq hold => ?_⟩
  rw [node?_bind hp, if_neg]
  · exact hq
  · rintro rfl
    obtain ⟨id, rfl⟩ := hleaf _ hq
    exact hold id rfl

theorem keeps_unbind (hp : p ≠ []) (hleaf : d.IsLeaf p) : d.Keeps (d.unbind p) := by
  refine ⟨rfl, fun {q old} hq hold => ?_⟩
  rw [node?_unbind hp, if_neg]
  · exact hq
  · rintro rfl
    obtain ⟨id, rfl⟩ := hleaf _ hq
    exact hold id rfl

theorem keeps_addFile (hp : p ≠ []) (hleaf : d.IsLeaf p) : d.Keeps (d.addFile p).2 :=
  ⟨rfl, (keeps_bind hp hleaf (.file d.files.size)).way⟩

/-! ### Places that paths name -/

/-- **A path names a place**: a name in a directory that is there. -/
structure Leads (d : Disk) (path : Path) (above : Place) (name : String) : Prop where
  /-- The path ends in this name, without a slash behind it. -/
  goal : d.goal path = .ok (.entry above name false)
  /-- The name is not too long. -/
  short : ¬Path.maxNameBytes < name.utf8ByteSize

theorem Leads.keeps (h : d.Leads path above name) (hkeeps : d.Keeps d') :
    d'.Leads path above name :=
  ⟨hkeeps.goal h.goal, h.short⟩

theorem Leads.unique (h : d.Leads path above name) (h' : d.Leads path above' name') :
    above = above' ∧ name = name' := by
  have heq := h.goal.symm.trans h'.goal
  cases heq
  exact ⟨rfl, rfl⟩

/-- **A name that an entry can have** in any directory. -/
structure IsName (name : String) : Prop where
  /-- It does not end in its middle. -/
  nul : name.contains '\x00' = false
  /-- It is not too long. -/
  short : ¬Path.maxNameBytes < name.utf8ByteSize
  /-- It is not empty. -/
  ne_empty : name ≠ ""
  /-- It is not that of the directory itself. -/
  ne_self : name ≠ Path.selfName
  /-- It is not that of the directory above. -/
  ne_parent : name ≠ Path.parentName

theorem IsName.fault? (h : IsName name) : ({ parts := [name] } : Path).fault? = none := by
  have htext : ({ parts := [name] } : Path).text = name := by simp [Path.text]
  have hnul : ({ parts := [name] } : Path).hasNul = false := by simpa [Path.hasNul] using h.nul
  have hlong : ¬Path.maxBytes < name.utf8ByteSize := by
    have hshort := h.short
    simp only [Path.maxNameBytes] at hshort
    simp only [Path.maxBytes]
    omega
  simp [Path.fault?, htext, hnul, hlong, h.ne_empty]

theorem IsName.names (h : IsName name) : ({ parts := [name] } : Path).names = [name] := by
  simp [Path.names, h.ne_empty]

theorem IsName.endsInSlash (h : IsName name) :
    ({ parts := [name] } : Path).endsInSlash = false := by
  simp [Path.endsInSlash, h.ne_empty]

theorem startFrom_name (place : Place) (name : String) :
    startFrom place { parts := [name] } = place := by
  simp [startFrom, Path.isAbsolute]

theorem IsName.finish_eq_ok_iff (h : IsName name) {follows : Bool → Bool} {g : Goal} :
    d.finish follows { parts := [name] } = .ok g ↔
      d.Way follows maxLinks false d.home [name] g := by
  rw [Disk.finish_eq_ok_iff, h.names, h.endsInSlash, startFrom_name, and_iff_right h.fault?]

/-- **A single name** is the name of a place in the working directory. -/
theorem IsName.leads (h : IsName name) : d.Leads { parts := [name] } d.home name :=
  ⟨h.finish_eq_ok_iff.mpr (.last h.ne_self h.ne_parent (by simp)), h.short⟩

theorem Leads.child (h : d.Leads path above name) :
    d.child above name = .ok (d.node? (above ++ [name])) :=
  if_neg h.short

theorem append_singleton_ne_nil (above : Place) (name : String) : above ++ [name] ≠ [] :=
  List.append_ne_nil_of_right_ne_nil above (List.cons_ne_nil name [])

/-- No place lies above the directory that it is in. -/
theorem not_above_of_append (above : Place) (name : String) : ¬(above ++ [name]) <+: above := by
  intro hle
  have hlen := hle.length_le
  rw [List.length_append, List.length_singleton] at hlen
  exact Nat.not_succ_le_self _ hlen

/-- A name that is found in a directory is not too long. -/
theorem short_of_child {node : Option Node} (h : d.child above name = .ok node) :
    ¬Path.maxNameBytes < name.utf8ByteSize ∧ node = d.node? (above ++ [name]) := by
  unfold Disk.child at h
  split at h
  · cases h
  · next hshort =>
    cases h
    exact ⟨hshort, rfl⟩

theorem IsLeaf.child_ne_link (h : d.IsLeaf (above ++ [name])) (id : Nat) (target : Path) :
    d.child above name ≠ .ok (some (.link id target)) := by
  intro hchild
  exact h.ne_link id target (short_of_child hchild).2.symm

/-- **A link from one name to another** leads to the other one. -/
theorem IsName.reach (h : IsName name) (h' : IsName name') {i : Nat}
    (hlink : d.node? (d.home ++ [name]) = some (.link i { parts := [name'] }))
    (hleaf : d.IsLeaf (d.home ++ [name'])) :
    d.reach creates { parts := [name] } = .ok (.entry d.home name' false) := by
  have hchild := h.leads.child.trans (congrArg Except.ok hlink)
  rw [Disk.reach, h.finish_eq_ok_iff]
  refine .link h.ne_self h.ne_parent (by simp) hchild h'.fault? ?_
  rw [h'.names, h'.endsInSlash, startFrom_name]
  exact .last h'.ne_self h'.ne_parent fun _ => hleaf.child_ne_link

/-- **The path leads to the place that it names**, unless there is a link. -/
theorem Leads.reach (h : d.Leads path above name) (hleaf : d.IsLeaf (above ++ [name])) :
    d.reach creates path = .ok (.entry above name false) := by
  refine reach_of_goal h.goal ?_
  rintro above name slash id target hg
  cases hg
  exact hleaf.child_ne_link id target

/-- **Where there are no links**, a path ends where it leads. -/
theorem Sound.reach_eq_ok_iff (h : d.Sound) {g : Goal} :
    d.reach creates path = .ok g ↔ d.goal path = .ok g := by
  have hlink : ∀ above name id target, d.child above name ≠ .ok (some (.link id target)) :=
    fun above name id target hchild => h.node?_ne_link id target (short_of_child hchild).2.symm
  constructor
  · intro hreach
    obtain ⟨g', hgoal, rfl | ⟨above, name, slash, id, target, -, hchild, -⟩⟩ :=
      exists_goal_of_reach hreach
    · exact hgoal
    · exact absurd hchild (hlink above name id target)
  · exact fun hgoal =>
      reach_of_goal hgoal fun above name _ id target _ => hlink above name id target

theorem Leads.locate (h : d.Leads path above name) (hleaf : d.IsLeaf (above ++ [name])) :
    d.locate path = .ok (d.node? (above ++ [name])) := by
  simp only [Disk.locate, h.reach hleaf, h.child]
  rcases d.node? (above ++ [name]) with _ | _ | _ | _ <;> rfl

theorem Leads.locateFile (h : d.Leads path above name)
    (hfile : d.node? (above ++ [name]) = some (.file id)) : d.locateFile path = .ok id := by
  simp only [Disk.locateFile, h.locate (isLeaf_of_file hfile), hfile]

/-- **A file that is found has a name**, and the path names it where there are no links. -/
theorem Sound.leads_of_locateFile (hsound : d.Sound) (h : d.locateFile path = .ok id) :
    ∃ above name, d.Leads path above name ∧ d.node? (above ++ [name]) = some (.file id) := by
  unfold Disk.locateFile at h
  split at h
  · cases h
  · cases h
  · next id' hlocate =>
    cases h
    unfold Disk.locate at hlocate
    split at hlocate
    · cases hlocate
    · cases hlocate
    · next above name slash hreach =>
      split at hlocate
      · next hchild =>
        split at hlocate
        · cases hlocate
        · next hslash =>
          cases hlocate
          obtain ⟨hshort, hnode⟩ := short_of_child hchild
          rw [Bool.eq_false_iff.mpr hslash, hsound.reach_eq_ok_iff] at hreach
          exact ⟨above, name, ⟨hreach, hshort⟩, hnode.symm⟩
      · next hother => exact absurd hlocate (hother id)
  · cases h

theorem Leads.read (h : d.Leads path above name)
    (hfile : d.node? (above ++ [name]) = some (.file id)) : d.read path = .ok (d.content id) := by
  rw [Disk.read, h.locateFile hfile]
  rfl

/-- **What can be read** is a file, which has contents or not. -/
theorem hasContent_of_read {bytes : Bytes} (h : d.read path = .ok bytes) :
    d.hasContent path = !bytes.isEmpty := by
  rw [Disk.read, Disk.locateFile] at h
  rw [Disk.hasContent]
  rcases hlocate : d.locate path with f | _ | id | _ | _
  all_goals rw [hlocate] at h
  · cases h
  · cases h
  · obtain rfl : d.content id = bytes := Except.ok.inj h
    rfl
  · cases h
  · cases h

/-! ### Files that are opened -/

/-- **A file has been opened at a place**, and been made if it was not there. Nothing else has
changed. -/
structure Opened (d : Disk) (place : Place) (id : FileId) (d' : Disk) : Prop where
  /-- The place has the file, and the others have what they had. -/
  node : ∀ q, d'.node? q = if q = place then some (.file id) else d.node? q
  /-- Directories and links stay what they are. -/
  keeps : d.Keeps d'
  /-- A file still has one name. -/
  sound : d.Sound → d'.Sound
  /-- The file was at the place, or it is new. -/
  source : d.node? place = some (.file id) ∨ d.node? place = none ∧ id = d.files.size
  /-- No file is gone. -/
  size : d.files.size ≤ d'.files.size
  /-- The other files stay as they are. -/
  others : ∀ id', id' < d.files.size → id' ≠ id → d'.content id' = d.content id'

theorem Opened.self (h : Opened d p id d') : d'.node? p = some (.file id) := by
  rw [h.node, if_pos rfl]

theorem Opened.of_ne (h : Opened d p id d') (hne : q ≠ p) : d'.node? q = d.node? q := by
  rw [h.node, if_neg hne]

/-- Opening a file makes nothing but a file. -/
theorem Opened.isLeaf_of (h : Opened d p id d') (hq : d.IsLeaf q) : d'.IsLeaf q := by
  by_cases hp : q = p
  · exact hp ▸ isLeaf_of_file h.self
  · exact hq.congr (h.of_ne hp)

/-- A file that is there is open as it is. -/
theorem opened_of_file (hfile : d.node? p = some (.file id)) : Opened d p id d where
  node q := by
    split
    · next hq => rw [hq, hfile]
    · rfl
  keeps := .refl d
  sound h := h
  source := .inl hfile
  size := Nat.le_refl _
  others _ _ _ := rfl

/-- A file that is made is open. -/
theorem opened_addFile (hp : p ≠ []) (hnone : d.node? p = none) :
    Opened d p d.files.size (d.addFile p).2 where
  node q := node?_addFile hp
  keeps := keeps_addFile hp (isLeaf_of_none hnone)
  sound h := h.addFile p
  source := .inr ⟨hnone, rfl⟩
  size := by simp [addFile, bind]
  others _ hlt _ := content_addFile_of_lt hlt

/-- Other contents in a file that has been opened. -/
theorem Opened.setContent (h : Opened d p id d') (data : Bytes) :
    Opened d p id (d'.setContent id data) where
  node := h.node
  keeps := h.keeps.trans (keeps_setContent d' id data)
  sound hsound := (h.sound hsound).setContent id data
  source := h.source
  size := by simpa using h.size
  others id' hlt hne := by rw [content_setContent_of_ne hne, h.others id' hlt hne]

/-- More bytes in a file that has been opened. -/
theorem Opened.write (h : Opened d p id d') (data : Bytes) : Opened d p id (d'.write id data) :=
  h.setContent _

/-- What opening a file comes to at the place that a path names. -/
theorem Leads.obtain (h : d.Leads path above name) (hleaf : d.IsLeaf (above ++ [name])) :
    d.obtain path =
      match d.node? (above ++ [name]) with
      | some (.file id) => .ok (id, d)
      | _ => .ok (d.addFile (above ++ [name])) := by
  simp only [Disk.obtain, h.reach hleaf, h.child]
  rcases hnode : d.node? (above ++ [name]) with _ | node
  · rfl
  · obtain ⟨id, rfl⟩ := hleaf node hnode
    rfl

/-- **What can be opened has a place**, and is opened there. -/
theorem opened_of_obtain (h : d.obtain path = .ok (id, d')) :
    ∃ above name, d.reach true path = .ok (.entry above name false) ∧
      ¬Path.maxNameBytes < name.utf8ByteSize ∧ Opened d (above ++ [name]) id d' := by
  unfold Disk.obtain at h
  split at h
  · cases h
  · cases h
  · next above name slash hreach =>
    split at h
    · cases h
    · next hslash =>
      rw [Bool.eq_false_iff.mpr hslash] at hreach
      refine ⟨above, name, hreach, ?_⟩
      split at h
      · cases h
      · next hchild =>
        cases h
        obtain ⟨hshort, hnone⟩ := short_of_child hchild
        exact ⟨hshort, opened_addFile (append_singleton_ne_nil above name) hnone.symm⟩
      · next hchild =>
        cases h
        obtain ⟨hshort, hfile⟩ := short_of_child hchild
        exact ⟨hshort, opened_of_file hfile.symm⟩
      · cases h

theorem Opened.isLeaf (h : Opened d p id d') : d.IsLeaf p := by
  rcases h.source with hfile | ⟨hnone, -⟩
  · exact isLeaf_of_file hfile
  · exact isLeaf_of_none hnone

theorem Sound.obtain_eq_ok (h : d.Sound) (hobtain : d.obtain path = .ok (id, d')) :
    ∃ above name, d.Leads path above name ∧ Opened d (above ++ [name]) id d' := by
  obtain ⟨above, name, hreach, hshort, hopened⟩ := opened_of_obtain hobtain
  exact ⟨above, name, ⟨h.reach_eq_ok_iff.mp hreach, hshort⟩, hopened⟩

/-- A file that is created is opened first. -/
theorem obtain_of_create (hcreate : d.create path = .ok (id, d')) :
    ∃ d₁, d.obtain path = .ok (id, d₁) ∧ d' = d₁.setContent id [] := by
  unfold Disk.create at hcreate
  rcases hobtain : d.obtain path with f | ⟨id', d₁⟩
  all_goals
    rw [hobtain] at hcreate
    cases hcreate
  exact ⟨d₁, rfl, rfl⟩

/-- What can be created has a place, too. -/
theorem opened_of_create (hcreate : d.create path = .ok (id, d')) :
    ∃ above name, d.reach true path = .ok (.entry above name false) ∧
      Opened d (above ++ [name]) id d' := by
  obtain ⟨d₁, hobtain, rfl⟩ := obtain_of_create hcreate
  obtain ⟨above, name, hreach, -, hopened⟩ := opened_of_obtain hobtain
  exact ⟨above, name, hreach, hopened.setContent []⟩

/-- **A file that has been created** is empty, at the place that the path names. -/
theorem Sound.create_eq_ok (h : d.Sound) (hcreate : d.create path = .ok (id, d')) :
    ∃ above name, d.Leads path above name ∧ Opened d (above ++ [name]) id d' ∧
      d'.content id = [] := by
  obtain ⟨d₁, hobtain, rfl⟩ := obtain_of_create hcreate
  obtain ⟨above, name, hleads, hopened⟩ := h.obtain_eq_ok hobtain
  refine ⟨above, name, hleads, hopened.setContent [], ?_⟩
  exact content_setContent_self ((hopened.sound h).lt_size hopened.self)

/-- A file can be created where there is nothing but perhaps a file. -/
theorem Leads.create (h : d.Leads path above name) (hleaf : d.IsLeaf (above ++ [name])) :
    ∃ r, d.create path = .ok r := by
  rw [Disk.create, h.obtain hleaf]
  split
  · exact ⟨_, rfl⟩
  · exact ⟨_, rfl⟩

/-- **A file that is there** is opened without any change. -/
theorem Leads.openAppend (h : d.Leads path above name)
    (hfile : d.node? (above ++ [name]) = some (.file id)) : d.openAppend path = .ok (id, d) := by
  rw [Disk.openAppend, h.obtain (isLeaf_of_file hfile), hfile]

/-- A file that is not there is made. -/
theorem Leads.openAppend_of_none (h : d.Leads path above name)
    (hnone : d.node? (above ++ [name]) = none) :
    d.openAppend path = .ok (d.addFile (above ++ [name])) := by
  rw [Disk.openAppend, h.obtain (isLeaf_of_none hnone), hnone]

/-! ### Files that are put in place of others -/

/-- A file at a new place. -/
def putAt (d : Disk) (source target : Place) (id : FileId) : Disk :=
  (d.unbind source).bind target (.file id)

theorem node?_putAt {source target : Place} (hsource : source ≠ []) (htarget : target ≠ []) :
    (d.putAt source target id).node? q =
      if q = target then some (.file id) else if q = source then none else d.node? q := by
  rw [putAt, node?_bind htarget, node?_unbind hsource]

theorem keeps_putAt {source target : Place} (hsource : source ≠ [])
    (htarget : target ≠ []) (hfile : d.node? source = some (.file id))
    (hleaf : d.IsLeaf target) : d.Keeps (d.putAt source target id) :=
  (keeps_unbind hsource (isLeaf_of_file hfile)).trans
    (keeps_bind htarget (isLeaf_unbind hleaf hsource) _)

/-- A path that can be followed has no character in it that ends texts. -/
theorem hasNul_of_goal {g : Goal} (h : d.goal path = .ok g) : path.hasNul = false := by
  rw [Disk.goal, finish_eq_ok_iff] at h
  have hfault := h.1
  unfold Path.fault? at hfault
  split at hfault
  · cases hfault
  · next hnul => exact Bool.eq_false_iff.mpr hnul

/-- What succeeds was not refused. -/
theorem ok_of_unless {α : Type} {c : Prop} [Decidable c] {f : Fault} {r : Except Fault α} {a : α}
    (h : (if c then .error f else r) = .ok a) : ¬c ∧ r = .ok a := by
  by_cases hc : c
  · rw [if_pos hc] at h
    cases h
  · rw [if_neg hc] at h
    exact ⟨hc, h⟩

/-- **What a rename that succeeds has found**: both places, a node at the first of them, and
nothing that speaks against it. -/
theorem of_rename (hrename : d.rename path path' = .ok d') :
    ∃ above name slash above' name' slash' node,
      d.goal path = .ok (.entry above name slash) ∧
      d.goal path' = .ok (.entry above' name' slash') ∧
      d.child above name = .ok (some node) ∧
      d.child above' name' = .ok (d.node? (above' ++ [name'])) ∧
      ¬(node ≠ .directory ∧ (slash || slash') = true) ∧
      ¬(above ++ [name]) <+: above' ∧ ¬(above' ++ [name']) <+: above ∧
      (if above ++ [name] = above' ++ [name'] ∨
          node ≠ .directory ∧ d.node? (above' ++ [name']) = some node then .ok d
        else d.replace (above ++ [name]) (above' ++ [name']) node
          (d.node? (above' ++ [name']))) = .ok d' := by
  unfold Disk.rename at hrename
  split at hrename
  · cases hrename
  split at hrename
  · cases hrename
  · cases hrename
  · next above name slash above' name' slash' hgoal hgoal' =>
    split at hrename
    · cases hrename
    · cases hrename
    · cases hrename
    · next node old hchild hchild' =>
      obtain ⟨-, rfl⟩ := short_of_child hchild'
      obtain ⟨hslash, hrename⟩ := ok_of_unless hrename
      obtain ⟨hbelow, hrename⟩ := ok_of_unless hrename
      obtain ⟨habove, hrename⟩ := ok_of_unless hrename
      rw [List.isPrefixOf_iff_prefix] at hbelow habove
      exact ⟨above, name, slash, above', name', slash', node, hgoal, hgoal', hchild, hchild',
        hslash, hbelow, habove, hrename⟩
  · cases hrename

/-- Two names of one file are one name. -/
theorem Sound.same_iff (h : d.Sound) (hfile : d.node? p = some (.file id)) :
    (p = q ∨ Node.file id ≠ .directory ∧ d.node? q = some (.file id)) ↔ p = q := by
  constructor
  · rintro (hpq | ⟨-, hq⟩)
    · exact hpq
    · exact h.single (mem_names_of_node? hfile (by simp)) (mem_names_of_node? hq (by simp))
  · exact .inl

/-- **A file that has been renamed** is at the place that the new path names, unless that was its
place before. -/
theorem Leads.of_rename (h : d.Leads path above name) (hsound : d.Sound)
    (hfile : d.node? (above ++ [name]) = some (.file id)) (hrename : d.rename path path' = .ok d') :
    ∃ above' name', d.Leads path' above' name' ∧ d.IsLeaf (above' ++ [name']) ∧
      ¬(above ++ [name]) <+: above' ∧ ¬(above' ++ [name']) <+: above ∧
      d' = if above ++ [name] = above' ++ [name'] then d
        else d.putAt (above ++ [name]) (above' ++ [name']) id := by
  obtain ⟨above₁, name₁, slash, above', name', slash', node, hgoal, hgoal', hchild, hchild', hslash,
    hbelow, habove, hdone⟩ := Disk.of_rename hrename
  obtain ⟨rfl, rfl, rfl⟩ : above₁ = above ∧ name₁ = name ∧ slash = false := by
    rw [h.goal] at hgoal
    cases hgoal
    exact ⟨rfl, rfl, rfl⟩
  obtain rfl : node = .file id := by
    rw [h.child, hfile] at hchild
    exact (Option.some.inj (Except.ok.inj hchild)).symm
  obtain rfl : slash' = false := by simpa using hslash
  refine ⟨above', name', ⟨hgoal', (short_of_child hchild').1⟩, ?_⟩
  simp only [hsound.same_iff hfile] at hdone
  by_cases hplace : above₁ ++ [name₁] = above' ++ [name']
  · rw [if_pos hplace] at hdone ⊢
    refine ⟨?_, hbelow, habove, (Except.ok.inj hdone).symm⟩
    rw [← hplace]
    exact isLeaf_of_file hfile
  · rw [if_neg hplace] at hdone ⊢
    refine ⟨hsound.isLeaf ?_, hbelow, habove, ?_⟩
    all_goals
      rcases hold : d.node? (above' ++ [name']) with _ | _ | _ | _
      all_goals
        rw [hold] at hdone
        cases hdone
    all_goals simp [putAt]

/-- **A file can be renamed** to where there is nothing but perhaps a file, unless one of the places
is above the other. -/
theorem Leads.rename (h : d.Leads path above name) (hsound : d.Sound)
    (hfile : d.node? (above ++ [name]) = some (.file id)) (h' : d.Leads path' above' name')
    (hleaf : d.IsLeaf (above' ++ [name']))
    (hbelow : ¬(above ++ [name]) <+: above') (habove : ¬(above' ++ [name']) <+: above) :
    d.rename path path' = .ok (if above ++ [name] = above' ++ [name'] then d
      else d.putAt (above ++ [name]) (above' ++ [name']) id) := by
  rw [← List.isPrefixOf_iff_prefix] at hbelow habove
  simp only [Disk.rename, hasNul_of_goal h.goal, hasNul_of_goal h'.goal, Bool.or_false, h.goal,
    h'.goal, h.child, h'.child, hfile, hbelow, habove, hsound.same_iff hfile]
  simp only [Bool.false_eq_true, if_false, and_false]
  split
  · rfl
  · rcases hold : d.node? (above' ++ [name']) with _ | node
    · rfl
    · obtain ⟨id', rfl⟩ := hleaf node hold
      rfl

/-- **A file or a link can be put at a free place.** -/
theorem Leads.rename_of_none {node : Node} (h : d.Leads path above name)
    (hnode : d.node? (above ++ [name]) = some node) (hplain : node ≠ .directory)
    (h' : d.Leads path' above' name') (hnone : d.node? (above' ++ [name']) = none)
    (hbelow : ¬(above ++ [name]) <+: above') (habove : ¬(above' ++ [name']) <+: above) :
    d.rename path path' = .ok ((d.unbind (above ++ [name])).bind (above' ++ [name']) node) := by
  have hne : above ++ [name] ≠ above' ++ [name'] := by
    intro hplace
    rw [hplace, hnone] at hnode
    cases hnode
  rw [← List.isPrefixOf_iff_prefix] at hbelow habove
  simp only [Disk.rename, hasNul_of_goal h.goal, hasNul_of_goal h'.goal, Bool.or_false, h.goal,
    h'.goal, h.child, h'.child, hnode, hnone, hbelow, habove, hne]
  simp only [Bool.false_eq_true, if_false, and_false, reduceCtorEq, or_false]
  cases node with
  | directory => exact absurd rfl hplain
  | file | link => rfl

/-! ### Every operation keeps a disk sound -/

theorem Sound.obtain (h : d.Sound) (hobtain : d.obtain path = .ok (id, d')) : d'.Sound := by
  obtain ⟨above, name, -, hopened⟩ := h.obtain_eq_ok hobtain
  exact hopened.sound h

theorem Sound.create (h : d.Sound) (hcreate : d.create path = .ok (id, d')) : d'.Sound := by
  obtain ⟨above, name, -, hopened, -⟩ := h.create_eq_ok hcreate
  exact hopened.sound h

theorem Sound.put (h : d.Sound) {data : Bytes} (hput : d.put path data = .ok d') : d'.Sound := by
  unfold Disk.put at hput
  cases hcreate : d.create path with
  | error f =>
    rw [hcreate] at hput
    cases hput
  | ok r =>
    rw [hcreate] at hput
    cases hput
    exact (h.create hcreate).setContent _ _

theorem Sound.add (h : d.Sound) {data : Bytes} (hadd : d.add path data = .ok d') : d'.Sound := by
  unfold Disk.add at hadd
  cases hopen : d.openAppend path with
  | error f =>
    rw [hopen] at hadd
    cases hadd
  | ok r =>
    rw [hopen] at hadd
    cases hadd
    exact (h.obtain hopen).write _ _

theorem Sound.remove (h : d.Sound) (hremove : d.remove path = .ok d') : d'.Sound := by
  unfold Disk.remove at hremove
  split at hremove
  · cases hremove
  · cases hremove
  · split at hremove
    · cases hremove
    · cases hremove
    · cases hremove
    · split at hremove
      · cases hremove
      · cases hremove
        exact h.unbind _

theorem Sound.makeDirectory (h : d.Sound) (hmake : d.makeDirectory path = .ok d') : d'.Sound := by
  unfold Disk.makeDirectory at hmake
  split at hmake
  · cases hmake
  · cases hmake
  · split at hmake
    · cases hmake
    · cases hmake
    · cases hmake
      exact h.bind_directory _

theorem Sound.replace (h : d.Sound) {source target : Place} {node : Node} {old : Option Node}
    (hsource : d.node? source = some node) (hreplace : d.replace source target node old = .ok d') :
    d'.Sound := by
  rcases node with id | ⟨id, link⟩ | _
  · rcases old with _ | _ | _ | _ <;> cases hreplace
    all_goals exact h.rebind hsource target
  · exact absurd hsource (h.node?_ne_link id link)
  · rcases old with _ | _ | _ | _
    · cases hreplace
      exact h.moveTree source target
    · cases hreplace
    · cases hreplace
    · obtain ⟨-, hreplace⟩ := ok_of_unless hreplace
      cases hreplace
      exact (h.unbind target).moveTree source target

theorem Sound.rename (h : d.Sound) (hrename : d.rename path path' = .ok d') : d'.Sound := by
  obtain ⟨above, name, -, above', name', -, node, -, -, hchild, -, -, -, -, hdone⟩ :=
    of_rename hrename
  split at hdone
  · cases hdone
    exact h
  · exact h.replace (short_of_child hchild).2.symm hdone

end CommandLog.Disk
