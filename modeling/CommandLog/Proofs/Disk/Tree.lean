import CommandLog.Disk.Tree

/-!
# What a change of a disk leaves as it is

Names and files are changed one at a time. This file says what is at every place, and in every
file, after each change, and which disks there are at all.

* `CommandLog.Disk.node?_bind` and `CommandLog.Disk.node?_unbind` – what is at a place after a
  name was bound or taken away;
* `CommandLog.Disk.content_setContent_self` and `CommandLog.Disk.content_setContent_of_ne` – what is
  in a file after one has got other contents;
* `CommandLog.Disk.Sound` – **every name of a file is its only name**, the file exists, and there
  are no links. The disk before anything happened to it is such a disk
  (`CommandLog.Disk.sound_under`), and every change of a name or of a file keeps it one;
* `CommandLog.Disk.IsLeaf` – a place that a file is at, or may be put at.

A sound disk is what makes files independent of each other: two places with files have two files,
so that writing to one of them does not show at the other.
-/

namespace CommandLog.Disk

variable {d : Disk} {p q source target : Place} {node : Node} {id id' : FileId} {data : Bytes}

/-! ### Places -/

theorem lookup_filter_ne {names : List (Place × Node)} (h : q ≠ p) :
    (names.filter (·.1 ≠ p)).lookup q = names.lookup q := by
  induction names with
  | nil => rfl
  | cons entry names ih =>
    obtain ⟨place, node⟩ := entry
    by_cases hplace : place = p
    · subst hplace
      simpa [List.lookup_cons, beq_eq_false_iff_ne.mpr h] using ih
    · simp only [List.filter_cons, hplace, ne_eq, not_false_eq_true, decide_true, if_true,
        List.lookup_cons]
      split
      · rfl
      · exact ih

theorem lookup_filter_self {names : List (Place × Node)} :
    (names.filter (·.1 ≠ p)).lookup p = none := by
  rw [List.lookup_eq_none_iff]
  intro entry hentry
  have hne : entry.1 ≠ p := of_decide_eq_true (List.mem_filter.mp hentry).2
  exact bne_iff_ne.mpr hne.symm

theorem node?_of_ne_nil (h : p ≠ []) : d.node? p = d.names.lookup p := by
  cases p with
  | nil => exact absurd rfl h
  | cons => rfl

/-- **A bound name** leads to what it was bound to, and the others stay as they are. -/
theorem node?_bind (hp : p ≠ []) :
    (d.bind p node).node? q = if q = p then some node else d.node? q := by
  cases q with
  | nil => rw [if_neg hp.symm]; rfl
  | cons name rest =>
    rw [node?_of_ne_nil (List.cons_ne_nil name rest), node?_of_ne_nil (List.cons_ne_nil name rest),
      bind, List.lookup_cons]
    by_cases hq : name :: rest = p
    · simp [hq]
    · simp only [beq_eq_false_iff_ne.mpr hq, if_neg hq]
      exact lookup_filter_ne hq

/-- **A name that was taken away** leads nowhere, and the others stay as they are. -/
theorem node?_unbind (hp : p ≠ []) :
    (d.unbind p).node? q = if q = p then none else d.node? q := by
  cases q with
  | nil => rw [if_neg hp.symm]; rfl
  | cons name rest =>
    rw [node?_of_ne_nil (List.cons_ne_nil name rest), node?_of_ne_nil (List.cons_ne_nil name rest),
      unbind]
    by_cases hq : name :: rest = p
    · rw [if_pos hq, hq]
      exact lookup_filter_self
    · rw [if_neg hq]
      exact lookup_filter_ne hq

@[simp] theorem node?_write (d : Disk) (id : FileId) (data : Bytes) (q : Place) :
    (d.write id data).node? q = d.node? q := rfl

theorem node?_addFile (hp : p ≠ []) :
    (d.addFile p).2.node? q = if q = p then some (.file d.files.size) else d.node? q :=
  node?_bind hp

/-- What is at a place other than the root is among the names. -/
theorem mem_names_of_node? (h : d.node? p = some node) (hne : node ≠ .directory) :
    (p, node) ∈ d.names := by
  cases p with
  | nil => exact absurd (Option.some.inj h).symm hne
  | cons name rest =>
    rw [node?_of_ne_nil (List.cons_ne_nil name rest), List.lookup_eq_some_iff] at h
    obtain ⟨before, after, hnames, -⟩ := h
    rw [hnames]
    exact List.mem_append_right before List.mem_cons_self

/-! ### Files -/

theorem content_setContent_self (h : id < d.files.size) :
    (d.setContent id data).content id = data := by
  simp [content, setContent, h]

theorem content_setContent_of_ne (h : id' ≠ id) :
    (d.setContent id data).content id' = d.content id' := by
  simp [content, setContent, Array.getElem?_setIfInBounds_ne h.symm]

@[simp] theorem size_setContent (d : Disk) (id : FileId) (data : Bytes) :
    (d.setContent id data).files.size = d.files.size := by
  simp [setContent]

/-- **More bytes at the end of a file** are there behind the others. -/
theorem content_write_self (h : id < d.files.size) :
    (d.write id data).content id = d.content id ++ data :=
  content_setContent_self h

theorem content_addFile_of_lt (h : id < d.files.size) :
    (d.addFile p).2.content id = d.content id := by
  simp [content, addFile, bind, Array.getElem?_push, Nat.ne_of_lt h]

/-- A new file is empty. -/
theorem content_addFile_self : (d.addFile p).2.content (d.addFile p).1 = [] := by
  simp [content, addFile, bind]

/-! ### Disks on which files have one name -/

/-- **Every name of a file is its only name**, the file exists, and nothing is a link. -/
structure Sound (d : Disk) : Prop where
  /-- A file with a name exists. -/
  made : ∀ {p : Place} {id : FileId}, (p, Node.file id) ∈ d.names → id < d.files.size
  /-- A file has no two names. -/
  single : ∀ {p q : Place} {id : FileId}, (p, Node.file id) ∈ d.names →
    (q, Node.file id) ∈ d.names → p = q
  /-- There are no links. -/
  unlinked : ∀ {p : Place} {id : Nat} {target : Path}, (p, Node.link id target) ∉ d.names

theorem Sound.lt_size (h : d.Sound) (hp : d.node? p = some (.file id)) : id < d.files.size :=
  h.made (mem_names_of_node? hp (by simp))

/-- **Files at two places are two files.** -/
theorem Sound.ne_of_ne (h : d.Sound) (hp : d.node? p = some (.file id))
    (hq : d.node? q = some (.file id')) (hne : p ≠ q) : id ≠ id' := by
  rintro rfl
  exact hne (h.single (mem_names_of_node? hp (by simp)) (mem_names_of_node? hq (by simp)))

/-- Nothing is a link. -/
theorem Sound.node?_ne_link (h : d.Sound) (id : Nat) (target : Path) :
    d.node? p ≠ some (.link id target) :=
  fun hp => h.unlinked (mem_names_of_node? hp (by simp))

theorem mem_names_under {home : Place} (h : (p, node) ∈ (under home).names) :
    node = .directory := by
  obtain ⟨n, -, hn⟩ := List.mem_map.mp h
  cases hn
  rfl

theorem sound_under (home : Place) : (under home).Sound where
  made hmem := nomatch mem_names_under hmem
  single hmem := nomatch mem_names_under hmem
  unlinked hmem := nomatch mem_names_under hmem

/-- Names that are taken away, or moved, do not make a file have two of them. -/
theorem Sound.of_names {d' : Disk} (h : d.Sound) (hsize : d'.files.size = d.files.size)
    (f : Place → Place)
    (hnames : ∀ p node, (p, node) ∈ d'.names → node ≠ .directory →
      ∃ q, f q = p ∧ (q, node) ∈ d.names) : d'.Sound where
  made hp := by
    obtain ⟨q, -, hq⟩ := hnames _ _ hp (by simp)
    rw [hsize]
    exact h.made hq
  single hp hp' := by
    obtain ⟨q, rfl, hq⟩ := hnames _ _ hp (by simp)
    obtain ⟨q', rfl, hq'⟩ := hnames _ _ hp' (by simp)
    rw [h.single hq hq']
  unlinked hp := by
    obtain ⟨q, -, hq⟩ := hnames _ _ hp (by simp)
    exact h.unlinked hq

theorem Sound.setContent (h : d.Sound) (id : FileId) (data : Bytes) :
    (d.setContent id data).Sound :=
  h.of_names (size_setContent d id data) (fun p => p) fun p _ hp _ => ⟨p, rfl, hp⟩

theorem Sound.write (h : d.Sound) (id : FileId) (data : Bytes) : (d.write id data).Sound :=
  h.setContent id _

theorem Sound.unbind (h : d.Sound) (p : Place) : (d.unbind p).Sound :=
  h.of_names rfl (fun p => p) fun q _ hq _ => ⟨q, rfl, (List.mem_filter.mp hq).1⟩

theorem Sound.moveTree (h : d.Sound) (source target : Place) :
    (d.moveTree source target).Sound := by
  refine h.of_names rfl (moved source target) ?_
  intro p node hp _
  obtain ⟨⟨q, node⟩, hq, hmoved⟩ := List.mem_map.mp hp
  cases hmoved
  exact ⟨q, rfl, hq⟩

theorem Sound.bind_directory (h : d.Sound) (p : Place) : (d.bind p .directory).Sound := by
  refine h.of_names rfl (fun p => p) fun q node hq hne => ⟨q, rfl, ?_⟩
  rcases List.mem_cons.mp hq with hnew | hold
  · cases hnew
    exact absurd rfl hne
  · exact (List.mem_filter.mp hold).1

/-- A file that has no name may get one. -/
theorem Sound.bind_file (h : d.Sound) (hsize : id < d.files.size)
    (hfresh : ∀ q, (q, Node.file id) ∉ d.names) (p : Place) : (d.bind p (.file id)).Sound := by
  have hcases : ∀ q id', (q, Node.file id') ∈ (d.bind p (.file id)).names →
      q = p ∧ id' = id ∨ (q, Node.file id') ∈ d.names := by
    intro q id' hq
    rcases List.mem_cons.mp hq with hnew | hold
    · cases hnew
      exact .inl ⟨rfl, rfl⟩
    · exact .inr (List.mem_filter.mp hold).1
  constructor
  · intro q id' hq
    rcases hcases q id' hq with ⟨-, rfl⟩ | hold
    · exact hsize
    · exact h.made hold
  · intro q q' id' hq hq'
    -- of two names of this file, neither can be an older one
    rcases hcases q id' hq with ⟨rfl, rfl⟩ | hold <;> rcases hcases q' id' hq' with ⟨rfl, hid⟩ | hold'
    · rfl
    · exact absurd hold' (hfresh q')
    · exact absurd (hid ▸ hold) (hfresh q)
    · exact h.single hold hold'
  · intro q id' target hq
    rcases List.mem_cons.mp hq with hnew | hold
    · cases hnew
    · exact h.unlinked (List.mem_filter.mp hold).1

theorem Sound.addFile (h : d.Sound) (p : Place) : (d.addFile p).2.Sound := by
  have hpush : ({ d with files := d.files.push [] } : Disk).Sound :=
    { made := fun hq => by
        rw [Array.size_push]
        exact Nat.lt_succ_of_lt (h.made hq)
      single := h.single
      unlinked := h.unlinked }
  refine hpush.bind_file ?_ ?_ p
  · rw [Array.size_push]
    exact Nat.lt_succ_self _
  · intro q hq
    exact Nat.lt_irrefl _ (h.made hq)

/-- A file may change its name. -/
theorem Sound.rebind (h : d.Sound) (hsource : d.node? source = some (.file id)) (target : Place) :
    ((d.unbind source).bind target (.file id)).Sound := by
  refine (h.unbind source).bind_file (h.lt_size hsource) ?_ target
  intro q hq
  obtain ⟨hold, hne⟩ := List.mem_filter.mp hq
  have heq := h.single hold (mem_names_of_node? hsource (by simp))
  simp [heq] at hne

/-! ### Leaves of the tree -/

/-- **A place that a file is at, or may be put at**: it has nothing but perhaps a file. -/
def IsLeaf (d : Disk) (p : Place) : Prop :=
  ∀ node, d.node? p = some node → ∃ id, node = .file id

theorem isLeaf_of_none (h : d.node? p = none) : d.IsLeaf p := by
  intro node hnode
  rw [h] at hnode
  cases hnode

theorem isLeaf_of_file (h : d.node? p = some (.file id)) : d.IsLeaf p := by
  intro node hnode
  rw [h] at hnode
  exact ⟨id, (Option.some.inj hnode).symm⟩

/-- Where there are no links, only directories stand in the way of a file. -/
theorem Sound.isLeaf (h : d.Sound) (hnode : d.node? p ≠ some .directory) : d.IsLeaf p := by
  rintro (id | ⟨id, target⟩ | _) hp
  · exact ⟨id, rfl⟩
  · exact absurd hp (h.node?_ne_link id target)
  · exact absurd hp hnode

theorem IsLeaf.congr {d' : Disk} (h : d.IsLeaf p) (hp : d'.node? p = d.node? p) : d'.IsLeaf p :=
  fun node hnode => h node (hp ▸ hnode)

theorem IsLeaf.ne_directory (h : d.IsLeaf p) : d.node? p ≠ some .directory := by
  intro hp
  obtain ⟨id, hid⟩ := h _ hp
  cases hid

theorem IsLeaf.ne_link (h : d.IsLeaf p) (id : Nat) (target : Path) :
    d.node? p ≠ some (.link id target) := by
  intro hp
  obtain ⟨id, hid⟩ := h _ hp
  cases hid

theorem isLeaf_unbind (h : d.IsLeaf target) (hsource : source ≠ []) :
    (d.unbind source).IsLeaf target := by
  intro node hnode
  rw [node?_unbind hsource] at hnode
  split at hnode
  · cases hnode
  · exact h node hnode

end CommandLog.Disk
