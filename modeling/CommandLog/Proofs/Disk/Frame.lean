import CommandLog.Proofs.Disk.Temporary

/-!
# What an operation leaves alone

An operation on a disk is about an entry or two and a file or two. This file says what it means that
everything else stays as it was, and what each operation keeps to, on whatever disk: files may have
several names, and there may be links.

* `CommandLog.Disk.Item` and `CommandLog.Disk.item?` – **what is seen at a place**: nothing, a
  directory, a link, or a file with its contents, whatever its number;
* `CommandLog.Disk.placeOf?` and `CommandLog.Disk.itemAt?` – the place that a path names, whether
  or not a slash follows the name, and what is seen there;
* `CommandLog.Disk.targetOf?` and `CommandLog.Disk.fileAt?` – the place that a path leads to when a
  file is opened for writing, and the file there;
* `CommandLog.Disk.Extent` and `CommandLog.Disk.Confined` – **nothing but some entries and some
  files has changed**, with `CommandLog.Disk.Confined.trans` for one operation after the other;
* `CommandLog.Disk.confined_write`, `CommandLog.Disk.Opened.confined`,
  `CommandLog.Disk.confined_rename` and `CommandLog.Disk.confined_remove` – one lemma for each
  operation.

Entries and files are told apart because a file is seen under all its names, and under the links
that lead to it: a change of its contents shows in all these places, although none of them has
changed.
-/

namespace CommandLog.Disk

variable {d d' d'' : Disk} {path path' : Path} {above : Place} {name : String} {id : FileId}
  {p q source target : Place} {slash : Bool}

/-! ### What is seen at a place -/

/-- What is seen at a place where there is something. -/
inductive Item where
  /-- A directory. -/
  | directory
  /-- A file with its contents. -/
  | file (bytes : Bytes)
  /-- A link with the path that it stands for. -/
  | link (target : Path)
deriving DecidableEq, Repr

/-- **What is seen at a place.** -/
def item? (d : Disk) (place : Place) : Option Item :=
  match d.node? place with
  | none => none
  | some .directory => some .directory
  | some (.file id) => some (.file (d.content id))
  | some (.link _ target) => some (.link target)

theorem item?_of_file (h : d.node? p = some (.file id)) :
    d.item? p = some (.file (d.content id)) := by
  rw [item?, h]

/-- What is seen at a place depends on what is there, and on the contents of the file there. -/
theorem item?_congr (hnode : d'.node? p = d.node? p)
    (hcontent : ∀ id, d.node? p = some (.file id) → d'.content id = d.content id) :
    d'.item? p = d.item? p := by
  rw [item?, item?, hnode]
  rcases hp : d.node? p with _ | id | _ | _
  · rfl
  · simp only [hcontent id hp]
  · rfl
  · rfl

/-- **The place that a path names**, whether there is something or not. -/
def placeOf? (d : Disk) (path : Path) : Option Place :=
  match d.goal path with
  | .ok (.entry above name _) => some (above ++ [name])
  | _ => none

/-- What is seen at the place that a path names. -/
def itemAt? (d : Disk) (path : Path) : Option Item :=
  (d.placeOf? path).bind d.item?

theorem placeOf?_of_goal (h : d.goal path = .ok (.entry above name slash)) :
    d.placeOf? path = some (above ++ [name]) := by
  rw [placeOf?, h]

theorem itemAt?_of_goal (h : d.goal path = .ok (.entry above name slash)) :
    d.itemAt? path = d.item? (above ++ [name]) := by
  rw [itemAt?, placeOf?_of_goal h, Option.bind_some]

theorem exists_goal_of_placeOf? (h : d.placeOf? path = some p) :
    ∃ above name slash, d.goal path = .ok (.entry above name slash) ∧ p = above ++ [name] := by
  unfold placeOf? at h
  split at h
  · next above name slash hgoal => exact ⟨above, name, slash, hgoal, (Option.some.inj h).symm⟩
  · cases h

theorem Keeps.placeOf? (h : d.Keeps d') (hplace : d.placeOf? path = some p) :
    d'.placeOf? path = some p := by
  obtain ⟨above, name, slash, hgoal, rfl⟩ := exists_goal_of_placeOf? hplace
  exact placeOf?_of_goal (h.goal hgoal)

/-- **A path names one place** as long as directories and links neither come nor go. -/
theorem Keeps.placeOf?_eq (h : d.Keeps d') (h' : d'.Keeps d) :
    d'.placeOf? path = d.placeOf? path :=
  Option.ext fun _ => ⟨h'.placeOf?, h.placeOf?⟩

/-- Opening a file makes no directory and no link. -/
theorem Opened.kept (h : Opened d p id d') : d'.Keeps d := by
  refine ⟨h.keeps.home.symm, fun {q node} hq hnode => ?_⟩
  rw [h.node] at hq
  split at hq
  · exact absurd (Option.some.inj hq).symm (hnode id)
  · exact hq

theorem Opened.placeOf?_eq (h : Opened d p id d') : d'.placeOf? path = d.placeOf? path :=
  h.keeps.placeOf?_eq h.kept

/-- **A path that names another place** finds there what it found, where files have one name. -/
theorem Opened.itemAt? (h : Opened d p id d') (hsound : d.Sound)
    (hpath : d.placeOf? path ≠ some p) : d'.itemAt? path = d.itemAt? path := by
  rw [Disk.itemAt?, Disk.itemAt?, h.placeOf?_eq]
  cases hplace : d.placeOf? path with
  | none => rfl
  | some q =>
    have hq : q ≠ p := fun hq => hpath (hq ▸ hplace)
    refine item?_congr (h.of_ne hq) fun id' hfile => ?_
    exact h.others id' (hsound.lt_size hfile)
      ((h.sound hsound).ne_of_ne ((h.of_ne hq).trans hfile) h.self hq)

/-! ### What a path leads to -/

/-- **The place that a path leads to** when a file is opened for writing, or made. -/
def targetOf? (d : Disk) (path : Path) : Option Place :=
  match d.reach true path with
  | .ok (.entry above name false) => some (above ++ [name])
  | _ => none

/-- The file that is there. -/
def fileAt? (d : Disk) (path : Path) : Option FileId :=
  match (d.targetOf? path).bind d.node? with
  | some (.file id) => some id
  | _ => none

theorem targetOf?_of_reach (h : d.reach true path = .ok (.entry above name false)) :
    d.targetOf? path = some (above ++ [name]) := by
  rw [targetOf?, h]

theorem fileAt?_of_target (h : d.targetOf? path = some p) (hfile : d.node? p = some (.file id)) :
    d.fileAt? path = some id := by
  rw [fileAt?, h, Option.bind_some, hfile]

theorem exists_target_of_fileAt? (h : d.fileAt? path = some id) :
    ∃ p, d.targetOf? path = some p ∧ d.node? p = some (.file id) := by
  unfold fileAt? at h
  split at h
  · next hfile =>
    obtain ⟨p, htarget, hnode⟩ := Option.bind_eq_some_iff.mp hfile
    cases h
    exact ⟨p, htarget, hnode⟩
  · cases h

theorem exists_reach_of_targetOf? (h : d.targetOf? path = some p) :
    ∃ above name, d.reach true path = .ok (.entry above name false) ∧ p = above ++ [name] := by
  unfold targetOf? at h
  split at h
  · next above name hreach => exact ⟨above, name, hreach, (Option.some.inj h).symm⟩
  · cases h

theorem targetOf?_congr (hhome : d'.home = d.home) (hnode : ∀ q, d'.node? q = d.node? q) :
    d'.targetOf? path = d.targetOf? path := by
  refine Option.ext fun p => ⟨fun hp => ?_, fun hp => ?_⟩
  · obtain ⟨above, name, hreach, rfl⟩ := exists_reach_of_targetOf? hp
    exact targetOf?_of_reach (reach_of_node? hhome.symm (fun q => (hnode q).symm) hreach)
  · obtain ⟨above, name, hreach, rfl⟩ := exists_reach_of_targetOf? hp
    exact targetOf?_of_reach (reach_of_node? hhome hnode hreach)

theorem fileAt?_congr (hhome : d'.home = d.home) (hnode : ∀ q, d'.node? q = d.node? q) :
    d'.fileAt? path = d.fileAt? path := by
  rw [fileAt?, fileAt?, targetOf?_congr hhome hnode, funext hnode]

theorem placeOf?_congr (hhome : d'.home = d.home) (hnode : ∀ q, d'.node? q = d.node? q) :
    d'.placeOf? path = d.placeOf? path :=
  (keeps_of_node? hhome hnode).placeOf?_eq (keeps_of_node? hhome.symm fun q => (hnode q).symm)

/-- **Where there is no link at its end**, a path leads to the place that it names. -/
theorem placeOf?_of_target (h : d.targetOf? path = some p)
    (hlink : ∀ q, d.placeOf? path = some q → ∀ id target, d.node? q ≠ some (.link id target)) :
    d.placeOf? path = some p := by
  obtain ⟨above, name, hreach, rfl⟩ := exists_reach_of_targetOf? h
  obtain ⟨g, hgoal, rfl | ⟨above', name', slash', id, target, rfl, hchild, -⟩⟩ :=
    exists_goal_of_reach hreach
  · exact placeOf?_of_goal hgoal
  · exact absurd (short_of_child hchild).2.symm (hlink _ (placeOf?_of_goal hgoal) id target)

/-! ### Changes that are confined -/

/-- **What a change may touch.** -/
structure Extent where
  /-- The entries that may come, go, or be bound to something else. -/
  entry : Place → Prop
  /-- The files whose contents may change. -/
  file : FileId → Prop

/-- What the one or the other touches. -/
instance : Union Extent where
  union x y :=
    { entry := fun q => x.entry q ∨ y.entry q
      file := fun id => x.file id ∨ y.file id }

/-- **Nothing but some entries and some files has changed**, and there are the same directories as
before. New files may have any contents. -/
structure Confined (x : Extent) (d d' : Disk) : Prop where
  /-- The working directory is where it was. -/
  home : d'.home = d.home
  /-- The other entries have what they had. -/
  node : ∀ q, ¬x.entry q → d'.node? q = d.node? q
  /-- No directory is gone, and none is new. -/
  directory : ∀ q, d'.node? q = some .directory ↔ d.node? q = some .directory
  /-- No file is gone. -/
  size : d.files.size ≤ d'.files.size
  /-- The other files have the contents that they had. -/
  content : ∀ id, id < d.files.size → ¬x.file id → d'.content id = d.content id

variable {x y : Extent}

theorem Confined.refl (x : Extent) (d : Disk) : Confined x d d where
  home := rfl
  node _ _ := rfl
  directory _ := Iff.rfl
  size := Nat.le_refl _
  content _ _ _ := rfl

/-- **One change after the other.** The second one touches what the first one does, or files that
were not there before. -/
theorem Confined.trans (h : Confined x d d') (h' : Confined y d' d'')
    (hentry : ∀ q, y.entry q → x.entry q)
    (hfile : ∀ id, y.file id → x.file id ∨ d.files.size ≤ id) : Confined x d d'' where
  home := h'.home.trans h.home
  node q hq := (h'.node q fun hy => hq (hentry q hy)).trans (h.node q hq)
  directory q := (h'.directory q).trans (h.directory q)
  size := Nat.le_trans h.size h'.size
  content id hlt hid := by
    refine (h'.content id (Nat.lt_of_lt_of_le hlt h.size) fun hy => ?_).trans (h.content id hlt hid)
    rcases hfile id hy with hx | hle
    · exact hid hx
    · exact Nat.not_lt.mpr hle hlt

theorem Confined.mono (h : Confined x d d') (hentry : ∀ q, x.entry q → y.entry q)
    (hfile : ∀ id, x.file id → y.file id) : Confined y d d' :=
  (Confined.refl y d).trans h hentry fun id hid => .inl (hfile id hid)

/-- **What is seen elsewhere** is what was seen there. -/
theorem Confined.item? (h : Confined x d d') (hq : ¬x.entry q)
    (hfile : ∀ id, d.node? q = some (.file id) → id < d.files.size ∧ ¬x.file id) :
    d'.item? q = d.item? q :=
  item?_congr (h.node q hq) fun id hid => h.content id (hfile id hid).1 (hfile id hid).2

/-! ### The operations -/

/-- What is touched by bytes that are written to a file. -/
def writeExtent (id : FileId) : Extent where
  entry _ := False
  file id' := id' = id

theorem confined_setContent (d : Disk) (id : FileId) (data : Bytes) :
    Confined (writeExtent id) d (d.setContent id data) where
  home := rfl
  node _ _ := rfl
  directory _ := Iff.rfl
  size := by simp
  content _ _ hne := content_setContent_of_ne hne

/-- **Bytes that are written to a file** change its contents and no entry. -/
theorem confined_write (d : Disk) (id : FileId) (data : Bytes) :
    Confined (writeExtent id) d (d.write id data) :=
  confined_setContent d id _

/-- What is touched when a path is opened for writing: the place that it leads to, if a file is to
be made there, and the file that is there otherwise, which may be emptied or written to. -/
def openExtent (d : Disk) (path : Path) : Extent where
  entry q := d.targetOf? path = some q ∧ d.node? q = none
  file id := d.fileAt? path = some id

/-- **A file that is opened** is at the place that the path leads to. -/
theorem Opened.confined (h : Opened d (above ++ [name]) id d')
    (hreach : d.reach true path = .ok (.entry above name false)) :
    Confined (d.openExtent path) d d' := by
  have htarget := targetOf?_of_reach hreach
  have hnode : ∀ q, ¬(d.openExtent path).entry q → d'.node? q = d.node? q := by
    intro q hq
    rw [h.node]
    split
    · next hplace =>
      subst hplace
      rcases h.source with hfile | ⟨hnone, -⟩
      · exact hfile.symm
      · exact absurd ⟨htarget, hnone⟩ hq
    · rfl
  have hcontent : ∀ id', id' < d.files.size → ¬(d.openExtent path).file id' →
      d'.content id' = d.content id' := by
    intro id' hlt hid
    refine h.others id' hlt ?_
    rintro rfl
    rcases h.source with hfile | ⟨-, rfl⟩
    · exact hid (fileAt?_of_target htarget hfile)
    · exact Nat.lt_irrefl _ hlt
  exact { home := h.keeps.home, node := hnode, size := h.size, content := hcontent
          directory := fun q => ⟨h.kept.directory, h.keeps.directory⟩ }

/-- The file that is open is the one there, or it is new. -/
theorem Opened.file (h : Opened d (above ++ [name]) id d')
    (hreach : d.reach true path = .ok (.entry above name false)) :
    d.fileAt? path = some id ∨ d.files.size ≤ id := by
  rcases h.source with hfile | ⟨-, rfl⟩
  · exact .inl (fileAt?_of_target (targetOf?_of_reach hreach) hfile)
  · exact .inr (Nat.le_refl _)

/-- What is touched when one name is put in place of another. -/
def renameExtent (d : Disk) (path path' : Path) : Extent where
  entry q := d.placeOf? path = some q ∨ d.placeOf? path' = some q
  file _ := False

/-- **What is renamed is bound to its new name**, unless it was already. -/
theorem replace_eq_ok {node : Node} {old : Option Node} (hnode : node ≠ .directory)
    (hreplace : d.replace source target node old = .ok d') :
    old ≠ some .directory ∧ d' = (d.unbind source).bind target node := by
  rcases node with id | ⟨id, link⟩ | _
  · rcases old with _ | _ | _ | _ <;> cases hreplace
    all_goals exact ⟨by simp, rfl⟩
  · rcases old with _ | _ | _ | _ <;> cases hreplace
    all_goals exact ⟨by simp, rfl⟩
  · exact absurd rfl hnode

/-- **A file or a link that is renamed** leaves its old place, unless the two names are of one and
the same already. -/
theorem confined_rename (hrename : d.rename path path' = .ok d')
    (hplain : ∀ q, d.placeOf? path = some q → d.node? q ≠ some .directory) :
    Confined (d.renameExtent path path') d d' ∧
      ∃ p q, d.placeOf? path = some p ∧ d.placeOf? path' = some q ∧ d'.node? q = d.node? p ∧
        (d' = d ∨ d'.node? p = none) := by
  obtain ⟨above, name, slash, above', name', slash', node, hgoal, hgoal', hchild, -, -, -, -,
    hdone⟩ := of_rename hrename
  have hplace := placeOf?_of_goal hgoal
  have hplace' := placeOf?_of_goal hgoal'
  have hfound := (short_of_child hchild).2.symm
  have hnode : node ≠ .directory := fun hnode => hplain _ hplace (hnode ▸ hfound)
  split at hdone
  · next hsame =>
    cases hdone
    refine ⟨.refl _ d, _, _, hplace, hplace', ?_, .inl rfl⟩
    rcases hsame with hsame | ⟨-, hsame⟩
    · rw [hsame]
    · rw [hsame, hfound]
  · next hother =>
    rw [not_or] at hother
    obtain ⟨hold, rfl⟩ := replace_eq_ok hnode hdone
    have hsource := append_singleton_ne_nil above name
    have htarget := append_singleton_ne_nil above' name'
    have hafter : ∀ q, ((d.unbind (above ++ [name])).bind (above' ++ [name']) node).node? q =
        if q = above' ++ [name'] then some node
        else if q = above ++ [name] then none else d.node? q := by
      intro q
      rw [node?_bind htarget, node?_unbind hsource]
    have hothers : ∀ q, ¬(d.renameExtent path path').entry q →
        ((d.unbind (above ++ [name])).bind (above' ++ [name']) node).node? q = d.node? q := by
      intro q hq
      rw [hafter, if_neg, if_neg]
      · rintro rfl
        exact hq (.inl hplace)
      · rintro rfl
        exact hq (.inr hplace')
    have hdirectory : ∀ q,
        ((d.unbind (above ++ [name])).bind (above' ++ [name']) node).node? q = some .directory ↔
          d.node? q = some .directory := by
      intro q
      rw [hafter]
      split
      · next hq => simp [hq, hold, hnode]
      · split
        · next hq => simp [hq, hfound, hnode]
        · rfl
    refine ⟨?_, _, _, hplace, hplace', ?_, .inr ?_⟩
    · exact { home := rfl, node := hothers, directory := hdirectory, size := Nat.le_refl _
              content := fun _ _ _ => rfl }
    · rw [hafter, if_pos rfl, hfound]
    · rw [hafter, if_neg hother.1, if_pos rfl]

/-- What is touched when a name is removed. -/
def removeExtent (d : Disk) (path : Path) : Extent where
  entry q := d.placeOf? path = some q
  file _ := False

/-- **A name that is removed** is the one that the path ends in. -/
theorem confined_remove (hremove : d.remove path = .ok d') :
    Confined (d.removeExtent path) d d' := by
  unfold Disk.remove at hremove
  split at hremove
  · cases hremove
  · cases hremove
  · next above name slash hgoal =>
    split at hremove
    · cases hremove
    · cases hremove
    · cases hremove
    · next node hnode hchild =>
      obtain ⟨-, hremove⟩ := ok_of_unless hremove
      cases hremove
      have hne := append_singleton_ne_nil above name
      have hfound := (short_of_child hchild).2.symm
      have hothers : ∀ q, ¬(d.removeExtent path).entry q →
          (d.unbind (above ++ [name])).node? q = d.node? q := by
        intro q hq
        rw [node?_unbind hne, if_neg]
        rintro rfl
        exact hq (placeOf?_of_goal hgoal)
      have hdirectory : ∀ q, (d.unbind (above ++ [name])).node? q = some .directory ↔
          d.node? q = some .directory := by
        intro q
        rw [node?_unbind hne]
        split
        · next hq => simpa [hq, hfound] using hnode
        · rfl
      exact { home := rfl, node := hothers, directory := hdirectory, size := Nat.le_refl _
              content := fun _ _ _ => rfl }

end CommandLog.Disk
