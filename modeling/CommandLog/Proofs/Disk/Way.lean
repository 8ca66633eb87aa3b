import CommandLog.Disk.Lookup
import CommandLog.Proofs.Disk.Tree

/-!
# Ways

The end of a way depends on the directories and the links that are passed, and on nothing else up to
the last name. This file says so, by an account of how a way is found.

* `CommandLog.Disk.Way` – **a way and its end**, one name or link at a time, with
  `CommandLog.Disk.resolve_eq_ok_iff` for the ways that are found;
* `CommandLog.Disk.Keeps` – directories and links stay what they are, and then
  `CommandLog.Disk.Keeps.goal` says that **paths keep their ends**;
* `CommandLog.Disk.Way.rename` – a way with another last name goes through the same directories;
* `CommandLog.Disk.reach_of_goal` and `CommandLog.Disk.exists_goal_of_reach` – **following the link
  at the end** of a path makes a difference only where there is one.

Only ways that are found are described. A way that is not found may fail for several reasons at
once, and which of them is reported is left to the definition.
-/

namespace CommandLog.Disk

variable {d d' d'' : Disk} {path : Path} {follows : Bool → Bool} {creates slash slash' : Bool}
  {left : Nat} {place above p : Place} {name name' : String} {names : List String} {node : Node}
  {g : Goal}

/-! ### How a way is found -/

/-- **A way and its end.** The parameters are those of the search. -/
inductive Way (d : Disk) (follows : Bool → Bool) :
    Nat → Bool → Place → List String → Goal → Prop where
  /-- There is no name left. -/
  | here (left : Nat) (slash : Bool) (place : Place) : Way d follows left slash place []
      (.directory place)
  /-- A directory in itself. -/
  | self {left : Nat} {slash : Bool} {place : Place} {rest : List String} {g : Goal}
      (later : Way d follows left slash place rest g) :
      Way d follows left slash place (Path.selfName :: rest) g
  /-- The directory above. -/
  | parent {left : Nat} {slash : Bool} {place : Place} {rest : List String} {g : Goal}
      (later : Way d follows left slash place.dropLast rest g) :
      Way d follows left slash place (Path.parentName :: rest) g
  /-- The last name, unless it is that of a link that is to be followed. -/
  | last {left : Nat} {slash : Bool} {place : Place} {name : String}
      (hself : name ≠ Path.selfName) (hparent : name ≠ Path.parentName)
      (hstop : follows slash = true → ∀ id target,
        d.child place name ≠ .ok (some (.link id target))) :
      Way d follows left slash place [name] (.entry place name slash)
  /-- A link that is followed. -/
  | link {left : Nat} {slash : Bool} {place : Place} {name : String} {rest : List String} {g : Goal}
      {id : Nat} {target : Path}
      (hself : name ≠ Path.selfName) (hparent : name ≠ Path.parentName)
      (hfollows : rest = [] → follows slash = true)
      (hchild : d.child place name = .ok (some (.link id target))) (htarget : target.fault? = none)
      (later : Way d follows left (slash || rest.isEmpty && target.endsInSlash)
        (startFrom place target) (target.names ++ rest) g) :
      Way d follows (left + 1) slash place (name :: rest) g
  /-- A directory that is passed. -/
  | directory {left : Nat} {slash : Bool} {place : Place} {name : String} {rest : List String}
      {g : Goal} (hself : name ≠ Path.selfName) (hparent : name ≠ Path.parentName)
      (hrest : rest ≠ []) (hchild : d.child place name = .ok (some .directory))
      (later : Way d follows left slash (place ++ [name]) rest g) :
      Way d follows left slash place (name :: rest) g

theorem way_of_resolve (h : d.resolve follows left slash place names = .ok g) :
    d.Way follows left slash place names g := by
  fun_induction Disk.resolve d follows left slash place names with
  | case1 left slash place =>
    cases h
    exact .here left slash place
  | case2 left slash place rest ih => exact .self (ih h)
  | case3 left slash place rest _ ih => exact .parent (ih h)
  | case4 left slash place name rest hself hparent hstop =>
    cases h
    obtain ⟨rfl, hstop⟩ := hstop
    exact .last hself hparent fun hfollows => absurd hfollows hstop
  | case7 slash place name rest hself hparent hgoes id target hchild left htarget ih =>
    exact .link hself hparent (fun hrest => by simpa [hrest] using hgoes) hchild htarget (ih h)
  | case8 left slash place name hself hparent hgoes hlink =>
    cases h
    exact .last hself hparent fun _ => hlink
  | case11 left slash place name rest hself hparent _ hrest _ hchild ih =>
    exact .directory hself hparent hrest hchild (ih h)
  | _ => cases h

theorem Way.resolve (h : d.Way follows left slash place names g) :
    d.resolve follows left slash place names = .ok g := by
  induction h with
  | here => rw [Disk.resolve]
  | self _ ih => rw [Disk.resolve, if_pos rfl, ih]
  | parent _ ih => rw [Disk.resolve, if_neg (by decide), if_pos rfl, ih]
  | @last left slash place name hself hparent hstop =>
    rw [Disk.resolve, if_neg hself, if_neg hparent]
    by_cases hfollows : follows slash = true
    · simp [hfollows]
      split
      · next id target hchild => exact absurd hchild (hstop hfollows id target)
      · rfl
    · simp [hfollows]
  | link hself hparent hfollows hchild htarget _ ih =>
    rw [Disk.resolve, if_neg hself, if_neg hparent,
      if_neg (fun hstop => hstop.2 (hfollows hstop.1))]
    simp only [hchild, htarget, ih]
  | directory hself hparent hrest hchild _ ih =>
    rw [Disk.resolve, if_neg hself, if_neg hparent, if_neg (fun hstop => hrest hstop.1)]
    simp only [hchild, if_neg hrest, ih]

/-- **The ways that are found** are the ones described. -/
theorem resolve_eq_ok_iff : d.resolve follows left slash place names = .ok g ↔
    d.Way follows left slash place names g :=
  ⟨way_of_resolve, Way.resolve⟩

theorem way_self_iff : d.Way follows left slash place (Path.selfName :: names) g ↔
    d.Way follows left slash place names g := by
  rw [← resolve_eq_ok_iff, Disk.resolve, if_pos rfl, resolve_eq_ok_iff]

theorem way_parent_iff : d.Way follows left slash place (Path.parentName :: names) g ↔
    d.Way follows left slash place.dropLast names g := by
  rw [← resolve_eq_ok_iff, Disk.resolve, if_neg (by decide), if_pos rfl, resolve_eq_ok_iff]

/-- **How a way goes on** from a name that is that of an entry. -/
theorem Way.cases_cons (h : d.Way follows left slash place (name :: names) g)
    (hself : name ≠ Path.selfName) (hparent : name ≠ Path.parentName) :
    (names = [] ∧ g = .entry place name slash ∧
      (follows slash = true → ∀ id target, d.child place name ≠ .ok (some (.link id target)))) ∨
    (∃ left' slash' id target, left = left' + 1 ∧ (names = [] → follows slash = true) ∧
      d.child place name = .ok (some (.link id target)) ∧
      d.Way follows left' slash' (startFrom place target) (target.names ++ names) g) ∨
    (names ≠ [] ∧ d.child place name = .ok (some .directory) ∧
      d.Way follows left slash (place ++ [name]) names g) := by
  generalize hnames : name :: names = all at h
  cases h with
  | here => cases hnames
  | self =>
    cases hnames
    exact absurd rfl hself
  | parent =>
    cases hnames
    exact absurd rfl hparent
  | last _ _ hstop =>
    cases hnames
    exact .inl ⟨rfl, rfl, hstop⟩
  | link _ _ hfollows hchild _ later =>
    cases hnames
    exact .inr (.inl ⟨_, _, _, _, rfl, hfollows, hchild, later⟩)
  | directory _ _ hrest hchild later =>
    cases hnames
    exact .inr (.inr ⟨hrest, hchild, later⟩)

/-- **A way goes on behind a link**, unless it ends there. -/
theorem Way.of_link (h : d.Way follows left slash place (name :: names) (.entry above name' slash'))
    (hself : name ≠ Path.selfName) (hparent : name ≠ Path.parentName)
    (hfollows : follows slash' = true) {id : Nat} {target : Path}
    (hchild : d.child place name = .ok (some (.link id target))) :
    ∃ left' slash'', left' < left ∧ d.Way follows left' slash'' (startFrom place target)
      (target.names ++ names) (.entry above name' slash') := by
  rcases h.cases_cons hself hparent with
    ⟨-, hg, hstop⟩ | ⟨left', slash'', id', target', rfl, -, h', later⟩ | ⟨-, h', -⟩
  · cases hg
    exact absurd hchild (hstop hfollows id target)
  · rw [hchild] at h'
    cases h'
    exact ⟨left', slash'', Nat.lt_succ_self left', later⟩
  · rw [hchild] at h'
    cases h'

theorem finish_eq_ok_iff : d.finish follows path = .ok g ↔ path.fault? = none ∧
    d.Way follows maxLinks path.endsInSlash (startFrom d.home path) path.names g := by
  rw [finish]
  cases path.fault? with
  | some f => simp
  | none => simp [resolve_eq_ok_iff]

/-! ### Directories and links that stay -/

/-- **Directories and links stay what they are**, and the working directory stays where it is. -/
structure Keeps (d d' : Disk) : Prop where
  /-- Paths start where they started. -/
  home : d'.home = d.home
  /-- What was a directory or a link is what it was. -/
  way : ∀ {p : Place} {node : Node}, d.node? p = some node → (∀ id, node ≠ .file id) →
    d'.node? p = some node

theorem Keeps.refl (d : Disk) : d.Keeps d := ⟨rfl, fun h _ => h⟩

theorem Keeps.trans (h : d.Keeps d') (h' : d'.Keeps d'') : d.Keeps d'' :=
  ⟨h'.home.trans h.home, fun hp hnode => h'.way (h.way hp hnode) hnode⟩

theorem Keeps.directory (h : d.Keeps d') (hp : d.node? p = some .directory) :
    d'.node? p = some .directory :=
  h.way hp (by simp)

theorem Keeps.child (h : d.Keeps d') (hchild : d.child above name = .ok (some node))
    (hnode : ∀ id, node ≠ .file id) : d'.child above name = .ok (some node) := by
  unfold Disk.child at hchild ⊢
  split at hchild
  · cases hchild
  · next hshort => rw [if_neg hshort, h.way (Except.ok.inj hchild) hnode]

/-- **A way that was open stays open**, unless there is a link at its end that would be followed. -/
theorem Keeps.goes (h : d.Keeps d') (hway : d.Way follows left slash place names g)
    (hlink : ∀ above name slash' id target, g = .entry above name slash' → follows slash' = true →
      d'.child above name ≠ .ok (some (.link id target))) :
    d'.Way follows left slash place names g := by
  induction hway with
  | here left slash place => exact .here left slash place
  | self _ ih => exact .self (ih hlink)
  | parent _ ih => exact .parent (ih hlink)
  | last hself hparent =>
    exact .last hself hparent fun hfollows id target => hlink _ _ _ id target rfl hfollows
  | link hself hparent hfollows hchild htarget _ ih =>
    exact .link hself hparent hfollows (h.child hchild (by simp)) htarget (ih hlink)
  | directory hself hparent hrest hchild _ ih =>
    exact .directory hself hparent hrest (h.child hchild (by simp)) (ih hlink)

theorem keeps_of_node? (hhome : d'.home = d.home) (hnode : ∀ q, d'.node? q = d.node? q) :
    d.Keeps d' :=
  ⟨hhome, fun hp _ => (hnode _).trans hp⟩

/-- **Paths keep their ends.** -/
theorem Keeps.goal (h : d.Keeps d') (hgoal : d.goal path = .ok g) : d'.goal path = .ok g := by
  rw [Disk.goal, finish_eq_ok_iff] at hgoal ⊢
  rw [h.home]
  exact ⟨hgoal.1, h.goes hgoal.2 (by simp)⟩

/-! ### Last names -/

/-- The end of a way that is a name is the last name of the way. -/
theorem Way.getLast?_eq
    (h : d.Way (fun _ => false) left slash place names (.entry above name slash')) :
    names.getLast? = some name ∧ name ≠ Path.selfName ∧ name ≠ Path.parentName ∧
      slash = slash' := by
  generalize hg : Goal.entry above name slash' = g at h
  induction h with
  | here => cases hg
  | self _ ih | parent _ ih =>
    obtain ⟨hlast, hnames⟩ := ih hg
    exact ⟨by rw [List.getLast?_cons, hlast, Option.getD_some], hnames⟩
  | last hself hparent =>
    cases hg
    exact ⟨rfl, hself, hparent, rfl⟩
  | @link left slash place name₁ rest _ _ target _ _ hfollows _ _ _ ih =>
    have hrest : rest ≠ [] := fun hrest => Bool.false_ne_true (hfollows hrest)
    obtain ⟨hlast, hself, hparent, hslash⟩ := ih hg
    rw [List.getLast?_append, List.getLast?_eq_some_getLast hrest, Option.some_or] at hlast
    refine ⟨?_, hself, hparent, by simpa [List.isEmpty_eq_false_iff.mpr hrest] using hslash⟩
    rw [List.getLast?_cons, List.getLast?_eq_some_getLast hrest, hlast, Option.getD_some]
  | directory _ _ _ _ _ ih =>
    obtain ⟨hlast, hnames⟩ := ih hg
    exact ⟨by rw [List.getLast?_cons, hlast, Option.getD_some], hnames⟩

/-- **A way with another last name** ends in the same directory. -/
theorem Way.rename (h : d.Way (fun _ => false) left slash place names (.entry above name slash'))
    (hself : name' ≠ Path.selfName) (hparent : name' ≠ Path.parentName) (slash'' : Bool) :
    d.Way (fun _ => false) left slash'' place (names.dropLast ++ [name'])
      (.entry above name' slash'') := by
  generalize hg : Goal.entry above name slash' = g at h
  -- behind each name that is passed there is another one, which is the one that is replaced
  have hne : ∀ {left slash place rest},
      d.Way (fun _ => false) left slash place rest g → rest ≠ [] := by
    rintro left slash place _ hway rfl
    cases (hg ▸ hway).getLast?_eq.1
  induction h with
  | here => cases hg
  | self later ih =>
    rw [List.dropLast_cons_of_ne_nil (hne later)]
    exact .self (ih hg hne)
  | parent later ih =>
    rw [List.dropLast_cons_of_ne_nil (hne later)]
    exact .parent (ih hg hne)
  | last =>
    cases hg
    exact .last hself hparent (by simp)
  | link hself' hparent' hfollows hchild htarget later ih =>
    have hrest := fun hrest => Bool.false_ne_true (hfollows hrest)
    have hway := ih hg hne
    rw [List.dropLast_append_of_ne_nil hrest, List.append_assoc] at hway
    rw [List.dropLast_cons_of_ne_nil hrest]
    refine .link hself' hparent' (by simp) hchild htarget ?_
    rwa [List.isEmpty_eq_false_iff.mpr (by simp), Bool.false_and, Bool.or_false]
  | directory hself' hparent' hrest hchild later ih =>
    rw [List.dropLast_cons_of_ne_nil hrest]
    exact .directory hself' hparent' (by simp) hchild (ih hg hne)

/-! ### Links at the end -/

/-- A name at the end that would be followed is not that of a link. -/
theorem Way.ne_link (h : d.Way follows left slash place names (.entry above name slash'))
    (hfollows : follows slash' = true) (id : Nat) (target : Path) :
    d.child above name ≠ .ok (some (.link id target)) := by
  generalize hg : Goal.entry above name slash' = g at h
  induction h with
  | here => cases hg
  | last _ _ hstop =>
    cases hg
    exact hstop hfollows id target
  | self _ ih | parent _ ih | link _ _ _ _ _ _ ih | directory _ _ _ _ _ ih => exact ih hg

/-- **A way without a link at its end** is the same whether or not one would be followed there. -/
theorem Way.follow (h : d.Way (fun _ => false) left slash place names g)
    (hlink : ∀ above name slash' id target, g = .entry above name slash' →
      d.child above name ≠ .ok (some (.link id target))) :
    d.Way follows left slash place names g := by
  induction h with
  | here left slash place => exact .here left slash place
  | self _ ih => exact .self (ih hlink)
  | parent _ ih => exact .parent (ih hlink)
  | last hself hparent => exact .last hself hparent fun _ id target => hlink _ _ _ id target rfl
  | link hself hparent hfollows hchild htarget _ ih =>
    exact .link hself hparent (fun hrest => absurd (hfollows hrest) (by simp)) hchild htarget
      (ih hlink)
  | directory hself hparent hrest hchild _ ih =>
    exact .directory hself hparent hrest hchild (ih hlink)

/-- **A link leads to another end.** -/
def Goal.IsLinkTo (link : Goal) (d : Disk) (follows : Bool → Bool) (g : Goal) : Prop :=
  ∃ above name slash id target, link = .entry above name slash ∧
    d.child above name = .ok (some (.link id target)) ∧
    ∃ left' slash', d.Way follows left' slash' (startFrom above target) target.names g

/-- **A way with a link at its end that is followed** is one up to that link, and another one
behind it. -/
theorem Way.exists_goal (h : d.Way follows left slash place names g) :
    ∃ g', d.Way (fun _ => false) left slash place names g' ∧
      (g' = g ∨ g'.IsLinkTo d follows g) := by
  induction h with
  | here left slash place => exact ⟨_, .here left slash place, .inl rfl⟩
  | self _ ih =>
    obtain ⟨g', hway, hg'⟩ := ih
    exact ⟨g', .self hway, hg'⟩
  | parent _ ih =>
    obtain ⟨g', hway, hg'⟩ := ih
    exact ⟨g', .parent hway, hg'⟩
  | last hself hparent => exact ⟨_, .last hself hparent (by simp), .inl rfl⟩
  | @link left slash place name rest _ id target hself hparent _ hchild htarget later ih =>
    by_cases hrest : rest = []
    · subst hrest
      exact ⟨.entry place name slash, .last hself hparent (by simp),
        .inr ⟨place, name, slash, id, target, rfl, hchild, _, _, by rwa [List.append_nil] at later⟩⟩
    · obtain ⟨g', hway, hg'⟩ := ih
      exact ⟨g', .link hself hparent (fun h => absurd h hrest) hchild htarget hway, hg'⟩
  | directory hself hparent hrest hchild _ ih =>
    obtain ⟨g', hway, hg'⟩ := ih
    exact ⟨g', .directory hself hparent hrest hchild hway, hg'⟩

theorem reach_of_goal (h : d.goal path = .ok g)
    (hlink : ∀ above name slash' id target, g = .entry above name slash' →
      d.child above name ≠ .ok (some (.link id target))) : d.reach creates path = .ok g := by
  rw [Disk.goal, finish_eq_ok_iff] at h
  rw [Disk.reach, finish_eq_ok_iff]
  exact ⟨h.1, h.2.follow hlink⟩

/-- Where no entry has changed, paths lead where they led. -/
theorem reach_of_node? (hhome : d'.home = d.home) (hnode : ∀ q, d'.node? q = d.node? q)
    (h : d.reach creates path = .ok g) : d'.reach creates path = .ok g := by
  rw [Disk.reach, finish_eq_ok_iff] at h ⊢
  rw [hhome]
  refine ⟨h.1, (keeps_of_node? hhome hnode).goes h.2 ?_⟩
  rintro above name slash' id target rfl hfollows hchild
  rw [Disk.child, hnode] at hchild
  exact h.2.ne_link hfollows id target hchild

theorem exists_goal_of_reach (h : d.reach creates path = .ok g) :
    ∃ g', d.goal path = .ok g' ∧ (g' = g ∨ g'.IsLinkTo d (fun slash => !(creates && slash)) g) := by
  rw [Disk.reach, finish_eq_ok_iff] at h
  obtain ⟨g', hway, hg'⟩ := h.2.exists_goal
  exact ⟨g', by rw [Disk.goal, finish_eq_ok_iff]; exact ⟨h.1, hway⟩, hg'⟩

end CommandLog.Disk
