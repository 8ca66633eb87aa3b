import CommandLog.Proofs.Disk.Lookup

/-!
# Links that are renamed

A link may be renamed within its directory. What it leads to does not change by that, as long as the
way there does not go through the two names; and where it does, it leads back to the link again and
again.

* `CommandLog.Disk.Relinked` – **a link has been renamed** within its directory;
* `CommandLog.Disk.Relinked.follow` – two ways that are taken side by side, before the change and
  after it: the second one ends where the first one does, or goes on behind the link;
* `CommandLog.Disk.Relinked.ends` – **what is behind the link** is what was behind it;
* `CommandLog.Disk.Relinked.reach` – a path to the new name leads there, too.

The second way may come to the new name, which the link had not before. Then it goes on behind the
link, with fewer links left to follow. When both ways come to the old name with no name left, then
the first one goes on behind the link and is to be compared from there, again with fewer links left.
The argument is by induction on both numbers.
-/

namespace CommandLog.Disk

variable {d d' : Disk} {path : Path} {above place : Place} {name name' : String} {id : Nat}
  {target : Path} {follows : Bool → Bool} {left left' k : Nat} {slash slash' s : Bool}
  {names rest : List String} {a b : Place} {m n : String}

/-- **A link has been renamed** within its directory. -/
structure Relinked (d d' : Disk) (above : Place) (name name' : String) (id : Nat) (target : Path) :
    Prop where
  /-- The link had the old name. -/
  old : d.node? (above ++ [name]) = some (.link id target)
  /-- It has the new one. -/
  new : d'.node? (above ++ [name']) = some (.link id target)
  /-- The new name was not that of a directory. -/
  plain : d.node? (above ++ [name']) ≠ some .directory
  /-- The old name is gone, unless the new one was another name of the link already. -/
  gone : d'.node? (above ++ [name]) = none ∨ d'.node? (above ++ [name]) = some (.link id target)
  /-- The other places have what they had. -/
  others : ∀ q, q ≠ above ++ [name] → q ≠ above ++ [name'] → d'.node? q = d.node? q

theorem child_congr (h : d'.node? (above ++ [name]) = d.node? (above ++ [name])) :
    d'.child above name = d.child above name := by
  rw [Disk.child, Disk.child, h]

/-- What is found under a name before the change says that it is not too long after it. -/
theorem child_of_child {found node : Option Node} (hchild : d.child above name = .ok found)
    (hnode : d'.node? (above ++ [name]) = node) : d'.child above name = .ok node := by
  rw [Disk.child, if_neg (short_of_child hchild).1, hnode]

/-- **Two ways side by side**, through the same names. The first one ends at a file, or where the
link is afterwards; the second one ends there, too, or where ways end that go on behind the link. -/
theorem Relinked.follow (h : Relinked d d' above name name' id target) {E : Place → Prop}
    (hway : d.Way follows k slash place names (.entry a m s)) (hends : E (a ++ [m]))
    (hend : a ++ [m] = above ++ [name'] ∨ ∃ id, d'.node? (a ++ [m]) = some (.file id))
    (hway' : d'.Way (fun slash => !slash) left slash' place (names ++ rest) (.entry b n false))
    (hjump : ∀ left' slash rest, left' < left →
      d'.Way (fun slash => !slash) left' slash (startFrom above target) (target.names ++ rest)
        (.entry b n false) → E (b ++ [n]))
    (hloop : ∀ k' slash slash', k' < k → follows slash = true →
      d.Way follows k' slash' (startFrom above target) target.names (.entry a m s) →
        E (b ++ [n])) :
    E (b ++ [n]) := by
  generalize hg : Goal.entry a m s = g at hway hloop
  induction hway generalizing left slash' rest with
  | here => cases hg
  | self _ ih => exact ih (way_self_iff.mp hway') hjump hg hloop
  | parent _ ih => exact ih (way_parent_iff.mp hway') hjump hg hloop
  | last hself hparent =>
    cases hg
    rcases hway'.cases_cons hself hparent with
      ⟨-, hg, -⟩ | ⟨left', slash'', i, t, rfl, -, hchild, later⟩ | ⟨-, hchild, -⟩
    · cases hg
      exact hends
    · have hnode := (short_of_child hchild).2
      rcases hend with hnew | ⟨i, hfile⟩
      · rw [hnew, h.new] at hnode
        cases hnode
        obtain ⟨rfl, -⟩ := List.append_inj' hnew rfl
        exact hjump left' slash'' _ (Nat.lt_succ_self left') later
      · rw [hfile] at hnode
        cases hnode
    · have hnode := (short_of_child hchild).2
      rcases hend with hnew | ⟨i, hfile⟩
      · rw [hnew, h.new] at hnode
        cases hnode
      · rw [hfile] at hnode
        cases hnode
  | @link k slash place m₁ names₁ g i t hself hparent hfollows hchild htarget later ih =>
    rw [List.cons_append] at hway'
    by_cases hnew : place ++ [m₁] = above ++ [name']
    · -- the second way comes to the new name of the link
      obtain ⟨rfl, hname⟩ := List.append_inj' hnew rfl
      obtain rfl := (List.cons.inj hname).1
      obtain ⟨left', slash'', hlt, later'⟩ :=
        hway'.of_link hself hparent rfl (child_of_child hchild h.new)
      exact hjump left' slash'' _ hlt later'
    · by_cases hold : place ++ [m₁] = above ++ [name]
      · obtain ⟨rfl, hname⟩ := List.append_inj' hold rfl
        obtain rfl := (List.cons.inj hname).1
        have hlink := h.old.symm.trans (short_of_child hchild).2.symm
        cases hlink
        rcases h.gone with hgone | hgone
        · -- the link has gone from here, so no name is left
          have hnone := child_of_child hchild hgone
          rcases hway'.cases_cons hself hparent with
            ⟨hnames, -, -⟩ | ⟨_, _, _, _, -, -, hlink, -⟩ | ⟨-, hdirectory, -⟩
          · obtain ⟨rfl, -⟩ := List.append_eq_nil_iff.mp hnames
            rw [List.append_nil] at later
            exact hloop k slash _ (Nat.lt_succ_self k) (hfollows rfl) later
          · rw [hnone] at hlink
            cases hlink
          · rw [hnone] at hdirectory
            cases hdirectory
        · obtain ⟨left', slash'', hlt, later'⟩ :=
            hway'.of_link hself hparent rfl (child_of_child hchild hgone)
          exact hjump left' slash'' _ hlt later'
      · obtain ⟨left', slash'', hlt, later'⟩ := hway'.of_link hself hparent rfl
          ((child_congr (h.others _ hold hnew)).trans hchild)
        rw [← List.append_assoc] at later'
        exact ih later'
          (fun left'' slash rest hlt' => hjump left'' slash rest (Nat.lt_trans hlt' hlt)) hg
          fun k' slash slash' hlt' => hloop k' slash slash' (Nat.lt_succ_of_lt hlt')
  | @directory k slash place m₁ names₁ g hself hparent hrest hchild later ih =>
    have hdirectory := (short_of_child hchild).2.symm
    have hold : place ++ [m₁] ≠ above ++ [name] := by
      intro hold
      rw [hold, h.old] at hdirectory
      cases hdirectory
    have hnew : place ++ [m₁] ≠ above ++ [name'] := by
      intro hnew
      rw [hnew] at hdirectory
      exact h.plain hdirectory
    rw [List.cons_append] at hway'
    have hchild' := (child_congr (h.others _ hold hnew)).trans hchild
    rcases hway'.cases_cons hself hparent with
      ⟨hnames, -, -⟩ | ⟨_, _, _, _, -, -, hlink, -⟩ | ⟨-, -, later'⟩
    · exact absurd (List.append_eq_nil_iff.mp hnames).1 hrest
    · rw [hchild'] at hlink
      cases hlink
    · exact ih later' hjump hg hloop

/-- **What is behind the link** is what was behind it, if it is a file, whatever names follow. -/
theorem Relinked.ends (h : Relinked d d' above name name' id target) {E : Place → Prop}
    (hway : d.Way follows k slash (startFrom above target) target.names (.entry a m s))
    (hends : E (a ++ [m]))
    (hend : a ++ [m] = above ++ [name'] ∨ ∃ id, d'.node? (a ++ [m]) = some (.file id))
    (hway' : d'.Way (fun slash => !slash) left slash' (startFrom above target)
      (target.names ++ rest) (.entry b n false)) : E (b ++ [n]) := by
  induction left using Nat.strongRecOn generalizing k slash slash' rest with
  | ind left ihleft =>
    induction k using Nat.strongRecOn generalizing slash with
    | ind k ihk =>
      exact h.follow hway hends hend hway'
        (fun left' slash rest hlt later => ihleft left' hlt hway later)
        fun k' slash slash' hlt _ later => ihk k' hlt later

/-- **A path to the new name** leads to what the link leads to, if it leads anywhere. -/
theorem Relinked.reach (h : Relinked d d' above name name' id target) (hhome : d'.home = d.home)
    (hgoal : d.goal path = .ok (.entry above name' slash))
    (hway : d.Way follows k slash' (startFrom above target) target.names (.entry a m s))
    (hend : a ++ [m] = above ++ [name'] ∨ ∃ id, d'.node? (a ++ [m]) = some (.file id))
    (hreach : d'.reach true path = .ok (.entry b n false)) :
    b ++ [n] = above ++ [name'] ∨ b ++ [n] = a ++ [m] := by
  have hpath := (finish_eq_ok_iff.mp hgoal).2
  have hpath' := (finish_eq_ok_iff.mp hreach).2
  rw [hhome, ← List.append_nil path.names] at hpath'
  refine h.follow (E := fun p => p = above ++ [name'] ∨ p = a ++ [m]) hpath (.inl rfl) (.inl rfl)
    hpath' (fun left' slash rest _ later => ?_) fun _ _ _ _ hfollows => ?_
  · exact h.ends (E := fun p => p = above ++ [name'] ∨ p = a ++ [m]) hway (.inr rfl) hend later
  · exact absurd hfollows Bool.false_ne_true

end CommandLog.Disk
