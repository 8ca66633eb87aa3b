import CommandLog.Proofs.Disk.Lookup
import Mathlib.Data.List.Induction
import Mathlib.Data.List.TakeDrop

/-!
# The temporary sibling of a path

A file is written to its temporary sibling before it takes its place. The two must not be one and
the same, or there would be a moment without the old contents and without the new ones. They are
only for a file whose extension is the one of temporary files.

* `CommandLog.Path.extension?` – **the extension of a path**: what follows the last dot of its last
  name, unless that dot is at the very front;
* `CommandLog.Path.stem_append_ne` – a name with another extension changes when it gets this one;
* `CommandLog.Disk.name_temporary` and `CommandLog.Disk.above_temporary` – where a path and its
  temporary sibling both end in a name, the name of the one follows from the name of the other, and
  they are in one directory;
* `CommandLog.Disk.temporary_ne` – **the temporary sibling is at another place**.

A slash at the end of a path does not make a difference to any of this, because the sibling is
written without it.
-/

namespace CommandLog

namespace Path

/-- The extension of a name. -/
def nameExtension? (name : String) : Option String :=
  match name.toList.reverse.span (· != '.') with
  | (after, _ :: _ :: _) => some (String.ofList after.reverse)
  | _ => none

/-- **The extension of a path**, which is that of its last name. -/
def extension? (p : Path) : Option String :=
  match p.upToLastName.getLast? with
  | none => none
  | some name => if name = parentName then none else nameExtension? name

/-- **A name with another extension changes when its extension does.** -/
theorem stem_append_ne {name : String} (h : nameExtension? name ≠ some "tmp") :
    stem name ++ ".tmp" ≠ name := by
  intro heq
  have hlist := congrArg String.toList heq
  rw [String.toList_append] at hlist
  have hsplit := List.takeWhile_append_dropWhile (p := (· != '.')) (l := name.toList.reverse)
  have hdot := List.head?_dropWhile_not (· != '.') name.toList.reverse
  rw [nameExtension?, List.span_eq_takeWhile_dropWhile] at h
  rw [stem, List.span_eq_takeWhile_dropWhile] at hlist
  rcases hdrop : name.toList.reverse.dropWhile (· != '.') with _ | ⟨dot, _ | ⟨c, before⟩⟩
  · rw [hdrop] at hlist
    simp at hlist
  · rw [hdrop] at hlist
    simp at hlist
  · -- the name is its stem, a dot and its extension, so the latter is the new one
    rw [hdrop] at h hlist hsplit hdot
    obtain rfl : dot = '.' := by simpa using hdot
    have hname := congrArg List.reverse hsplit
    rw [List.reverse_reverse, List.reverse_append, List.reverse_cons, List.append_assoc] at hname
    rw [← hname, String.toList_ofList] at hlist
    have htail := List.append_cancel_left hlist
    have hafter : ['t', 'm', 'p'] = (name.toList.reverse.takeWhile (· != '.')).reverse :=
      (List.cons.inj htail).2
    refine h (congrArg some ?_)
    rw [← hafter]

/-- **Where a path ends in a name**, nothing but slashes follows it. -/
theorem parts_eq_of_names {p : Path} {name : String} (hname : p.names.getLast? = some name) :
    ∃ above n, p.parts = above ++ name :: List.replicate n "" := by
  obtain ⟨parts⟩ := p
  induction parts using List.reverseRecOn with
  | nil => cases hname
  | append_singleton above last ih =>
    by_cases hlast : last = ""
    · -- one more slash at the end
      subst hlast
      obtain ⟨above', n, habove⟩ := ih (by simpa [names, List.filter_append] using hname)
      refine ⟨above', n + 1, ?_⟩
      simp only at habove ⊢
      rw [habove, List.append_assoc, List.cons_append, ← List.replicate_succ']
    · simp [names, List.filter_append, hlast] at hname
      exact ⟨above, 0, by rw [hname, List.replicate_zero]⟩

/-- The names of a path that ends in a name. -/
theorem names_concat {p : Path} {above : List String} {name : String} {n : Nat}
    (hparts : p.parts = above ++ name :: List.replicate n "") (hne : name ≠ "") :
    p.names = above.filter (· ≠ "") ++ [name] := by
  simp [names, hparts, List.filter_append, hne]

/-- Where a path starts does not depend on its last name, nor on what follows it. -/
theorem isAbsolute_concat {p q : Path} {above rest rest' : List String} {name name' : String}
    (hp : p.parts = above ++ name :: rest) (hq : q.parts = above ++ name' :: rest')
    (hne : name ≠ "") (hne' : name' ≠ "") : p.isAbsolute = q.isAbsolute := by
  rw [isAbsolute, isAbsolute, hp, hq]
  rcases above with _ | ⟨first, _ | ⟨second, above⟩⟩
  · simp [hne, hne']
  · by_cases hfirst : first = "" <;> simp [hfirst]
  · by_cases hfirst : first = "" <;> simp [hfirst]

/-- A path that ends in a name goes on up to that name. -/
theorem upToLastName_eq {p : Path} {above : List String} {name : String} {n : Nat}
    (hparts : p.parts = above ++ name :: List.replicate n "") (hidle : isIdle name = false) :
    p.upToLastName = above ++ [name] := by
  have hslashes : ∀ part ∈ List.replicate n "", isIdle part = true := by
    intro part hpart
    rw [List.eq_of_mem_replicate hpart]
    rfl
  rw [upToLastName, hparts, List.reverse_append, List.reverse_cons, List.append_assoc,
    List.reverse_replicate, List.dropWhile_append_of_pos hslashes]
  simp [hidle]

end Path

namespace Disk

variable {d : Disk} {path : Path} {above above' : Place} {name name' : String} {slash slash' : Bool}

/-- What the end of a path says about the path. -/
theorem names_of_goal (h : d.goal path = .ok (.entry above name slash)) :
    path.names.getLast? = some name ∧ name ≠ Path.selfName ∧ name ≠ Path.parentName ∧
      path.endsInSlash = slash := by
  rw [Disk.goal, finish_eq_ok_iff] at h
  exact h.2.getLast?_eq

/-- **Where nothing is found, there is a place for a file**, unless the path asks for a
directory. -/
theorem Sound.leads_of_locate_none (hsound : d.Sound) (hlocate : d.locate path = .ok none)
    (hslash : path.endsInSlash = false) :
    ∃ above name, d.Leads path above name ∧ d.node? (above ++ [name]) = none := by
  unfold Disk.locate at hlocate
  split at hlocate
  · exact absurd hlocate (by simp)
  · exact absurd hlocate (by simp)
  · next above name slash hreach =>
    have hgoal := hsound.reach_eq_ok_iff.mp hreach
    obtain ⟨-, -, -, rfl⟩ := names_of_goal hgoal
    rw [hslash] at hgoal
    split at hlocate
    · rw [hslash] at hlocate
      exact absurd hlocate (by simp)
    · obtain ⟨hshort, hnode⟩ := short_of_child hlocate
      exact ⟨above, name, ⟨hgoal, hshort⟩, hnode.symm⟩

theorem ne_empty_of_names (h : path.names.getLast? = some name) : name ≠ "" := by
  have hmem := List.mem_of_getLast? h
  exact of_decide_eq_true (List.mem_filter.mp hmem).2

/-- A name at the end of a path is not one that leads nowhere. -/
theorem isIdle_of_goal (h : d.goal path = .ok (.entry above name slash)) :
    Path.isIdle name = false := by
  obtain ⟨hlast, hself, -, -⟩ := names_of_goal h
  simp [Path.isIdle, ne_empty_of_names hlast, hself]

/-- **The temporary sibling of a path**, where it has a place at all: the same parts up to another
last name, and nothing behind it. -/
theorem parts_temporary (h : d.goal path = .ok (.entry above name slash))
    (h' : d.goal path.temporary = .ok (.entry above' name' slash')) :
    ∃ init n, path.parts = init ++ name :: List.replicate n "" ∧
      path.temporary.parts = init ++ [Path.stem name ++ ".tmp"] := by
  obtain ⟨hlast, hself, hparent, -⟩ := names_of_goal h
  obtain ⟨init, n, hparts⟩ := Path.parts_eq_of_names hlast
  have hup := Path.upToLastName_eq hparts (isIdle_of_goal h)
  obtain ⟨hlast', -, hparent', -⟩ := names_of_goal h'
  refine ⟨init, n, hparts, ?_⟩
  rw [Path.temporary, hup, List.getLast?_concat] at hlast' ⊢
  simp only [if_neg hparent] at hlast' ⊢
  split at hlast'
  · -- the sibling would be a parent directory, and these have no place of their own
    simp [Path.names, Path.parentName] at hlast'
    exact absurd hlast'.symm hparent'
  · next hstem =>
    rw [if_neg hstem, List.dropLast_concat]

theorem stem_append_ne_empty (name : String) : Path.stem name ++ ".tmp" ≠ "" := by
  intro hempty
  have hlength := congrArg String.length hempty
  simp at hlength

/-- **The name of the temporary sibling**, where it has a place at all. -/
theorem name_temporary (h : d.goal path = .ok (.entry above name slash))
    (h' : d.goal path.temporary = .ok (.entry above' name' slash')) :
    name' = Path.stem name ++ ".tmp" := by
  obtain ⟨init, -, -, hparts⟩ := parts_temporary h h'
  obtain ⟨hlast, -⟩ := names_of_goal h'
  rw [Path.names_concat (n := 0) hparts (stem_append_ne_empty name), List.getLast?_concat] at hlast
  exact (Option.some.inj hlast).symm

/-- **The temporary sibling is in the same directory.** -/
theorem above_temporary (h : d.goal path = .ok (.entry above name slash))
    (h' : d.goal path.temporary = .ok (.entry above' name' slash')) : above' = above := by
  obtain ⟨init, n, hparts, hparts'⟩ := parts_temporary h h'
  have hne := ne_empty_of_names (names_of_goal h).1
  have hne' := stem_append_ne_empty name
  obtain ⟨hlast, hself, hparent, hslash⟩ := names_of_goal h'
  have hway := (finish_eq_ok_iff.mp h).2
  have hgoal := (finish_eq_ok_iff.mp h').2
  rw [Path.names_concat (n := 0) hparts' hne'] at hlast hgoal
  rw [hslash] at hgoal
  obtain rfl : _ = name' := Option.some.inj (List.getLast?_concat.symm.trans hlast)
  -- the way to the sibling is the way to the file with another last name
  have hway' := hway.rename hself hparent slash'
  rw [startFrom, Path.isAbsolute_concat hparts hparts' hne hne', Path.names_concat hparts hne,
    List.dropLast_concat] at hway'
  have hsame := Except.ok.inj (hgoal.resolve.symm.trans hway'.resolve)
  exact (Goal.entry.inj hsame).1

/-- **The temporary sibling is at another place**, unless the file has its extension. -/
theorem temporary_ne (h : d.goal path = .ok (.entry above name slash))
    (h' : d.goal path.temporary = .ok (.entry above' name' slash'))
    (hextension : path.extension? ≠ some "tmp") : above' ++ [name'] ≠ above ++ [name] := by
  intro heq
  have hname : name' = name := by
    have hlast := congrArg List.getLast? heq
    simpa using hlast
  obtain ⟨hlast, -, hparent, -⟩ := names_of_goal h
  obtain ⟨init, n, hparts⟩ := Path.parts_eq_of_names hlast
  rw [Path.extension?, Path.upToLastName_eq hparts (isIdle_of_goal h),
    List.getLast?_concat] at hextension
  simp only [if_neg hparent] at hextension
  exact Path.stem_append_ne hextension ((name_temporary h h').symm.trans hname)

end Disk

end CommandLog
