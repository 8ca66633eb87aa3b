/-!
# Totals

`CommandLog.total` adds up a list of natural numbers. Where one of the numbers belongs to something
that changes, `CommandLog.total_map_set` says what becomes of the total.
-/

namespace CommandLog

/-- The sum of some numbers. -/
def total (ns : List Nat) : Nat :=
  ns.foldr (fun n rest => n + rest) 0

@[simp] theorem total_nil : total [] = 0 := rfl

@[simp] theorem total_cons (n : Nat) (ns : List Nat) : total (n :: ns) = n + total ns := rfl

@[simp] theorem total_append (ms ns : List Nat) : total (ms ++ ns) = total ms + total ns := by
  induction ms with
  | nil => simp
  | cons m ms ih =>
    rw [List.cons_append, total_cons, total_cons, ih, Nat.add_assoc]

/-- **One element changed**: the total gains what the new element counts and loses what the old one
did. -/
theorem total_map_set {α : Type} (f : α → Nat) {l : List α} {i : Nat} {x : α} (y : α)
    (h : l[i]? = some x) : total ((l.set i y).map f) + f x = total (l.map f) + f y := by
  induction l generalizing i with
  | nil => simp at h
  | cons z l ih =>
    cases i with
    | zero =>
      obtain rfl : z = x := by simpa using h
      simp only [List.set_cons_zero, List.map_cons, total_cons]
      omega
    | succ i =>
      have := ih (i := i) (by simpa using h)
      simp only [List.set_cons_succ, List.map_cons, total_cons]
      omega

end CommandLog
