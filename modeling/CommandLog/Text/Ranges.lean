/-!
# Sets of characters given by ranges

A property of characters is given by the ranges of code points that have it, in ascending order.
`CommandLog.Text.isIn` looks a character up by bisection.
-/

namespace CommandLog.Text

/-- Ranges of code points, both ends included, in ascending order and without overlap. -/
abbrev Ranges := Array (Nat × Nat)

/-- Bisection between two positions of a table. -/
def searchBetween (table : Ranges) (code : Nat) : Nat → Nat → Nat → Bool
  | 0, _, _ => false
  | steps + 1, low, high =>
    if high ≤ low then false
    else
      let middle := (low + high) / 2
      match table[middle]? with
      | none => false
      | some (first, last) =>
        if code < first then searchBetween table code steps low middle
        else if last < code then searchBetween table code steps (middle + 1) high
        else true

/-- **Whether a character lies in one of the ranges.** -/
def isIn (table : Ranges) (c : Char) : Bool :=
  searchBetween table c.toNat (table.size + 1) 0 table.size

end CommandLog.Text
