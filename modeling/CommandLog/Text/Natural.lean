/-!
# Natural numbers as users write them

`CommandLog.Text.natural?` reads a number that stands alone in a text: ASCII digits, any number of
them, with a plus sign in front or not.
-/

namespace CommandLog.Text

/-- The number that some digits stand for. -/
def digitsValue (digits : List Char) : Nat :=
  digits.foldl (fun n c => n * 10 + (c.toNat - '0'.toNat)) 0

/-- **The number that a text stands for.** -/
def natural? (text : List Char) : Option Nat :=
  let digits := if text.head? = some '+' then text.drop 1 else text
  if digits.isEmpty || !digits.all Char.isDigit then none else some (digitsValue digits)

end CommandLog.Text
