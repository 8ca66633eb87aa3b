import CommandLog.Json.Reader

/-!
# Numbers

A number is an optional minus sign, a whole part without superfluous zeros at its front, and
optionally a fraction and an exponent. How it is written and what it is worth are separate:

* `CommandLog.Json.Numeral` – a number as it is written, and `CommandLog.Json.Numeral.reader`;
* `CommandLog.Json.Numeral.value` – what it is worth. A number without fraction and exponent is
  kept as a whole one as long as it fits 64 bits, unsigned when it is positive and signed when it
  is negative. Everything else, and minus zero, is a double-precision number: the leading digits
  that fit 64 bits, times or divided by a power of ten.
-/

namespace CommandLog.Json

/-- A number as it is written. -/
structure Numeral where
  /-- Whether there is a minus sign. -/
  negative : Bool
  /-- The digits of the whole part. -/
  whole : List Char
  /-- The digits after the point, none when there is no point. -/
  fraction : List Char
  /-- The exponent, if there is one. -/
  exponent : Option Int
deriving Repr

/-- What a number is worth. -/
inductive Number where
  /-- A whole number of at most 64 bits. -/
  | integer (n : Int)
  /-- Any other number. -/
  | float (x : Float)

/-- What a number is when something else is wanted. -/
def Number.found : Number → Found
  | .integer n => .integer n
  | .float x => .float x

namespace Numeral

/-! ### How a number is written -/

/-- Whether a character is a digit. -/
def isDigit (c : Char) : Bool :=
  '0' ≤ c && c ≤ '9'

/-- The value of a digit. -/
def digitValue (c : Char) : Nat :=
  c.toNat - '0'.toNat

/-- One digit or more. -/
def digits : Reader (List Char) := do
  match ← Reader.span isDigit, ← Reader.peek? with
  | [], none => .fail .endInValue
  | [], some _ => .fail .invalidNumber
  | ds, _ => return ds

/-- The whole part from its first character on. -/
def wholePart (c : Char) : Reader (List Char) := do
  if c = '0' then
    match ← Reader.span isDigit with
    | [] => return [c]
    | _ => .fail .invalidNumber
  else if isDigit c then return c :: (← Reader.span isDigit)
  else .fail .invalidNumber

/-- The fraction, if there is one. -/
def fractionPart : Reader (List Char) := do
  if (← Reader.peek?) = some '.' then
    let _ ← Reader.next?
    digits
  else return []

/-- The exponent, if there is one. -/
def exponentPart : Reader (Option Int) := do
  match ← Reader.peek? with
  | some 'e' | some 'E' =>
    let _ ← Reader.next?
    let sign ← Reader.peek?
    if sign = some '+' ∨ sign = some '-' then
      let _ ← Reader.next?
    let size := (← digits).foldl (fun n c => n * 10 + digitValue c) 0
    return some (if sign = some '-' then -(size : Int) else size)
  | _ => return none

/-- **A number from its first character on.** -/
def reader (c : Char) : Reader Numeral := do
  let negative := c = '-'
  let first ← if negative then Reader.next? else pure (some c)
  match first with
  | none => .fail .endInValue
  | some first =>
    let whole ← wholePart first
    let fraction ← fractionPart
    let exponent ← exponentPart
    return { negative, whole, fraction, exponent }

/-! ### What a number is worth -/

/-- One past the greatest number of 64 bits. -/
def limit : Nat := UInt64.size

/-- More digits after those of a number, as long as the number stays below the limit, with how
many they were. -/
def pushDigits (n : Nat) : List Char → Nat × Nat
  | [] => (n, 0)
  | c :: cs =>
    if n * 10 + digitValue c < limit then
      let (m, count) := pushDigits (n * 10 + digitValue c) cs
      (m, count + 1)
    else (n, 0)

/-- The greatest power of ten that is a double-precision number. -/
def greatestPower : Nat := 308

/-- A power of ten. -/
def powerOfTen (n : Nat) : Float :=
  Float.ofScientific 1 false n

/-- A number divided by a power of ten. -/
def divideByPower (x : Float) (n : Nat) : Float :=
  if n ≤ greatestPower then x / powerOfTen n
  else if x == 0 then x
  else divideByPower (x / powerOfTen greatestPower) (n - greatestPower)
termination_by n
decreasing_by
  have : 0 < greatestPower := by decide
  omega

/-- A number times a power of ten. -/
def scale (x : Float) (exponent : Int) : Except Error Float :=
  if exponent < 0 then .ok (divideByPower x exponent.natAbs)
  else if exponent.toNat ≤ greatestPower then
    let y := x * powerOfTen exponent.toNat
    if y.isInf then .error .numberTooGreat else .ok y
  else if x == 0 then .ok x
  else .error .numberTooGreat

/-- A double-precision number with a sign. -/
def signed (negative : Bool) (x : Float) : Float :=
  if negative then -x else x

/-- The double-precision number that a numeral stands for. -/
def float (n : Numeral) : Except Error Float :=
  let (start, kept) := pushDigits 0 n.whole
  let (significand, places) := pushDigits start n.fraction
  let exponent := ((n.whole.length - kept : Nat) : Int) - (places : Int) + n.exponent.getD 0
  (scale (UInt64.ofNat significand).toFloat exponent).map (signed n.negative)

/-- **What a numeral is worth.** -/
def value (n : Numeral) : Except Error Number :=
  let (whole, kept) := pushDigits 0 n.whole
  if n.fraction.isEmpty ∧ n.exponent.isNone ∧ kept = n.whole.length then
    if !n.negative then .ok (.integer whole)
    else if 0 < whole ∧ whole ≤ limit / 2 then .ok (.integer (-whole))
    else .ok (.float (-(UInt64.ofNat whole).toFloat))
  else n.float.map .float

end Numeral

/-- A number and what it is worth, from its first character on. -/
def Reader.number (c : Char) : Reader Number := do
  match (← Numeral.reader c).value with
  | .ok x => return x
  | .error e => Reader.fail e

end CommandLog.Json
