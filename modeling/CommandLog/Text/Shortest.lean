/-!
# The shortest decimal text of a binary fraction

A double-precision number is written with the fewest decimal digits that read back as the same
number; of several decimals with so few digits the one nearest to the number is taken.

* `CommandLog.Shortest.Binary` – a number as a multiple of a power of two, together with the
  interval of the reals that are rounded to it;
* `CommandLog.Shortest.neighbour?` – the decimal on a given grid that reads back, if there is one:
  of all points of a grid, only the two next to the number have to be looked at;
* `CommandLog.Shortest.decimal` – the first grid, from coarse to fine, on which there is one;
* `CommandLog.Shortest.render` – the text. Numbers from `0.00001` on and below `10 ^ 16` are
  written with all their places and others with an exponent, whose sign is always there.

Everything is computed in natural numbers, so nothing is rounded on the way.
-/

namespace CommandLog.Shortest

/-- A power of two. -/
def twoTo (n : Nat) : Nat :=
  Nat.pow 2 n

/-- A power of ten. -/
def tenTo (n : Nat) : Nat :=
  Nat.pow 10 n

/-- A positive number `significand * 2 ^ exponent`. -/
structure Binary where
  /-- The significand. -/
  significand : Nat
  /-- The exponent of two. -/
  exponent : Int
  /-- Whether the next smaller number is only half as far away as the next greater one. -/
  lowest : Bool
deriving Repr

/-- The finite number with the given bits, apart from its sign. -/
def Binary.ofBits (bits : UInt64) : Binary :=
  let fraction := bits.toNat % twoTo 52
  let biased := bits.toNat / twoTo 52 % twoTo 11
  if biased = 0 then { significand := fraction, exponent := -1074, lowest := false }
  else
    { significand := twoTo 52 + fraction
      exponent := Int.ofNat biased - 1075
      lowest := fraction = 0 ∧ 1 < biased }

/-- A number and the two ends of the interval that is rounded to it, in a common unit that is a
quotient of natural numbers. -/
structure Span where
  /-- The number itself. -/
  value : Nat
  /-- The lower end of the interval. -/
  low : Nat
  /-- The upper end of the interval. -/
  high : Nat
  /-- Whether the ends belong to the interval. -/
  closed : Bool
  /-- Numerator of the unit. -/
  numerator : Nat
  /-- Denominator of the unit. -/
  denominator : Nat

/-- The interval of a number, in quarters of the place of its last bit. -/
def Binary.span (b : Binary) : Span where
  value := 4 * b.significand
  low := 4 * b.significand - (if b.lowest then 1 else 2)
  high := 4 * b.significand + 2
  closed := b.significand % 2 = 0
  numerator := twoTo (b.exponent - 2).toNat
  denominator := twoTo (2 - b.exponent).toNat

/-- A decimal `digits * 10 ^ place`. -/
structure Decimal where
  /-- The digits, read as one number. -/
  digits : Nat
  /-- The place of the last digit. -/
  place : Int

/-- Whether the decimal with the given digits reads back, where `unit` is the place of its last
digit and the interval is that from `low` to `high`, all in the same unit. -/
def readsBack (closed : Bool) (low high unit digits : Nat) : Bool :=
  if closed then low ≤ digits * unit && digits * unit ≤ high
  else low < digits * unit && digits * unit < high

/-- **The decimal on a grid that reads back**, the nearer one if there are two, and of two equally
near ones that whose last digit is even. -/
def neighbour? (s : Span) (place : Int) : Option Decimal :=
  let scale := s.numerator * tenTo (-place).toNat
  let unit := s.denominator * tenTo place.toNat
  let value := s.value * scale
  let below := value / unit
  let fits := readsBack s.closed (s.low * scale) (s.high * scale) unit
  let rest := value - below * unit
  let nearerBelow := 2 * rest < unit || (2 * rest == unit && below % 2 == 0)
  let found :=
    match fits below, fits (below + 1) with
    | true, true => some (if nearerBelow then below else below + 1)
    | true, false => some below
    | false, true => some (below + 1)
    | false, false => none
  found.map fun digits => { digits, place }

/-- The place of the first digit of a quotient. -/
def leadingPlace (numerator denominator : Nat) : Int :=
  if denominator ≤ numerator then
    (Nat.toDigits 10 (numerator / denominator)).length - 1
  else
    let digits := (Nat.toDigits 10 (denominator / numerator)).length
    if denominator ≤ numerator * tenTo (digits - 1) then 1 - (digits : Int) else -(digits : Int)

/-- **The shortest decimal that reads back**, from one digit up to the seventeen that are always
enough. -/
def decimal (b : Binary) : Decimal :=
  let s := b.span
  let first := leadingPlace (s.value * s.numerator) s.denominator
  ((List.range 17).findSome? fun (n : Nat) => neighbour? s (first - n)).getD
    { digits := 0, place := 0 }

/-- The digits of a number without the zeros at their end. -/
def significantDigits (n : Nat) : List Char :=
  ((Nat.toDigits 10 n).reverse.dropWhile (· == '0')).reverse

/-- The exponents from which and up to which all places are written. -/
def positional : Int × Int := (-5, 15)

/-- Digits with the point where the exponent of the first one says, or with the exponent. -/
def layOut (digits : List Char) (exponent : Int) : List Char :=
  if positional.1 ≤ exponent ∧ exponent ≤ positional.2 then
    if exponent < 0 then
      "0.".toList ++ List.replicate (-exponent - 1).toNat '0' ++ digits
    else
      let whole := exponent.toNat + 1
      if digits.length ≤ whole then
        digits ++ List.replicate (whole - digits.length) '0' ++ ".0".toList
      else digits.take whole ++ '.' :: digits.drop whole
  else
    digits.take 1 ++ (if digits.length = 1 then [] else '.' :: digits.drop 1) ++
      ['e', if exponent < 0 then '-' else '+'] ++ Nat.toDigits 10 exponent.natAbs

/-- **The text of a finite number.** -/
def render (x : Float) : List Char :=
  let bits := x.toBits
  let sign := if bits.toNat < twoTo 63 then [] else ['-']
  let b := Binary.ofBits bits
  if b.significand = 0 then sign ++ "0.0".toList
  else
    let d := decimal b
    let length := (Nat.toDigits 10 d.digits).length
    sign ++ layOut (significantDigits d.digits) (d.place + length - 1)

end CommandLog.Shortest
