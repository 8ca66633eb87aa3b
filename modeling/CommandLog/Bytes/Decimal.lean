import CommandLog.Bytes

/-!
# Decimal numerals as bytes

The two numbers of a seek control line are written in decimal. Printing and reading are separate
definitions: `CommandLog.Decimal.encode` writes the shortest numeral, while
`CommandLog.Decimal.value?` accepts every non-empty string of ASCII digits, leading zeros
included, and nothing else.
-/

namespace CommandLog.Decimal

/-- Whether a byte is an ASCII digit. -/
def isDigit (b : UInt8) : Bool :=
  0x30 ≤ b && b ≤ 0x39

/-- The ASCII digit of a number below ten. -/
def digit (d : Nat) : UInt8 :=
  UInt8.ofNat (0x30 + d)

/-- The shortest decimal numeral of a number. -/
def encode (n : Nat) : Bytes :=
  if n < 10 then [digit n] else encode (n / 10) ++ [digit (n % 10)]

/-- One more digit at the low end. -/
def push (acc : Nat) (b : UInt8) : Nat :=
  acc * 10 + (b.toNat - 0x30)

/-- **The value of a numeral**: defined on non-empty strings of ASCII digits only, of any
length. -/
def value? (bs : Bytes) : Option Nat :=
  if bs ≠ [] ∧ bs.all isDigit then some (bs.foldl push 0) else none

end CommandLog.Decimal
