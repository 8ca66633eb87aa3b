import CommandLog.Bytes

/-!
# Reading bytes as text whatever they are

Bytes are read as UTF-8. A sequence that is no UTF-8 is read as the replacement character: as
one, as far as it is the beginning of some character, and as another one from the first byte on
that does not go on with it.

* `CommandLog.Text.nextChar` – the first character, and what follows it;
* `CommandLog.Text.firstChars` – **the first characters**, at most so many.
-/

namespace CommandLog.Text

/-- Stands for what cannot be read. -/
def replacement : Char := '\ufffd'

/-- Whether a byte goes on with a character. -/
def isContinuation (b : UInt8) : Bool :=
  0x80 ≤ b && b ≤ 0xbf

/-- What a leading byte says about its character: its bits, the range of the byte after it, and
how many more bytes follow that one. -/
structure Lead where
  /-- The bits of the character in the leading byte. -/
  bits : Nat
  /-- The smallest second byte. -/
  low : UInt8 := 0x80
  /-- The largest second byte. -/
  high : UInt8 := 0xbf
  /-- Number of bytes behind the second one. -/
  more : Nat

/-- Reads a leading byte. The range of the second byte leaves out longer spellings of shorter
characters, surrogates, and code points that are too large. -/
def Lead.of? (b : UInt8) : Option Lead :=
  let n := b.toNat
  if n < 0xc2 then none
  else if n < 0xe0 then some { bits := n - 0xc0, more := 0 }
  else if n = 0xe0 then some { bits := 0, low := 0xa0, more := 1 }
  else if n = 0xed then some { bits := 0xd, high := 0x9f, more := 1 }
  else if n < 0xf0 then some { bits := n - 0xe0, more := 1 }
  else if n = 0xf0 then some { bits := 0, low := 0x90, more := 2 }
  else if n < 0xf4 then some { bits := n - 0xf0, more := 2 }
  else if n = 0xf4 then some { bits := 4, high := 0x8f, more := 2 }
  else none

/-- Goes on with a character of which some bits are known and some bytes are missing. -/
def continueChar (bits : Nat) : Nat → Bytes → Char × Bytes
  | 0, rest => (Char.ofNat bits, rest)
  | _ + 1, [] => (replacement, [])
  | more + 1, b :: rest =>
    if isContinuation b then continueChar (bits * 64 + (b.toNat - 0x80)) more rest
    else (replacement, b :: rest)

/-- **The first character**, and what follows it. -/
def nextChar : Bytes → Option (Char × Bytes)
  | [] => none
  | b :: rest =>
    if b < 0x80 then some (Char.ofNat b.toNat, rest)
    else
      match Lead.of? b, rest with
      | none, _ => some (replacement, rest)
      | some _, [] => some (replacement, [])
      | some lead, second :: rest' =>
        if lead.low ≤ second && second ≤ lead.high then
          some (continueChar (lead.bits * 64 + (second.toNat - 0x80)) lead.more rest')
        else some (replacement, rest)

/-- **The first characters** of a byte string, at most so many. -/
def firstChars : Nat → Bytes → List Char
  | 0, _ => []
  | n + 1, bs =>
    match nextChar bs with
    | none => []
    | some (c, rest) => c :: firstChars n rest

end CommandLog.Text
