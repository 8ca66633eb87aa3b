/-!
# Byte strings

Everything that the log stores, frames, journals and sends is a string of bytes. This file fixes
the type and the few operations on it that are shared by all of them:

* `CommandLog.Bytes` – a byte string, first byte first;
* `CommandLog.Bytes.ofString` – the UTF-8 encoding of a text;
* `CommandLog.Bytes.takeExactly?` – the first `n` bytes and what follows them, refused when
  there are not `n` of them;
* `CommandLog.Bytes.after?` – what follows a given mark at the front;
* `CommandLog.Bytes.splitLine?` – the first line, terminator included, and what follows it.

All of them are written with the list operations of the core library, so that they run in
constant stack on strings of any length and their laws are those of lists.
-/

namespace CommandLog

/-- A byte string, first byte first. -/
abbrev Bytes := List UInt8

namespace Bytes

/-- The UTF-8 encoding of a text. -/
def ofString (s : String) : Bytes :=
  s.toUTF8.toList

/-- The first `n` bytes and what follows them, provided that there are `n` bytes. Only the first
`n` bytes are looked at. -/
def takeExactly? (n : Nat) (bs : Bytes) : Option (Bytes × Bytes) :=
  if (bs.take n).length = n then some (bs.take n, bs.drop n) else none

/-- What follows `mark` at the front of a byte string, if it is there. -/
def after? : Bytes → Bytes → Option Bytes
  | [], bs => some bs
  | _ :: _, [] => none
  | m :: mark, b :: bs => if m = b then after? mark bs else none

/-- A byte string without one given byte at its end, if it is there. -/
def dropLastIf (b : UInt8) (bs : Bytes) : Bytes :=
  if bs.getLast? = some b then bs.dropLast else bs

/-- The line feed, which ends every command. -/
def terminator : UInt8 := 0x0a

/-- **The first line**, terminator included, and what follows it; `none` when no terminator is
there. -/
def splitLine? (bs : Bytes) : Option (Bytes × Bytes) :=
  match bs.dropWhile (· != terminator) with
  | [] => none
  | t :: rest => some (bs.takeWhile (· != terminator) ++ [t], rest)

/-- Length of the first line, terminator included. -/
def lineLength? (bs : Bytes) : Option Nat :=
  bs.splitLine?.map (·.1.length)

/-! ### Laws -/

theorem takeExactly?_eq_some_iff {n : Nat} {bs front rest : Bytes} :
    takeExactly? n bs = some (front, rest) ↔ front.length = n ∧ bs = front ++ rest := by
  unfold takeExactly?
  constructor
  · intro h
    split at h
    · next hn =>
      obtain ⟨rfl, rfl⟩ := by simpa using h
      exact ⟨hn, (List.take_append_drop n bs).symm⟩
    · exact absurd h (by simp)
  · rintro ⟨rfl, rfl⟩
    simp

theorem takeExactly?_eq_none_iff {n : Nat} {bs : Bytes} :
    takeExactly? n bs = none ↔ bs.length < n := by
  unfold takeExactly?
  simp only [List.length_take]
  split <;> simp <;> omega

theorem after?_eq_some_iff {mark bs rest : Bytes} :
    after? mark bs = some rest ↔ bs = mark ++ rest := by
  induction mark generalizing bs with
  | nil => simp [after?]
  | cons m mark ih =>
    cases bs with
    | nil => simp [after?]
    | cons b bs =>
      by_cases h : m = b
      · simp [after?, h, ih]
      · simp [after?, h, Ne.symm h]

/-- **A line and what follows it make up what was split**, and a line has at least its
terminator. -/
theorem eq_append_of_splitLine?_eq_some {bs line rest : Bytes}
    (h : splitLine? bs = some (line, rest)) : bs = line ++ rest ∧ 0 < line.length := by
  unfold splitLine? at h
  split at h
  · cases h
  · next t tail hdrop =>
    cases h
    have happend := List.takeWhile_append_dropWhile (p := (· != terminator)) (l := bs)
    rw [hdrop] at happend
    exact ⟨by simp [happend], by simp⟩

end Bytes

end CommandLog
