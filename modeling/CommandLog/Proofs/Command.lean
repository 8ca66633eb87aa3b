import CommandLog.Command
import CommandLog.Proofs.Lines
import Mathlib.Data.List.Basic
import Mathlib.Data.List.Induction
import Mathlib.Data.Nat.Digits.Defs

/-!
# Control lines

A line is stored unless it starts with the seek mark, and then it is either the control line of an
address or refused. The grammar of control lines says what they are put together from. Parsing takes
a line apart from both ends, line endings first, and then cuts at the first comma.

* `CommandLog.Decimal.Denotes` – **a numeral of a number**: digits of any count, that are worth it;
* `CommandLog.Decimal.value?_eq_some_iff` – these are the numerals that are read, and
  `CommandLog.Decimal.denotes_encode` – the one that is written is one of them;
* `CommandLog.Command.Addresses` – **the grammar**;
* `CommandLog.Command.address?_eq_some_iff` – what is behind the mark is read by the grammar;
* `CommandLog.Command.decides_grammar` – **parsing decides the grammar**, on any bytes;
* `CommandLog.Command.parse_controlLine` – **an address that a client writes is read back**, and
  `CommandLog.Command.isLine_controlLine` – its control line is one line.

Everything rests on one fact about numerals: they hold digits only, and so none of the bytes that a
control line is taken apart at. That is why the order in which this is done does not matter for
lines of the grammar, although it decides what becomes of the other ones.
-/

namespace CommandLog

/-! ### Numerals -/

namespace Decimal

theorem toNat_digit {d : Nat} (h : d < 10) : (digit d).toNat = 0x30 + d := by
  rw [digit, UInt8.toNat_ofNat']
  omega

theorem isDigit_digit {d : Nat} (h : d < 10) : isDigit (digit d) = true := by
  simp only [isDigit, Bool.and_eq_true, decide_eq_true_eq, UInt8.le_iff_toNat_le, toNat_digit h]
  exact ⟨Nat.le_add_right 0x30 d, by simp; omega⟩

/-- The value of a numeral with one more digit. -/
theorem push_digit {d : Nat} (h : d < 10) (acc : Nat) : push acc (digit d) = acc * 10 + d := by
  rw [push, toNat_digit h, Nat.add_sub_cancel_left]

/-- **A numeral holds digits only.** -/
theorem isDigit_of_mem_encode {b : UInt8} {n : Nat} (h : b ∈ encode n) : isDigit b = true := by
  fun_induction encode n with
  | case1 n hlt =>
    rw [List.mem_singleton.mp h]
    exact isDigit_digit hlt
  | case2 n _ ih =>
    rcases List.mem_append.mp h with hfront | hlast
    · exact ih hfront
    · rw [List.mem_singleton.mp hlast]
      exact isDigit_digit (Nat.mod_lt n (by decide))

theorem encode_ne_nil (n : Nat) : encode n ≠ [] := by
  unfold encode
  split <;> simp

theorem foldl_push_encode (n : Nat) : (encode n).foldl push 0 = n := by
  fun_induction encode n with
  | case1 n hlt => rw [List.foldl_cons, List.foldl_nil, push_digit hlt, Nat.zero_mul, Nat.zero_add]
  | case2 n _ ih =>
    rw [List.foldl_append, ih, List.foldl_cons, List.foldl_nil,
      push_digit (Nat.mod_lt n (by decide))]
    exact Nat.div_add_mod' n 10

/-- **A numeral of a number**: at least one digit, and in decimal they are worth the number. -/
structure Denotes (bs : Bytes) (n : Nat) : Prop where
  /-- There is a digit. -/
  ne_nil : bs ≠ []
  /-- There is nothing but digits. -/
  digits : ∀ b ∈ bs, isDigit b = true
  /-- Their value, the last one being the lowest. -/
  value : Nat.ofDigits 10 (bs.reverse.map fun b => b.toNat - 0x30) = n

/-- What is read digit by digit from the highest one is the value in decimal. -/
theorem foldl_push_eq_ofDigits (bs : Bytes) :
    bs.foldl push 0 = Nat.ofDigits 10 (bs.reverse.map fun b => b.toNat - 0x30) := by
  induction bs using List.reverseRecOn with
  | nil => rfl
  | append_singleton bs b ih =>
    rw [List.foldl_append, List.foldl_cons, List.foldl_nil, ih, List.reverse_append,
      List.reverse_singleton, List.singleton_append, List.map_cons, Nat.ofDigits_cons, push,
      Nat.mul_comm, Nat.add_comm]

/-- **The numerals that are read** are the ones that there are. -/
theorem value?_eq_some_iff {bs : Bytes} {n : Nat} : value? bs = some n ↔ Denotes bs n := by
  rw [value?]
  constructor
  · intro h
    split at h
    · next hdigits =>
      exact ⟨hdigits.1, List.all_eq_true.mp hdigits.2,
        (foldl_push_eq_ofDigits bs).symm.trans (Option.some.inj h)⟩
    · cases h
  · rintro ⟨hne, hdigits, hvalue⟩
    rw [if_pos ⟨hne, List.all_eq_true.mpr hdigits⟩, foldl_push_eq_ofDigits, hvalue]

/-- **A number that is written down** is written as one of its numerals. -/
theorem denotes_encode (n : Nat) : Denotes (encode n) n where
  ne_nil := encode_ne_nil n
  digits _ := isDigit_of_mem_encode
  value := by rw [← foldl_push_eq_ofDigits, foldl_push_encode]

/-- What is no digit is not in a numeral. -/
theorem Denotes.notMem {bs : Bytes} {n : Nat} (h : Denotes bs n) {b : UInt8}
    (hb : isDigit b = false) : b ∉ bs := by
  intro hmem
  rw [h.digits b hmem] at hb
  cases hb

end Decimal

/-! ### The ends of a line -/

namespace Bytes

/-- Nothing is taken off the end of what does not hold the byte at all. -/
theorem dropLastIf_of_notMem {b : UInt8} {bs : Bytes} (h : b ∉ bs) : bs.dropLastIf b = bs := by
  rw [dropLastIf, if_neg]
  exact fun hlast => h (List.mem_of_getLast? hlast)

/-- **A byte that may be at the end is taken off**, where it is nowhere else. -/
theorem dropLastIf_append {b : UInt8} {bs ending : Bytes} (hbs : b ∉ bs)
    (hending : ending = [] ∨ ending = [b]) : (bs ++ ending).dropLastIf b = bs := by
  rcases hending with rfl | rfl
  · rw [List.append_nil, dropLastIf_of_notMem hbs]
  · simp [dropLastIf]

/-- What is taken off the end is the byte or nothing. -/
theorem exists_eq_dropLastIf_append (b : UInt8) (bs : Bytes) :
    ∃ ending, bs = bs.dropLastIf b ++ ending ∧ (ending = [] ∨ ending = [b]) := by
  rw [dropLastIf]
  split
  · next hlast => exact ⟨[b], (List.dropLast_append_getLast? b hlast).symm, .inr rfl⟩
  · exact ⟨[], (List.append_nil bs).symm, .inl rfl⟩

end Bytes

/-! ### The grammar -/

namespace Command

open Bytes (IsLine terminator)

variable {args line first second : Bytes} {index offset : UInt32}

/-- **The control lines of an address**: the seek mark, a numeral, a comma, a numeral, and then at
most one carriage return and at most one terminator. -/
def Addresses (line : Bytes) (index offset : UInt32) : Prop :=
  ∃ first second ret feed, line = seekMark ++ (first ++ comma :: second ++ ret ++ feed) ∧
    Decimal.Denotes first index.toNat ∧ Decimal.Denotes second offset.toNat ∧
    (ret = [] ∨ ret = [carriageReturn]) ∧ (feed = [] ∨ feed = [terminator])

/-- The numerals that fit 32 bits. -/
theorem number?_eq_some_iff {bs : Bytes} {n : UInt32} :
    number? bs = some n ↔ Decimal.Denotes bs n.toNat := by
  rw [number?, ← Decimal.value?_eq_some_iff]
  rcases Decimal.value? bs with _ | m
  · simp
  · have hround : m < UInt32.size → (UInt32.ofNat m = n ↔ m = n.toNat) := by
      intro hlt
      rw [← UInt32.toNat_inj, UInt32.toNat_ofNat_of_lt' hlt]
    by_cases hlt : m < UInt32.size
    · simp [hlt, hround hlt]
    · have hne : m ≠ n.toNat := by
        rintro rfl
        exact hlt n.toNat_lt_size
      simp [hlt, hne]

/-- A comma is no digit, and neither is what ends a line. -/
theorem notMem_arguments {b : UInt8} (hdigit : Decimal.isDigit b = false) (hcomma : b ≠ comma)
    {m n : Nat} (hfirst : Decimal.Denotes first m) (hsecond : Decimal.Denotes second n) :
    b ∉ first ++ comma :: second := by
  rw [List.mem_append, List.mem_cons, not_or, not_or]
  exact ⟨hfirst.notMem hdigit, hcomma, hsecond.notMem hdigit⟩

/-- Where a text is cut at its first comma. -/
theorem eq_append_comma {bs : Bytes} {c : UInt8} (h : bs.dropWhile (· != comma) = c :: second) :
    bs = bs.takeWhile (· != comma) ++ comma :: second := by
  have hne : bs.dropWhile (· != comma) ≠ [] := by simp [h]
  have hc := List.head_dropWhile_not (· != comma) hne
  simp only [h, List.head_cons, bne_eq_false_iff_eq] at hc
  have happend := List.takeWhile_append_dropWhile (p := (· != comma)) (l := bs)
  rw [h, hc] at happend
  exact happend.symm

/-- **The first comma is the one behind a numeral**, since there is none in it. -/
theorem cut_at_comma {n : Nat} (hfirst : Decimal.Denotes first n) (second : Bytes) :
    (first ++ comma :: second).takeWhile (· != comma) = first ∧
      (first ++ comma :: second).dropWhile (· != comma) = comma :: second := by
  have hall : ∀ b ∈ first, (b != comma) = true := by
    intro b hb
    rw [bne_iff_ne]
    rintro rfl
    exact hfirst.notMem (by decide) hb
  rw [List.takeWhile_append_of_pos hall, List.dropWhile_append_of_pos hall]
  simp

/-- **What is read as an address** is one. What is taken off at the end are line endings, and the
two numerals are what is in front of the first comma and what is behind it. -/
theorem addresses_of_address? (h : address? args = some (index, offset)) :
    Addresses (seekMark ++ args) index offset := by
  obtain ⟨feed, hargs, hfeed⟩ := Bytes.exists_eq_dropLastIf_append terminator args
  obtain ⟨ret, hrest, hret⟩ :=
    Bytes.exists_eq_dropLastIf_append carriageReturn (args.dropLastIf terminator)
  simp only [address?] at h
  split at h
  · cases h
  · next second hdrop =>
    split at h
    · next i o hi ho =>
      obtain ⟨rfl, rfl⟩ := Prod.mk.inj (Option.some.inj h)
      refine ⟨_, second, ret, feed, ?_, number?_eq_some_iff.mp hi, number?_eq_some_iff.mp ho, hret,
        hfeed⟩
      rw [← eq_append_comma hdrop, ← hrest, ← hargs]
    · cases h

/-- **An address is read**, whichever line endings it has. -/
theorem address?_of_addresses (h : Addresses (seekMark ++ args) index offset) :
    address? args = some (index, offset) := by
  obtain ⟨first, second, ret, feed, hargs, hfirst, hsecond, hret, hfeed⟩ := h
  obtain rfl := List.append_cancel_left hargs
  have hnotReturn : carriageReturn ∉ first ++ comma :: second :=
    notMem_arguments (by decide) (by decide) hfirst hsecond
  have hnotFeed : terminator ∉ first ++ comma :: second ++ ret := by
    rw [List.mem_append, not_or]
    refine ⟨notMem_arguments (by decide) (by decide) hfirst hsecond, ?_⟩
    rcases hret with rfl | rfl
    · exact List.not_mem_nil
    · decide
  obtain ⟨htake, hdrop⟩ := cut_at_comma hfirst second
  simp only [address?, Bytes.dropLastIf_append hnotFeed hfeed,
    Bytes.dropLastIf_append hnotReturn hret, htake, hdrop, number?_eq_some_iff.mpr hfirst,
    number?_eq_some_iff.mpr hsecond]

/-- **What is behind the mark is read by the grammar.** -/
theorem address?_eq_some_iff :
    address? args = some (index, offset) ↔ Addresses (seekMark ++ args) index offset :=
  ⟨addresses_of_address?, address?_of_addresses⟩

/-! ### Lines -/

/-- What follows the seek mark in a line that starts with it. -/
theorem after?_seekMark_eq_none_iff : Bytes.after? seekMark line = none ↔ ¬seekMark <+: line := by
  rw [Option.eq_none_iff_forall_ne_some]
  constructor
  · rintro h ⟨args, rfl⟩
    exact h args (Bytes.after?_eq_some_iff.mpr rfl)
  · rintro h args hargs
    exact h ⟨args, (Bytes.after?_eq_some_iff.mp hargs).symm⟩

/-- A line with the seek mark is judged by what follows the mark. -/
theorem parse_seekMark_append (args : Bytes) :
    parse (seekMark ++ args) =
      (address? args).elim (.error .malformedSeek) fun found => .ok (.seek found.1 found.2) := by
  simp only [parse, Bytes.after?_eq_some_iff.mpr rfl]
  rcases address? args with _ | ⟨index, offset⟩
  · rfl
  · rfl

theorem parse_eq_write (h : ¬seekMark <+: line) : parse line = .ok (.write line) := by
  rw [parse, after?_seekMark_eq_none_iff.mpr h]

/-- **A line is stored** unless it starts with the seek mark, and then as it is. -/
theorem parse_eq_write_iff {stored : Bytes} :
    parse line = .ok (.write stored) ↔ stored = line ∧ ¬seekMark <+: line := by
  by_cases hmark : seekMark <+: line
  · obtain ⟨args, rfl⟩ := hmark
    rw [parse_seekMark_append]
    rcases address? args with _ | ⟨index, offset⟩ <;> simp
  · simp [parse_eq_write hmark, hmark, eq_comm]

/-- **A line addresses a position** just if it is one of the control lines of that address. -/
theorem parse_eq_seek_iff :
    parse line = .ok (.seek index offset) ↔ Addresses line index offset := by
  by_cases hmark : seekMark <+: line
  · obtain ⟨args, rfl⟩ := hmark
    rw [parse_seekMark_append, ← address?_eq_some_iff]
    rcases address? args with _ | ⟨i, o⟩ <;> simp
  · have hnone : ¬Addresses line index offset := by
      rintro ⟨first, second, ret, feed, rfl, -⟩
      exact hmark (List.prefix_append _ _)
    simp [parse_eq_write hmark, hnone]

/-- **A line is refused** just if it starts with the seek mark and is no control line. -/
theorem parse_eq_error_iff :
    parse line = .error .malformedSeek ↔
      seekMark <+: line ∧ ∀ index offset, ¬Addresses line index offset := by
  simp only [← parse_eq_seek_iff]
  by_cases hmark : seekMark <+: line
  · obtain ⟨args, rfl⟩ := hmark
    rw [parse_seekMark_append]
    rcases address? args with _ | ⟨index, offset⟩ <;> simp
  · simp [parse_eq_write hmark, hmark]

/-- **Parsing decides the grammar**, on any bytes. A line is stored, as it is, just if it does not
start with the seek mark. It addresses a position just if the mark is followed by a numeral, a
comma, a numeral, at most one carriage return and at most one terminator, the numerals being digits
of any count whose values are the two numbers, of 32 bits each. Every other line with the mark is
refused. -/
theorem decides_grammar (line : Bytes) :
    (∀ stored, parse line = .ok (.write stored) ↔ stored = line ∧ ¬seekMark <+: line) ∧
    (∀ index offset, parse line = .ok (.seek index offset) ↔ Addresses line index offset) ∧
    (parse line = .error .malformedSeek ↔
      seekMark <+: line ∧ ∀ index offset, ¬Addresses line index offset) :=
  ⟨fun _ => parse_eq_write_iff, fun _ _ => parse_eq_seek_iff, parse_eq_error_iff⟩

/-- Leading zeros and both line endings: `007,1`. -/
example : parse (seekMark ++ [0x30, 0x30, 0x37, 0x2c, 0x31, 0x0d, 0x0a]) = .ok (.seek 7 1) := by
  decide

/-- One more than fits 32 bits: `4294967296,1`. -/
example : parse (seekMark ++ [0x34, 0x32, 0x39, 0x34, 0x39, 0x36, 0x37, 0x32, 0x39, 0x36, 0x2c,
    0x31]) = .error .malformedSeek := by
  decide

/-! ### What a client writes -/

/-- **An address that is written down is read back.** -/
theorem parse_controlLine (index offset : UInt32) :
    parse (controlLine index offset) = .ok (.seek index offset) := by
  refine parse_eq_seek_iff.mpr ⟨Decimal.encode index.toNat, Decimal.encode offset.toNat, [],
    [terminator], ?_, Decimal.denotes_encode _, Decimal.denotes_encode _, .inl rfl, .inr rfl⟩
  simp [controlLine]

/-- A control line is one line. -/
theorem isLine_controlLine (index offset : UInt32) : IsLine (controlLine index offset) := by
  refine ⟨seekMark ++ Decimal.encode index.toNat ++ comma :: Decimal.encode offset.toNat, ?_, rfl⟩
  rw [List.append_assoc, List.mem_append, not_or]
  exact ⟨by decide, notMem_arguments (by decide) (by decide) (Decimal.denotes_encode _)
    (Decimal.denotes_encode _)⟩

end Command

end CommandLog
