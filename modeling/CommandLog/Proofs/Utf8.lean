import Mathlib.Data.List.Basic
import Mathlib.Tactic.Common
import CommandLog.Proofs.Lines

/-!
# Texts as byte strings

Texts become byte strings by their UTF-8 encoding, character by character. A character other than
the line feed is encoded without the byte of the line feed, so a text has as many lines as its
encoding.

* `CommandLog.Bytes.ofString_eq` – **the encoding of a text** is that of its characters one after
  the other, whence `CommandLog.Bytes.ofString_append` and `CommandLog.Bytes.length_ofString_le`;
* `CommandLog.Bytes.terminator_mem_ofString_iff` – **a terminator in the bytes is a line feed in the
  text**.
-/

namespace CommandLog.Bytes

/-- Bytes are taken off an array one at a time, from some place on. -/
theorem toList_loop_eq (bs : ByteArray) (i : Nat) (front : List UInt8) :
    ByteArray.toList.loop bs i front = front.reverse ++ bs.data.toList.drop i := by
  have hlength : bs.data.toList.length = bs.size := rfl
  induction hleft : bs.size - i generalizing i front with
  | zero =>
    rw [ByteArray.toList.loop, if_neg (by omega), List.drop_eq_nil_of_le (by omega),
      List.append_nil]
  | succ n ih =>
    have hi : i < bs.size := by omega
    have hget : bs.get! i = bs.data.toList[i] := getElem!_pos bs.data i hi
    rw [ByteArray.toList.loop, if_pos hi, ih (i + 1) _ (by omega), List.reverse_cons,
      List.append_assoc, List.singleton_append, hget, List.getElem_cons_drop]

theorem toList_toByteArray (bs : List UInt8) : bs.toByteArray.toList = bs := by
  rw [ByteArray.toList, toList_loop_eq, List.toList_data_toByteArray]
  rfl

/-- **The encoding of a text** is that of its characters. -/
theorem ofString_eq (s : String) : ofString s = s.toList.flatMap String.utf8EncodeChar := by
  calc ofString s = (String.ofList s.toList).toByteArray.toList := by
        rw [String.ofList_toList]
        rfl
    _ = s.toList.flatMap String.utf8EncodeChar := by
        rw [String.toByteArray_ofList, List.utf8Encode, toList_toByteArray]

theorem ofString_append (s t : String) : ofString (s ++ t) = ofString s ++ ofString t := by
  rw [ofString_eq, ofString_eq, ofString_eq, String.toList_append, List.flatMap_append]

/-- A character is encoded in four bytes at most. -/
theorem length_ofString_le (s : String) : (ofString s).length ≤ 4 * s.length := by
  rw [ofString_eq, ← String.length_toList]
  induction s.toList with
  | nil => exact Nat.zero_le _
  | cons c cs ih =>
    have hchar : (String.utf8EncodeChar c).length ≤ 4 := by
      rw [String.length_utf8EncodeChar]
      exact Char.utf8Size_le_four c
    rw [List.flatMap_cons, List.length_append, List.length_cons]
    omega

/-- **The byte of the line feed** is in the encoding of no other character: in an encoding of more
than one byte every byte has its highest bit set. -/
theorem terminator_mem_utf8EncodeChar_iff (c : Char) :
    terminator ∈ String.utf8EncodeChar c ↔ c = '\n' := by
  have hnewline : c = '\n' ↔ c.val.toNat = 10 := by
    rw [Char.ext_iff, ← UInt32.toNat_inj]
    rfl
  have hbyte : ∀ n, terminator = UInt8.ofNat n ↔ n % 256 = 10 := by
    intro n
    rw [← UInt8.toNat_inj, UInt8.toNat_ofNat']
    exact eq_comm
  rw [hnewline, String.utf8EncodeChar]
  split
  · rw [List.mem_singleton, hbyte]
    omega
  · split
    · simp only [List.mem_cons, List.not_mem_nil, or_false, hbyte]
      omega
    · split
      · simp only [List.mem_cons, List.not_mem_nil, or_false, hbyte]
        omega
      · simp only [List.mem_cons, List.not_mem_nil, or_false, hbyte]
        omega

/-- **A terminator in the bytes is a line feed in the text.** -/
theorem terminator_mem_ofString_iff (s : String) :
    terminator ∈ ofString s ↔ '\n' ∈ s.toList := by
  rw [ofString_eq, List.mem_flatMap]
  constructor
  · rintro ⟨c, hc, hmem⟩
    rwa [(terminator_mem_utf8EncodeChar_iff c).mp hmem] at hc
  · intro hmem
    exact ⟨_, hmem, (terminator_mem_utf8EncodeChar_iff _).mpr rfl⟩

end CommandLog.Bytes
