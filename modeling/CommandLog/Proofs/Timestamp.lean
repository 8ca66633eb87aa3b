import CommandLog.Command
import CommandLog.Journal.Format
import CommandLog.Proofs.Utf8
import CommandLog.Timestamp
import Mathlib.Data.Nat.Digits.Defs

/-!
# Timestamp entries are commands

The entry of an instant is one line, whatever the instant, and no control line. It is short, so
every journal takes it.

* `CommandLog.Timestamp.newline_notMem_render` – the time as text holds no line feed: it is put
  together from names, digits and a few marks;
* `CommandLog.Timestamp.isLine_entry` – **an entry is one line**;
* `CommandLog.Timestamp.not_seekMark_entry` – **an entry is no control line**;
* `CommandLog.Timestamp.fits_entry` – **an entry fits a record**, for times that are milliseconds of
  64 bits. The bounds on the way there are generous: only the year has as many digits as it takes.
-/

namespace CommandLog

/-- The date of a day is bounded by the number of the day. -/
theorem Date.ofDayNumber_lt {n : Int} {k : Nat} (hn : 0 ≤ n) (hlt : n < k) :
    (ofDayNumber n).year.natAbs < 400 * k + 10 ^ 7 ∧ (ofDayNumber n).day < 10 ^ 7 := by
  unfold ofDayNumber
  extract_lets shifted era dayOfEra yearOfEra dayOfYear monthFromMarch month
  have hera : era = (n + 719468) / 146097 := Int.fdiv_eq_ediv_of_nonneg _ (by decide)
  have hdayOfEra : dayOfEra < 146097 := by
    change (n + 719468 - era * 146097).toNat < 146097
    omega
  have hyearOfEra : yearOfEra ≤ dayOfEra := by
    change (dayOfEra - dayOfEra / 1460 + dayOfEra / 36524 - dayOfEra / 146096) / 365 ≤ dayOfEra
    omega
  have hdayOfYear : dayOfYear ≤ dayOfEra := Nat.sub_le _ _
  constructor
  · change (era * 400 + yearOfEra + if month ≤ 2 then 1 else 0).natAbs < _
    split <;> omega
  · change dayOfYear - (153 * monthFromMarch + 2) / 5 + 1 < _
    omega

namespace Timestamp

open Bytes (IsLine ofString terminator)

/-- Numbers are written in digits. -/
theorem newline_notMem_padded (width n : Nat) : '\n' ∉ (padded width n).toList := by
  rw [padded, String.toList_ofList, List.mem_append, not_or]
  constructor
  · intro hmem
    cases List.eq_of_mem_replicate hmem
  · intro hmem
    cases Nat.isDigit_of_mem_toDigits (by decide) (by decide) hmem

theorem newline_notMem_year (y : Int) : '\n' ∉ (year y).toList := by
  unfold year
  split
  · simp [newline_notMem_padded]
  · split <;> simp [newline_notMem_padded]

theorem newline_notMem_getD {names : List String} (hnames : ∀ s ∈ names, '\n' ∉ s.toList)
    (i : Nat) : '\n' ∉ ((names[i]?).getD "").toList := by
  rcases hname : names[i]? with _ | s
  · simp
  · exact hnames s (List.mem_of_getElem? hname)

/-- **The time as text holds no line feed.** -/
theorem newline_notMem_render (i : Instant) : '\n' ∉ (render i).toList := by
  have hweekday : ∀ n, '\n' ∉ ((weekdays[n]?).getD "").toList := newline_notMem_getD (by decide)
  have hmonth : ∀ n, '\n' ∉ ((months[n]?).getD "").toList := newline_notMem_getD (by decide)
  simp [render, hweekday, hmonth, newline_notMem_padded, newline_notMem_year]

theorem entry_eq (i : Instant) :
    entry i = ofString "timestamp:" ++ ofString (render i) ++ [terminator] := by
  rw [entry, Bytes.ofString_append, Bytes.ofString_append, Bytes.ofString_eq "\n"]
  rfl

/-- **An entry is one line.** -/
theorem isLine_entry (i : Instant) : IsLine (entry i) := by
  refine ⟨ofString "timestamp:" ++ ofString (render i), ?_, entry_eq i⟩
  rw [List.mem_append, not_or, Bytes.terminator_mem_ofString_iff, Bytes.terminator_mem_ofString_iff]
  exact ⟨by decide, newline_notMem_render i⟩

/-- **An entry is no control line.** -/
theorem not_seekMark_entry (i : Instant) : ¬Command.seekMark <+: entry i := by
  rw [entry_eq, Bytes.ofString_eq "timestamp:"]
  rintro ⟨rest, hrest⟩
  cases hrest

/-! ### Entries are short -/

theorem length_padded_le {w n k : Nat} (hk : 0 < k) (hn : n < 10 ^ k) :
    (padded w n).length ≤ w + k := by
  have hdigits := Nat.toDigits_length 10 n k hk hn
  rw [padded, String.length_ofList, List.length_append, List.length_replicate]
  omega

theorem length_year_le {y : Int} {k : Nat} (hk : 0 < k) (hy : y.natAbs < 10 ^ k) :
    (year y).length ≤ k + 5 := by
  have hpadded := length_padded_le (w := 4) hk hy
  have hsign : "-".length = 1 ∧ "+".length = 1 := by decide
  unfold year
  split
  · rw [String.length_append]
    omega
  · split
    · omega
    · rw [String.length_append]
      omega

theorem length_getD_le {names : List String} {k : Nat} (hnames : ∀ s ∈ names, s.length ≤ k)
    (i : Nat) : ((names[i]?).getD "").length ≤ k := by
  rcases hname : names[i]? with _ | s
  · exact Nat.zero_le _
  · exact hnames s (List.mem_of_getElem? hname)

theorem length_render_le {ms : Nat} (hms : ms < 2 ^ 64) :
    (render (Instant.ofMillis ms)).length ≤ 100 := by
  have hdayNumber : (Instant.ofMillis ms).dayNumber = (ms / 1000 : Nat) / 86400 :=
    Int.fdiv_eq_ediv_of_nonneg _ (by decide)
  have hsecondOfDay : (Instant.ofMillis ms).secondOfDay < 86400 := by
    rw [Instant.secondOfDay, hdayNumber]
    change (((ms / 1000 : Nat) : Int) - _ / 86400 * 86400).toNat < _
    omega
  have hnanos : (Instant.ofMillis ms).nanos < 10 ^ 9 := by
    change ms % 1000 * 1000000 < _
    omega
  obtain ⟨hyear, hday⟩ := Date.ofDayNumber_lt (n := (Instant.ofMillis ms).dayNumber) (k := 2 ^ 64)
    (by omega) (by omega)
  have hweekday := length_getD_le (k := 3) (by decide : ∀ s ∈ weekdays, s.length ≤ 3)
    (Date.weekday (Instant.ofMillis ms).dayNumber)
  have hmonth := length_getD_le (k := 3) (by decide : ∀ s ∈ months, s.length ≤ 3)
    ((Instant.ofMillis ms).date.month - 1)
  have hdays := length_padded_le (w := 2) (k := 7) (by decide) hday
  have hyears := length_year_le (k := 24) (by decide) (Nat.lt_trans hyear (by decide))
  have hhours := length_padded_le (w := 2) (n := (Instant.ofMillis ms).hour) (k := 5) (by decide)
    (by rw [Instant.hour]; omega)
  have hminutes := length_padded_le (w := 2) (n := (Instant.ofMillis ms).minute) (k := 5)
    (by decide) (by rw [Instant.minute]; omega)
  have hseconds := length_padded_le (w := 2) (n := (Instant.ofMillis ms).second) (k := 9)
    (by decide) (by rw [Instant.second, Instant.nanosPerSecond]; omega)
  have hmarks : ", ".length = 2 ∧ " ".length = 1 ∧ ":".length = 1 ∧ " +0000".length = 6 := by
    decide
  rw [← Instant.date] at hdays hyears
  simp only [render, String.length_append]
  omega

/-- **An entry fits a record** as long as the milliseconds fit 64 bits. -/
theorem fits_entry {ms : Nat} (hms : ms < 2 ^ 64) :
    Journal.fits (entry (Instant.ofMillis ms)) = true := by
  have hrender := length_render_le hms
  have hfront := Bytes.length_ofString_le "timestamp:"
  have hlength := Bytes.length_ofString_le (render (Instant.ofMillis ms))
  have hmark : "timestamp:".length = 10 := by decide
  rw [Journal.fits, decide_eq_true_iff, entry_eq, List.length_append, List.length_append,
    List.length_singleton, Journal.Record.payloadLimit, UInt32.size]
  omega

end Timestamp

end CommandLog
