import CommandLog.Bytes
import Mathlib.Data.List.TakeWhile

/-!
# The lines of a stream

A stream of bytes is cut behind every terminator. What comes before the last one is a list of
lines, each with its terminator; what comes after it is a line that is not complete yet.

* `CommandLog.Bytes.IsLine` – a line: its terminator is its last byte and none of the others;
* `CommandLog.Bytes.cut` – the lines of a stream and what follows the last of them, with
  `CommandLog.Bytes.lines` and `CommandLog.Bytes.unterminated` for the two parts.

There is one way only to write a stream as lines followed by something without a terminator
(`CommandLog.Bytes.cut_eq_iff`). So whoever takes lines from the front of a stream, one at a time
and in whatever manner, has found the lines of the stream as soon as no terminator is left.
-/

namespace CommandLog.Bytes

/-- **A line**: its last byte is a terminator and no other one is. -/
def IsLine (l : Bytes) : Prop :=
  ∃ body, terminator ∉ body ∧ l = body ++ [terminator]

theorem IsLine.ne_nil {l : Bytes} (h : IsLine l) : l ≠ [] := by
  obtain ⟨body, -, rfl⟩ := h
  simp

/-- A line that is begun earlier is still a line. -/
theorem IsLine.append_left {l front : Bytes} (h : IsLine l) (hfront : terminator ∉ front) :
    IsLine (front ++ l) := by
  obtain ⟨body, hbody, rfl⟩ := h
  refine ⟨front ++ body, ?_, by simp⟩
  rw [List.mem_append, not_or]
  exact ⟨hfront, hbody⟩

/-- The lines of a stream, and what follows the last of them. -/
def cut : Bytes → List Bytes × Bytes
  | [] => ([], [])
  | b :: bs =>
    if b = terminator then ([b] :: (cut bs).1, (cut bs).2)
    else
      match cut bs with
      | ([], rest) => ([], b :: rest)
      | (l :: ls, rest) => ((b :: l) :: ls, rest)

/-- **The lines of a stream**, terminators included. -/
def lines (bs : Bytes) : List Bytes :=
  (cut bs).1

/-- What follows the last terminator of a stream. -/
def unterminated (bs : Bytes) : Bytes :=
  (cut bs).2

/-! ### The cut is determined by its parts -/

theorem cut_of_notMem {rest : Bytes} (h : terminator ∉ rest) : cut rest = ([], rest) := by
  induction rest with
  | nil => rfl
  | cons b rest ih =>
    rw [List.mem_cons, not_or] at h
    rw [cut, if_neg (fun hb => h.1 hb.symm), ih h.2]

/-- The first line of a stream is cut off, and the rest is cut as if it stood alone. -/
theorem cut_line_append {l : Bytes} (h : IsLine l) (bs : Bytes) :
    cut (l ++ bs) = (l :: (cut bs).1, (cut bs).2) := by
  obtain ⟨body, hbody, rfl⟩ := h
  induction body with
  | nil => simp [cut]
  | cons b body ih =>
    rw [List.mem_cons, not_or] at hbody
    have hcut := ih hbody.2
    rw [List.cons_append, List.cons_append, cut, if_neg (fun hb => hbody.1 hb.symm), hcut]

/-- **Lines followed by something without a terminator are cut where they were put together.** -/
theorem cut_flatten_append {ls : List Bytes} {rest : Bytes} (hls : ∀ l ∈ ls, IsLine l)
    (hrest : terminator ∉ rest) : cut (ls.flatten ++ rest) = (ls, rest) := by
  induction ls with
  | nil => exact cut_of_notMem hrest
  | cons l ls ih =>
    have hcut := ih fun l' hl' => hls l' (List.mem_cons_of_mem l hl')
    rw [List.flatten_cons, List.append_assoc, cut_line_append (hls l List.mem_cons_self), hcut]

theorem cut_spec (bs : Bytes) :
    (lines bs).flatten ++ unterminated bs = bs ∧ (∀ l ∈ lines bs, IsLine l) ∧
      terminator ∉ unterminated bs := by
  unfold lines unterminated
  induction bs with
  | nil => simp [cut]
  | cons b bs ih =>
    obtain ⟨hbs, hls, hrest⟩ := ih
    by_cases hb : b = terminator
    · -- the first byte is a line of its own
      refine ⟨by simp [cut, hb, hbs], ?_, by simpa [cut, hb] using hrest⟩
      intro l hl
      simp only [cut, hb, if_true, List.mem_cons] at hl
      rcases hl with rfl | hl
      · exact ⟨[], List.not_mem_nil, rfl⟩
      · exact hls l hl
    · rw [cut, if_neg hb]
      -- the first byte begins whatever comes first in the rest
      rcases hcut : cut bs with ⟨_ | ⟨l, ls⟩, rest⟩
      · rw [hcut] at hbs hrest
        refine ⟨by simpa using hbs, by simp, ?_⟩
        simpa [Ne.symm hb] using hrest
      · rw [hcut] at hbs hls hrest
        refine ⟨by simpa using hbs, ?_, hrest⟩
        intro l' hl'
        rcases List.mem_cons.mp hl' with rfl | hl'
        · obtain ⟨body, hbody, rfl⟩ := hls l List.mem_cons_self
          exact ⟨b :: body, by simpa [Ne.symm hb] using hbody, rfl⟩
        · exact hls l' (List.mem_cons_of_mem l hl')

/-- **A stream is cut in one way only**: its lines are the only ones that, followed by something
without a terminator, make up the stream. -/
theorem cut_eq_iff {bs rest : Bytes} {ls : List Bytes} :
    cut bs = (ls, rest) ↔
      bs = ls.flatten ++ rest ∧ (∀ l ∈ ls, IsLine l) ∧ terminator ∉ rest := by
  constructor
  · intro h
    have hspec := cut_spec bs
    rw [lines, unterminated, h] at hspec
    exact ⟨hspec.1.symm, hspec.2⟩
  · rintro ⟨rfl, hls, hrest⟩
    exact cut_flatten_append hls hrest

theorem lines_eq {bs rest : Bytes} {ls : List Bytes} (h : bs = ls.flatten ++ rest)
    (hls : ∀ l ∈ ls, IsLine l) (hrest : terminator ∉ rest) :
    lines bs = ls ∧ unterminated bs = rest := by
  have hcut := cut_eq_iff.mpr ⟨h, hls, hrest⟩
  exact ⟨congrArg Prod.fst hcut, congrArg Prod.snd hcut⟩

/-- A line is the only line of itself. -/
theorem IsLine.lines_eq {l : Bytes} (h : IsLine l) : lines l = [l] ∧ unterminated l = [] :=
  Bytes.lines_eq (by simp) (by simpa using h) List.not_mem_nil

/-- A terminator at the end of a stream makes one more line of what was none. -/
theorem lines_append_terminator (bs : Bytes) :
    lines (bs ++ [terminator]) = lines bs ++ [unterminated bs ++ [terminator]] ∧
      unterminated (bs ++ [terminator]) = [] := by
  obtain ⟨heq, hls, hrest⟩ := cut_spec bs
  refine Bytes.lines_eq ?_ ?_ List.not_mem_nil
  · rw [List.append_nil, List.flatten_append, List.flatten_singleton, ← List.append_assoc, heq]
  · intro l hl
    rcases List.mem_append.mp hl with hl | hl
    · exact hls l hl
    · exact ⟨unterminated bs, hrest, List.mem_singleton.mp hl⟩

/-- Lines at the front of a stream are the first lines of the stream. -/
theorem lines_flatten_append {ls : List Bytes} (hls : ∀ l ∈ ls, IsLine l) (bs : Bytes) :
    lines (ls.flatten ++ bs) = ls ++ lines bs := by
  induction ls with
  | nil => rfl
  | cons l ls ih =>
    have hlines := ih fun l' hl' => hls l' (List.mem_cons_of_mem l hl')
    rw [List.flatten_cons, List.append_assoc, lines, cut_line_append (hls l List.mem_cons_self)]
    simpa [lines] using hlines

/-! ### The first line -/

theorem splitLine?_eq_none_iff {bs : Bytes} : splitLine? bs = none ↔ terminator ∉ bs := by
  unfold splitLine?
  constructor
  · intro h
    split at h
    · next hdrop =>
      intro hmem
      have := List.dropWhile_eq_nil_iff.mp hdrop terminator hmem
      simp at this
    · cases h
  · intro h
    have hdrop : bs.dropWhile (· != terminator) = [] := by
      rw [List.dropWhile_eq_nil_iff]
      intro b hb
      simp only [bne_iff_ne, ne_eq]
      rintro rfl
      exact h hb
    rw [hdrop]

/-- What is split off is a line, and the first one. -/
theorem isLine_of_splitLine?_eq_some {bs l rest : Bytes} (h : splitLine? bs = some (l, rest)) :
    IsLine l := by
  unfold splitLine? at h
  split at h
  · cases h
  · next t tail hdrop =>
    cases h
    have hne : bs.dropWhile (· != terminator) ≠ [] := by simp [hdrop]
    have ht := List.head_dropWhile_not (· != terminator) hne
    simp only [hdrop, List.head_cons, bne_eq_false_iff_eq] at ht
    refine ⟨bs.takeWhile (· != terminator), ?_, by rw [ht]⟩
    intro hmem
    have := List.mem_takeWhile_imp hmem
    simp at this

end CommandLog.Bytes
