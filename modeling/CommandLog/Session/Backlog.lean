import CommandLog.Bytes

/-!
# The backlog of a session

Input arrives in pieces that have nothing to do with lines. A backlog holds what has arrived and
has not been taken out as a complete line yet.

* `CommandLog.Backlog` – the bytes that are known to hold no terminator, the bytes that have not
  been looked at, and whether input is being skipped;
* `CommandLog.Backlog.bytes` – **the view**: all bytes held, in the order of their arrival;
* `CommandLog.Backlog.ingest` – one more piece of input. While input is skipped, everything up
  to the next terminator is dropped;
* `CommandLog.Backlog.next` – the first complete line, or the fact that there is none;
* `CommandLog.Backlog.abort` – drops the unfinished line and skips the rest of it;
* `CommandLog.Backlog.ingestWithin` – one more piece of input when memory for it may be refused, of
  which `CommandLog.Backlog.ingest` is the case in which it is not
  (`CommandLog.Backlog.ingestWithin_of_granted`).

Every byte is looked at once and moved once, however small the pieces are: the part without a
terminator is kept newest byte first, together with its length.
-/

namespace CommandLog

/-- Input that has arrived and is not dealt with yet. -/
structure Backlog where
  /-- The beginning of the unfinished line, newest byte first; it holds no terminator. -/
  scanned : Bytes := []
  /-- Number of scanned bytes. -/
  scannedSize : Nat := 0
  /-- Bytes behind the scanned ones that have not been looked at. -/
  fresh : Bytes := []
  /-- Whether input is skipped up to the next terminator. -/
  discarding : Bool := false
  /-- The length is the length. -/
  scannedSize_eq : scannedSize = scanned.length := by simp
deriving Repr

namespace Backlog

/-- The backlog before anything has arrived. -/
def empty : Backlog where

instance : Inhabited Backlog := ⟨empty⟩

/-- **All bytes held**, in the order of their arrival. -/
def bytes (b : Backlog) : Bytes :=
  b.scanned.reverse ++ b.fresh

/-- Number of bytes held. -/
def size (b : Backlog) : Nat :=
  b.scannedSize + b.fresh.length

/-- One more piece of input. -/
def ingest (b : Backlog) (piece : Bytes) : Backlog :=
  if b.discarding then
    match piece.splitLine? with
    | none => b
    | some (_, rest) => { b with fresh := b.fresh ++ rest, discarding := false }
  else
    { b with fresh := b.fresh ++ piece }

/-- What a backlog begins with. -/
inductive Next where
  /-- A complete line, terminator included, and the backlog without it. -/
  | line (line : Bytes) (rest : Backlog)
  /-- No complete line; the backlog with everything looked at. -/
  | unfinished (b : Backlog)

/-- **The first complete line**, if there is one. -/
def next (b : Backlog) : Next :=
  match b.fresh.splitLine? with
  | some (line, rest) =>
    .line (b.scanned.reverseAux line) { fresh := rest, discarding := b.discarding }
  | none =>
    .unfinished
      { b with
        scanned := b.fresh.reverseAux b.scanned
        scannedSize := b.scannedSize + b.fresh.length
        fresh := []
        scannedSize_eq := by
          simp [List.reverseAux_eq, b.scannedSize_eq, Nat.add_comm] }

/-- Drops everything held and skips the rest of the line. -/
def abort : Backlog where
  discarding := true

/-- A piece of input kept, if memory for that many bytes is granted. If it is not, the unfinished
line is dropped together with the rest of it, and what follows is tried again by itself. With the
number of lines dropped. -/
def keepWithin (grants : Nat → Bool) (b : Backlog) (piece : Bytes) : Nat × Backlog :=
  if grants piece.length then (0, { b with fresh := b.fresh ++ piece })
  else
    match _h : piece.splitLine? with
    | none => (1, abort)
    | some (_, rest) =>
      let (n, b) := keepWithin grants empty rest
      (n + 1, b)
termination_by piece.length
decreasing_by
  obtain ⟨hpiece, hline⟩ := Bytes.eq_append_of_splitLine?_eq_some _h
  rw [hpiece, List.length_append]
  omega

/-- **One more piece of input when memory may be refused**, with the number of lines dropped for
that. While input is skipped, everything up to the next terminator is dropped first. -/
def ingestWithin (grants : Nat → Bool) (b : Backlog) (piece : Bytes) : Nat × Backlog :=
  if b.discarding then
    match piece.splitLine? with
    | none => (0, b)
    | some (_, rest) => keepWithin grants { b with discarding := false } rest
  else keepWithin grants b piece

/-! ### Laws -/

/-- With all memory granted a piece of input is kept. -/
theorem ingestWithin_of_granted (b : Backlog) (piece : Bytes) :
    b.ingestWithin (fun _ => true) piece = (0, b.ingest piece) := by
  unfold ingestWithin ingest
  split
  · split
    · rfl
    · rw [keepWithin, if_pos rfl]
  · rw [keepWithin, if_pos rfl]

theorem size_eq_length_bytes (b : Backlog) : b.size = b.bytes.length := by
  simp [size, bytes, b.scannedSize_eq]

/-- A line that is taken out leaves less behind. -/
theorem size_lt_of_next_eq_line {b rest : Backlog} {line : Bytes}
    (h : b.next = .line line rest) : rest.size < b.size := by
  unfold next at h
  split at h
  · next hsplit =>
    obtain ⟨hfresh, hline⟩ := Bytes.eq_append_of_splitLine?_eq_some hsplit
    cases h
    simp only [size, hfresh, List.length_append]
    omega
  · cases h

/-- Looking for a line takes nothing away when there is none. -/
theorem size_eq_of_next_eq_unfinished {b b' : Backlog} (h : b.next = .unfinished b') :
    b'.size = b.size := by
  unfold next at h
  split at h
  · cases h
  · cases h
    simp [size]

@[simp] theorem size_abort : abort.size = 0 := rfl

/-- A piece of input adds no more than its own length. -/
theorem size_ingest_le (b : Backlog) (piece : Bytes) :
    (b.ingest piece).size ≤ b.size + piece.length := by
  unfold ingest
  split
  · split
    · omega
    · next hsplit =>
      obtain ⟨hpiece, -⟩ := Bytes.eq_append_of_splitLine?_eq_some hsplit
      simp only [size, hpiece, List.length_append]
      omega
  · simp [size, Nat.add_assoc]

theorem size_keepWithin_le (grants : Nat → Bool) (b : Backlog) (piece : Bytes) :
    (b.keepWithin grants piece).2.size ≤ b.size + piece.length := by
  fun_induction keepWithin grants b piece with
  | case1 b piece => simp [size, Nat.add_assoc]
  | case2 b piece => exact Nat.zero_le _
  | case3 b piece hrefused line rest hsplit n b' heq ih =>
    obtain ⟨hpiece, -⟩ := Bytes.eq_append_of_splitLine?_eq_some hsplit
    have hempty : empty.size = 0 := rfl
    rw [heq, hempty] at ih
    rw [hpiece, List.length_append]
    exact Nat.le_trans ih (by omega)

/-- Memory that is refused adds nothing. -/
theorem size_ingestWithin_le (grants : Nat → Bool) (b : Backlog) (piece : Bytes) :
    (b.ingestWithin grants piece).2.size ≤ b.size + piece.length := by
  unfold ingestWithin
  split
  · split
    · exact Nat.le_add_right _ _
    · next rest hsplit =>
      obtain ⟨hpiece, -⟩ := Bytes.eq_append_of_splitLine?_eq_some hsplit
      have hkept := size_keepWithin_le grants { b with discarding := false } rest
      have hsame : ({ b with discarding := false } : Backlog).size = b.size := rfl
      rw [hsame] at hkept
      rw [hpiece, List.length_append]
      omega
  · exact size_keepWithin_le grants b piece

end Backlog

end CommandLog
