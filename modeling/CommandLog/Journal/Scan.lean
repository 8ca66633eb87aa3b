import CommandLog.Journal.Format
import CommandLog.Total

/-!
# Reading a journal

What follows the header is read record by record. The bytes that are still to be read are
classified by what stands at their front (`CommandLog.Journal.Head`): nothing, an intact record,
a record whose checksum is wrong, or a record that the file does not hold completely. Reading
goes on after an intact record and stops at everything else.

* `CommandLog.Journal.Head.of` – the classification;
* `CommandLog.Journal.scan` – **the records up to the first one that cannot be read**, and why
  reading stopped there, if it did;
* `CommandLog.Journal.parse` – a whole journal, header included.
-/

namespace CommandLog.Journal

/-- What stands at the front of the unread part of a journal. -/
inductive Head where
  /-- Nothing: the journal ends on a record boundary. -/
  | finished
  /-- The beginning of a record that is not there completely. -/
  | torn
  /-- A complete record whose stored checksum is not the one of its contents. -/
  | corrupt (seq : Nat) (expected found : UInt64)
  /-- An intact record, and what follows it. -/
  | record (r : Record) (rest : Bytes)

/-- The three fields in front of a payload: sequence number, payload length and checksum. -/
def Head.fields (bs : Bytes) : Nat × Nat × UInt64 :=
  (LittleEndian.decode (bs.take 8), LittleEndian.decode ((bs.drop 8).take 4),
    UInt64.ofNat (LittleEndian.decode ((bs.drop 12).take 8)))

/-- **What stands at the front of a byte string.** -/
def Head.of (bs : Bytes) : Head :=
  if bs.isEmpty then .finished
  else
    match bs.takeExactly? Record.headSize with
    | none => .torn
    | some (front, rest) =>
      let (seq, length, expected) := Head.fields front
      match rest.takeExactly? length with
      | none => .torn
      | some (payload, rest) =>
        let found := Record.checksum seq payload
        if found = expected then .record { seq, payload } rest
        else .corrupt seq expected found

/-- An intact record is followed by less than what it was found in. -/
theorem Head.length_lt_of_eq_record {bs rest : Bytes} {r : Record}
    (h : Head.of bs = .record r rest) : rest.length < bs.length := by
  unfold Head.of at h
  split at h
  · cases h
  · split at h
    · cases h
    · next front tail hfront =>
      obtain ⟨hlen, rfl⟩ := Bytes.takeExactly?_eq_some_iff.1 hfront
      simp only at h
      split at h
      · cases h
      · next payload rest' hpayload =>
        obtain ⟨-, rfl⟩ := Bytes.takeExactly?_eq_some_iff.1 hpayload
        split at h
        · cases h
          simp only [List.length_append, Record.headSize] at hlen ⊢
          omega
        · cases h

/-- What a journal holds. -/
structure Contents where
  /-- The records up to the first one that cannot be read. -/
  records : List Record
  /-- Why reading stopped before the end, if it did. -/
  failure : Option Error
deriving DecidableEq, Repr, Inhabited

/-- **The records at the front of a byte string** that starts at the given byte of the file. -/
def scan (position : Nat) (bs : Bytes) : Contents :=
  match _h : Head.of bs with
  | .finished => { records := [], failure := none }
  | .torn => { records := [], failure := some (.truncated position) }
  | .corrupt seq expected found =>
    { records := [], failure := some (.checksumMismatch seq expected found) }
  | .record r rest =>
    let later := scan (position + Record.headSize + r.payload.length) rest
    { later with records := r :: later.records }
termination_by bs.length
decreasing_by exact Head.length_lt_of_eq_record _h

/-- A whole journal: refused when its header is, and otherwise read up to the first record that
cannot be read. -/
def parse (bs : Bytes) : Except Error Contents :=
  match Header.read bs with
  | (.error e, _) => .error e
  | (.ok _, rest) => .ok (scan Header.size rest)

/-- The payloads of all records. -/
def Contents.payloads (c : Contents) : List Bytes :=
  c.records.map Record.payload

/-- Total number of payload bytes. -/
def Contents.totalBytes (c : Contents) : Nat :=
  total (c.payloads.map List.length)

/-- The number that the next record gets: one more than the last, or zero without records. -/
def Contents.nextSeq (c : Contents) : Nat :=
  match c.records.getLast? with
  | none => 0
  | some r => r.seq + 1

end CommandLog.Journal
