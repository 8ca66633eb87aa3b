import CommandLog.Journal.Scan
import Mathlib.Algebra.Group.Nat.Defs

/-!
# What a journal reads back as

Reading undoes writing, one record at a time and for whole journals.

* `CommandLog.Journal.Record.wrapped` – a record as it is read back: its number is stored in eight
  bytes;
* `CommandLog.Journal.Head.bytes` and `CommandLog.Journal.Head.of_bytes_append` – three fields in
  front of a payload, and what is made of them;
* `CommandLog.Journal.Head.of_encode_append` – **an encoded record at the front is found**;
* `CommandLog.Journal.scan_encodeRecords_append` – records in a row are read one by one;
* `CommandLog.Journal.parse_encode` – **a journal reads back as the payloads it was made of**;
* `CommandLog.Journal.encode_append_singleton` – a record at the end of a journal makes a journal.
-/

namespace CommandLog

/-! ### Integers -/

theorem LittleEndian.decode_encode_mod (width n : Nat) :
    LittleEndian.decode (LittleEndian.encode width n) = n % LittleEndian.bound width := by
  induction width generalizing n with
  | zero => simp [LittleEndian.encode, LittleEndian.decode, LittleEndian.bound, Nat.mod_one]
  | succ w ih =>
    have hlow : (UInt8.ofNat (n % 256)).toNat = n % 256 := by simp [UInt8.toNat_ofNat']
    simp only [LittleEndian.encode, LittleEndian.decode, LittleEndian.bound, ih, hlow]
    rw [Nat.mod_mul]

/-- What is stored of a number is stored of what it reads back as. -/
theorem LittleEndian.encode_decode_encode (width n : Nat) :
    LittleEndian.encode width (LittleEndian.decode (LittleEndian.encode width n)) =
      LittleEndian.encode width n := by
  have h := LittleEndian.encode_decode (LittleEndian.encode width n)
  rwa [LittleEndian.length_encode] at h

namespace Journal

variable {r : Record} {rs : List Record} {ps : List Bytes} {p : Bytes}

/-! ### One record -/

/-- A record as it is read back. -/
def Record.wrapped (r : Record) : Record :=
  { r with seq := r.seq % 2 ^ 64 }

@[simp] theorem Record.payload_wrapped (r : Record) : r.wrapped.payload = r.payload := rfl

/-- The bytes of the three fields in front of a payload. -/
def Head.bytes (seq length : Nat) (stored : UInt64) : Bytes :=
  LittleEndian.encode 8 seq ++ LittleEndian.encode 4 length ++
    LittleEndian.encode 8 stored.toNat

@[simp] theorem Head.length_bytes (seq length : Nat) (stored : UInt64) :
    (Head.bytes seq length stored).length = Record.headSize := by
  simp [Head.bytes, Record.headSize]

/-- The part of a record in front of its payload. -/
def Record.head (r : Record) : Bytes :=
  Head.bytes r.seq r.payload.length (Record.checksum r.seq r.payload)

theorem Record.encode_eq (r : Record) : r.encode = r.head ++ r.payload := rfl

@[simp] theorem Record.length_head (r : Record) : r.head.length = Record.headSize :=
  Head.length_bytes _ _ _

theorem Record.length_encode (r : Record) :
    r.encode.length = Record.headSize + r.payload.length := by
  rw [r.encode_eq, List.length_append, r.length_head]

theorem Record.encode_ne_nil (r : Record) : r.encode ≠ [] := by
  intro h
  have hlen := congrArg List.length h
  simp [Record.encode_eq, Record.headSize] at hlen

/-- **Three fields that were written are read back.** -/
theorem Head.fields_bytes {length : Nat} (hlength : length < LittleEndian.bound 4) (seq : Nat)
    (stored : UInt64) :
    Head.fields (Head.bytes seq length stored) = (seq % 2 ^ 64, length, stored) := by
  have hsum : stored.toNat < LittleEndian.bound 8 := stored.toNat_lt
  have hseq : (Head.bytes seq length stored).take 8 = LittleEndian.encode 8 seq := by
    rw [Head.bytes, List.append_assoc]
    exact List.take_left' (LittleEndian.length_encode 8 _)
  -- the fields are cut out one after the other
  have hrest : (Head.bytes seq length stored).drop 8 =
      LittleEndian.encode 4 length ++ LittleEndian.encode 8 stored.toNat := by
    rw [Head.bytes, List.append_assoc]
    exact List.drop_left' (LittleEndian.length_encode 8 _)
  have hsize : ((Head.bytes seq length stored).drop 8).take 4 = LittleEndian.encode 4 length := by
    rw [hrest]
    exact List.take_left' (LittleEndian.length_encode 4 _)
  have hcheck : ((Head.bytes seq length stored).drop 12).take 8 =
      LittleEndian.encode 8 stored.toNat := by
    have hdrop : (Head.bytes seq length stored).drop 12 =
        ((Head.bytes seq length stored).drop 8).drop 4 := by rw [List.drop_drop]
    rw [hdrop, hrest, List.drop_left' (LittleEndian.length_encode 4 _)]
    exact List.take_of_length_le (Nat.le_of_eq (LittleEndian.length_encode 8 _))
  rw [Head.fields, hseq, hsize, hcheck, LittleEndian.decode_encode hlength,
    LittleEndian.decode_encode hsum, LittleEndian.decode_encode_mod, UInt64.ofNat_toNat]
  rfl

/-- A checksum does not see more of a number than is stored of it. -/
theorem Record.checksum_mod (seq : Nat) (payload : Bytes) :
    Record.checksum (seq % 2 ^ 64) payload = Record.checksum seq payload := by
  have hseq : LittleEndian.encode 8 (seq % 2 ^ 64) = LittleEndian.encode 8 seq := by
    have h := LittleEndian.encode_decode_encode 8 seq
    rwa [LittleEndian.decode_encode_mod] at h
  rw [Record.checksum, Record.checksum, hseq]

/-- **What is written of a record** depends on what is stored of its number. -/
theorem Record.encode_congr {m n : Nat} (h : m % 2 ^ 64 = n % 2 ^ 64) (payload : Bytes) :
    Record.encode { seq := m, payload } = Record.encode { seq := n, payload } := by
  have hseq : LittleEndian.encode 8 m = LittleEndian.encode 8 n := by
    have hm := LittleEndian.encode_decode_encode 8 m
    have hn := LittleEndian.encode_decode_encode 8 n
    rw [LittleEndian.decode_encode_mod] at hm hn
    rw [← hm, ← hn]
    exact congrArg (LittleEndian.encode 8) h
  have hsum : Record.checksum m payload = Record.checksum n payload := by
    rw [← Record.checksum_mod, h, Record.checksum_mod]
  simp only [Record.encode, hseq, hsum]

/-- **Three fields and a payload at the front** are a record or not, by the checksum alone. -/
theorem Head.of_bytes_append (hfits : fits p = true) (seq : Nat) (stored : UInt64) (rest : Bytes) :
    Head.of (Head.bytes seq p.length stored ++ (p ++ rest)) =
      if Record.checksum seq p = stored then .record { seq := seq % 2 ^ 64, payload := p } rest
      else .corrupt (seq % 2 ^ 64) stored (Record.checksum seq p) := by
  have hne : (Head.bytes seq p.length stored ++ (p ++ rest)).isEmpty = false := by
    rw [List.isEmpty_eq_false_iff, ← List.length_pos_iff, List.length_append, Head.length_bytes]
    exact Nat.lt_of_lt_of_le (by decide) (Nat.le_add_right _ _)
  have hhead : (Head.bytes seq p.length stored ++ (p ++ rest)).takeExactly? Record.headSize =
      some (Head.bytes seq p.length stored, p ++ rest) :=
    Bytes.takeExactly?_eq_some_iff.mpr ⟨Head.length_bytes _ _ _, rfl⟩
  have hpayload : Bytes.takeExactly? p.length (p ++ rest) = some (p, rest) :=
    Bytes.takeExactly?_eq_some_iff.mpr ⟨rfl, rfl⟩
  simp only [Head.of, hne, hhead, Head.fields_bytes (of_decide_eq_true hfits), hpayload,
    Record.checksum_mod]
  rfl

/-- **An encoded record at the front is found**, and so is what follows it. -/
theorem Head.of_encode_append (hfits : fits r.payload = true) (rest : Bytes) :
    Head.of (r.encode ++ rest) = .record r.wrapped rest := by
  rw [r.encode_eq, List.append_assoc, Record.head, Head.of_bytes_append hfits, if_pos rfl]
  rfl

/-! ### Records in a row -/

/-- Number of bytes of some records. -/
def recordBytes (rs : List Record) : Nat :=
  (encodeRecords rs).length

theorem encodeRecords_cons (r : Record) (rs : List Record) :
    encodeRecords (r :: rs) = r.encode ++ encodeRecords rs := rfl

theorem recordBytes_cons (r : Record) (rs : List Record) :
    recordBytes (r :: rs) = Record.headSize + r.payload.length + recordBytes rs := by
  rw [recordBytes, encodeRecords_cons, List.length_append, r.length_encode, recordBytes]

theorem encodeRecords_append (rs rs' : List Record) :
    encodeRecords (rs ++ rs') = encodeRecords rs ++ encodeRecords rs' := by
  simp [encodeRecords]

/-- **What is read depends on the head**, one record at a time. -/
theorem scan_eq (position : Nat) (bs : Bytes) :
    scan position bs =
      match Head.of bs with
      | .finished => { records := [], failure := none }
      | .torn => { records := [], failure := some (.truncated position) }
      | .corrupt seq expected found =>
        { records := [], failure := some (.checksumMismatch seq expected found) }
      | .record r rest =>
        { scan (position + Record.headSize + r.payload.length) rest with
          records := r :: (scan (position + Record.headSize + r.payload.length) rest).records } := by
  rw [scan]
  split
  all_goals next h => rw [h]

/-- **Records in a row are read one by one**, and then what follows them. -/
theorem scan_encodeRecords_append (hfits : ∀ r ∈ rs, fits r.payload = true) (position : Nat)
    (tail : Bytes) :
    scan position (encodeRecords rs ++ tail) =
      { scan (position + recordBytes rs) tail with
        records := rs.map Record.wrapped ++ (scan (position + recordBytes rs) tail).records } := by
  induction rs generalizing position with
  | nil => simp [encodeRecords, recordBytes]
  | cons r rs ih =>
    have hposition : position + Record.headSize + r.wrapped.payload.length + recordBytes rs =
        position + recordBytes (r :: rs) := by
      rw [recordBytes_cons, Record.payload_wrapped]
      omega
    have hlater := ih (fun r' hr' => hfits r' (List.mem_cons_of_mem r hr'))
    rw [encodeRecords_cons, List.append_assoc, scan_eq,
      Head.of_encode_append (hfits r List.mem_cons_self)]
    simp only [hlater, hposition]
    rfl

/-! ### Whole journals -/

theorem Header.length_encode_default : ({} : Header).encode.length = Header.size := rfl

theorem Header.read_encode_append (rest : Bytes) :
    Header.read (({} : Header).encode ++ rest) = (.ok {}, rest) := rfl

/-- **What stands behind a header is read**, from there on. -/
theorem parse_header_append (rest : Bytes) :
    parse (({} : Header).encode ++ rest) = .ok (scan Header.size rest) := by
  rw [parse, Header.read_encode_append]

theorem numbered_append (first : Nat) (ps qs : List Bytes) :
    numbered first (ps ++ qs) = numbered first ps ++ numbered (first + ps.length) qs := by
  induction ps generalizing first with
  | nil => simp [numbered]
  | cons p ps ih => simp [numbered, ih, Nat.add_assoc, Nat.add_comm 1]

@[simp] theorem map_payload_numbered (first : Nat) (ps : List Bytes) :
    (numbered first ps).map Record.payload = ps := by
  induction ps generalizing first with
  | nil => rfl
  | cons p ps ih => simp [numbered, ih]

@[simp] theorem map_seq_numbered (first : Nat) (ps : List Bytes) :
    (numbered first ps).map Record.seq = List.range' first ps.length := by
  induction ps generalizing first with
  | nil => rfl
  | cons p ps ih => simp [numbered, ih, List.range'_succ]

theorem getElem?_numbered (first : Nat) (ps : List Bytes) (n : Nat) :
    (numbered first ps)[n]? = ps[n]?.map fun p => { seq := first + n, payload := p } := by
  induction ps generalizing first n with
  | nil => rfl
  | cons p ps ih =>
    rcases n with _ | n
    · rfl
    · simp [numbered, ih, Nat.add_assoc, Nat.add_comm 1]

theorem fits_of_mem_numbered {first : Nat} (hfits : ∀ p ∈ ps, fits p = true)
    (hr : r ∈ numbered first ps) : fits r.payload = true := by
  refine hfits r.payload ?_
  rw [← map_payload_numbered first ps]
  exact List.mem_map_of_mem hr

/-- **A record at the end of a journal makes a journal**, if it has the next number. -/
theorem encode_append_singleton (ps : List Bytes) (p : Bytes) :
    encode (ps ++ [p]) = encode ps ++ Record.encode { seq := ps.length, payload := p } := by
  rw [encode, encode, numbered_append, encodeRecords_append, Nat.zero_add, List.append_assoc]
  simp [numbered, encodeRecords]

/-- A journal without records is a header. -/
theorem encode_nil : encode [] = ({} : Header).encode :=
  List.append_nil _

theorem encode_ne_nil (ps : List Bytes) : encode ps ≠ [] := by
  intro h
  have hhead := (List.append_eq_nil_iff.mp h).1
  cases hhead

/-- What some payloads read back as. -/
def Contents.of (ps : List Bytes) (failure : Option Error) : Contents where
  records := (numbered 0 ps).map Record.wrapped
  failure

@[simp] theorem Contents.payloads_of (ps : List Bytes) (failure : Option Error) :
    (Contents.of ps failure).payloads = ps := by
  have hmap : Record.payload ∘ Record.wrapped = Record.payload := rfl
  rw [Contents.payloads, Contents.of, List.map_map, hmap, map_payload_numbered]

@[simp] theorem Contents.map_entry_of (ps : List Bytes) (failure : Option Error) :
    (Contents.of ps failure).records.map Record.entry = ps.map Entry.mk := by
  have hmap : Record.entry ∘ Record.wrapped = Entry.mk ∘ Record.payload := rfl
  rw [Contents.of, List.map_map, hmap, ← List.map_map, map_payload_numbered]

theorem Contents.map_seq_of (ps : List Bytes) (failure : Option Error) :
    (Contents.of ps failure).records.map Record.seq =
      (List.range ps.length).map (· % 2 ^ 64) := by
  have hmap : Record.seq ∘ Record.wrapped = (· % 2 ^ 64) ∘ Record.seq := rfl
  rw [Contents.of, List.map_map, hmap, ← List.map_map, map_seq_numbered, List.range_eq_range']

/-- The number after that of a last record. -/
theorem Contents.nextSeq_of_append (ps : List Bytes) (p : Bytes) (failure : Option Error) :
    (Contents.of (ps ++ [p]) failure).nextSeq = ps.length % 2 ^ 64 + 1 := by
  have hlast : (Contents.of (ps ++ [p]) failure).records.getLast? =
      some (Record.wrapped { seq := ps.length, payload := p }) := by
    simp [Contents.of, numbered_append, numbered]
  rw [Contents.nextSeq, hlast]
  rfl

theorem parse_encode_append (hfits : ∀ p ∈ ps, fits p = true) (tail : Bytes) :
    ∃ position, parse (encode ps ++ tail) =
      .ok { scan position tail with
        records := (numbered 0 ps).map Record.wrapped ++ (scan position tail).records } := by
  refine ⟨Header.size + recordBytes (numbered 0 ps), ?_⟩
  rw [encode, List.append_assoc, parse_header_append]
  exact congrArg Except.ok
    (scan_encodeRecords_append (fun r hr => fits_of_mem_numbered hfits hr) _ tail)

/-- **A journal reads back as the payloads it was made of.** -/
theorem parse_encode (hfits : ∀ p ∈ ps, fits p = true) :
    parse (encode ps) = .ok (Contents.of ps none) := by
  obtain ⟨position, hparse⟩ := parse_encode_append hfits []
  have hfinished : scan position [] = { records := [], failure := none } := scan_eq position []
  rw [List.append_nil, hfinished, List.append_nil] at hparse
  exact hparse

end Journal

end CommandLog
