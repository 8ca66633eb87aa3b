import CommandLog.Journal.Reader
import CommandLog.Proofs.Journal.File
import CommandLog.Proofs.Journal.Partition

/-!
# A reader accepts exactly the format

Reading record by record comes to the same as reading a journal at once, and both accept exactly
what was written, on any bytes.

* `CommandLog.Journal.Reader.readRecord_eq` – a record read field by field is what stands in front;
* `CommandLog.Journal.Reader.nth_eq` – **what the calls give**: the records, then the failure if
  there is one, and nothing after that;
* `CommandLog.Journal.Reader.reads_format` – **a reader accepts exactly the format**: what it can
  be opened on, what it gives, and what is left where it stops.

The fields are read one after the other, so a record may be found to be torn at four places. They
come down to one condition, because the length field says how long the record is as soon as it is
there.
-/

namespace CommandLog.Journal

variable {d : Disk} {path : Path} {bs rest : Bytes}

namespace Reader

/-! ### One record -/

theorem exactly_append (start : Nat) (front rest : Bytes) {n : Nat} (h : front.length = n) :
    exactly start n (front ++ rest) = .ok (front, rest) := by
  rw [exactly, Bytes.takeExactly?_eq_some_iff.mpr ⟨h, rfl⟩]

/-- What can be read are so many bytes, and what follows them. -/
theorem eq_append_of_exactly {start n : Nat} {input front : Bytes}
    (h : exactly start n input = .ok (front, rest)) : front.length = n ∧ input = front ++ rest := by
  rw [exactly] at h
  split at h
  · exact absurd h (by simp)
  · next hparts => exact Bytes.takeExactly?_eq_some_iff.mp (hparts.trans (by simpa using h))

theorem exactly_error {start n : Nat} {input : Bytes} {e : Error}
    (h : exactly start n input = .error e) : e = .truncated start := by
  rw [exactly] at h
  split at h
  · exact (Except.error.inj h).symm
  · exact absurd h (by simp)

/-- Where the four fields of a record are read, there are not too few bytes. -/
theorem not_short_of_fields {seq length stored payload : Bytes} (hseq : seq.length = 8)
    (hlength : length.length = 4) (hstored : stored.length = 8)
    (hpayload : payload.length = LittleEndian.decode length) (rest : Bytes) :
    ¬Head.Short (seq ++ (length ++ (stored ++ (payload ++ rest)))) := by
  have hfield : Head.lengthField (seq ++ (length ++ (stored ++ (payload ++ rest)))) =
      LittleEndian.decode length := by
    rw [Head.lengthField, List.drop_left' hseq, List.take_left' hlength]
  rw [Head.Short, hfield]
  simp only [List.length_append, Record.headSize]
  omega

/-- **A torn record is found to be torn**, at whichever field. -/
theorem readRecord_of_short {r : Reader} (hne : r.unread ≠ []) (hshort : Head.Short r.unread) :
    r.readRecord = .error (.truncated r.position) := by
  rw [readRecord, if_neg (by simpa using hne)]
  split
  · next h => rw [exactly_error h]
  · next h₁ =>
    obtain ⟨hseq, hunread⟩ := eq_append_of_exactly h₁
    split
    · next h => rw [exactly_error h]
    · next h₂ =>
      obtain ⟨hlength, rfl⟩ := eq_append_of_exactly h₂
      split
      · next h => rw [exactly_error h]
      · next h₃ =>
        obtain ⟨hstored, rfl⟩ := eq_append_of_exactly h₃
        split
        · next h => rw [exactly_error h]
        · next h₄ =>
          -- all four have been read, so nothing was missing
          obtain ⟨hpayload, rfl⟩ := eq_append_of_exactly h₄
          rw [hunread] at hshort
          exact absurd hshort (not_short_of_fields hseq hlength hstored hpayload _)

/-- **A record that is there** is read field by field, and kept or refused by its checksum. -/
theorem readRecord_of_bytes {r : Reader} {seq : Nat} {stored : UInt64} {payload : Bytes}
    (hseq : seq < 2 ^ 64) (hfits : fits payload = true)
    (hunread : r.unread = Head.bytes seq payload.length stored ++ (payload ++ rest)) :
    r.readRecord =
      if Record.checksum seq payload = stored then .ok (some ({ seq, payload }, rest))
      else .error (.checksumMismatch seq stored (Record.checksum seq payload)) := by
  have hne : r.unread.isEmpty = false := by
    simp [hunread, Head.bytes, LittleEndian.encode]
  have hsize : payload.length < LittleEndian.bound 4 := of_decide_eq_true hfits
  have hnumber : seq < LittleEndian.bound 8 := hseq
  have hsum : stored.toNat < LittleEndian.bound 8 := stored.toNat_lt
  have hfields : r.unread = LittleEndian.encode 8 seq ++ (LittleEndian.encode 4 payload.length ++
      (LittleEndian.encode 8 stored.toNat ++ (payload ++ rest))) := by
    rw [hunread, Head.bytes, List.append_assoc, List.append_assoc]
  rw [readRecord, hne, hfields]
  simp only [Bool.false_eq_true, if_false, exactly_append _ _ _ (LittleEndian.length_encode _ _),
    LittleEndian.decode_encode hsize, LittleEndian.decode_encode hnumber,
    LittleEndian.decode_encode hsum, exactly_append _ payload rest rfl, UInt64.ofNat_toNat]

/-- **A record read field by field** is what stands in front. -/
theorem readRecord_eq (r : Reader) :
    r.readRecord =
      match Head.of r.unread with
      | .finished => .ok none
      | .torn => .error (.truncated r.position)
      | .corrupt seq expected found => .error (.checksumMismatch seq expected found)
      | .record record rest => .ok (some (record, rest)) := by
  rcases eq_or_ne r.unread [] with hnil | hne
  · rw [hnil, Head.of_nil, readRecord, hnil]
    rfl
  · by_cases hshort : Head.Short r.unread
    · rw [Head.of_short hne hshort, readRecord_of_short hne hshort]
    · obtain ⟨seq, stored, payload, rest, hseq, hfits, hunread⟩ := Head.of_not_short hshort
      rw [readRecord_of_bytes hseq hfits hunread, hunread, Head.of_bytes_append hfits,
        Nat.mod_eq_of_lt hseq]
      split
      · rfl
      · rfl

/-! ### All records -/

/-- What a journal gives to whoever reads it record by record. -/
def items (c : Contents) : List (Except Error Record) :=
  c.records.map .ok ++ c.failure.toList.map .error

/-- A reader that gives nothing, and is left as it was, never gives anything. -/
theorem nth_of_next_eq {r : Reader} (h : r.next = (none, r)) (n : Nat) : r.nth n = none := by
  induction n with
  | zero => rw [nth, h]
  | succ n ih => rw [nth, h, ih]

/-- **After a failure there is nothing more.** -/
theorem nth_of_failed {r : Reader} (h : r.failed = true) (n : Nat) : r.nth n = none :=
  nth_of_next_eq (by rw [next, if_pos h]) n

/-- A reader that fails gives the failure, and nothing else. -/
theorem nth_of_error {r : Reader} {e : Error} (hgood : r.failed = false)
    (h : r.readRecord = .error e) (n : Nat) : r.nth n = [Except.error e][n]? := by
  have hnext : r.next = (some (.error e), { r with failed := true }) := by
    rw [next, hgood, h]
    rfl
  rcases n with _ | n
  · rw [nth, hnext]
    rfl
  · rw [nth, hnext, nth_of_failed rfl]
    rfl

/-- **What the calls give**: the records, the failure if there is one, and then nothing. -/
theorem nth_eq (position : Nat) (bs : Bytes) (n : Nat) :
    nth { unread := bs, position, failed := false } n = (items (scan position bs))[n]? := by
  have hread := readRecord_eq { unread := bs, position, failed := false }
  fun_induction scan position bs generalizing n with
  | case1 position bs hhead =>
    rw [hhead] at hread
    exact nth_of_next_eq (by rw [next, hread]; rfl) n
  | case2 position bs hhead =>
    rw [hhead] at hread
    exact nth_of_error rfl hread n
  | case3 position bs seq expected found hhead =>
    rw [hhead] at hread
    exact nth_of_error rfl hread n
  | case4 position bs record rest hhead later ih =>
    rw [hhead] at hread
    have hnext : next { unread := bs, position, failed := false } =
        (some (.ok record),
          { unread := rest
            position := position + Record.headSize + record.payload.length
            failed := false }) := by
      rw [next, hread]
      rfl
    rcases n with _ | n
    · rw [nth, hnext]
      rfl
    · rw [nth, hnext, ih n (readRecord_eq _)]
      rfl

/-- **Reading record by record comes to the same** as reading a journal at once. -/
theorem nth_of_parse {c : Contents} (hparse : parse bs = .ok c) :
    ∃ reader, ofBytes bs = .ok reader ∧ ∀ n, reader.nth n = (items c)[n]? := by
  rw [parse] at hparse
  rw [ofBytes]
  rcases hheader : Header.read bs with ⟨e | h, rest⟩
  · rw [hheader] at hparse
    exact absurd hparse (by simp)
  · rw [hheader] at hparse
    obtain rfl := Except.ok.inj hparse
    exact ⟨_, rfl, nth_eq Header.size rest⟩

theorem open_eq (hread : d.read path = .ok bs) : Reader.open d path = ofBytes bs := by
  rw [Reader.open, hread]

/-! ### Whole journals -/

/-- **A reader accepts exactly the format.** It can be opened on the files that begin with a header
of the right kind and version. The file is then that header, records whose numbers and lengths have
room in their fields, and a rest. The calls for the next item give these records, then one failure
or none, and nothing after that, and the journal as a whole is read as the same. There is no failure
just if there is no rest, and no rest begins with a record. The failure is a torn record, at the end
of the records before it, just if there are too few bytes for the fields or for as long a payload as
they announce; it is a wrong checksum where the fields and the payload are there, with the number,
the checksum that is stored and the one that is not. -/
theorem reads_format (hread : d.read path = .ok bs) :
    ((∃ reader, Reader.open d path = .ok reader) ↔
      ∃ reserved, ({ reserved } : Header).encode <+: bs) ∧
    ∀ reader, Reader.open d path = .ok reader →
      ∃ reserved rs rest failure,
        bs = ({ reserved } : Header).encode ++ (encodeRecords rs ++ rest) ∧
        (∀ r ∈ rs, r.Storable) ∧
        Journal.load d path = .ok { records := rs, failure } ∧
        (∀ n, reader.nth n = (rs.map Except.ok ++ failure.toList.map Except.error)[n]?) ∧
        (failure = none ↔ rest = []) ∧
        (∀ r : Record, r.Storable → ¬r.encode <+: rest) ∧
        (failure = some (.truncated (Header.size + (encodeRecords rs).length)) ↔
          rest ≠ [] ∧ Head.Short rest) ∧
        (¬Head.Short rest → ∃ seq stored payload later, seq < 2 ^ 64 ∧ fits payload = true ∧
          rest = Head.bytes seq payload.length stored ++ (payload ++ later) ∧
          Record.checksum seq payload ≠ stored ∧
          failure = some (.checksumMismatch seq stored (Record.checksum seq payload))) := by
  rw [open_eq hread, ofBytes]
  refine ⟨?_, ?_⟩
  · rw [Header.exists_encode_prefix_iff]
    rcases Header.read bs with ⟨e | h, tail⟩
    · simp
    · simp
  · rintro reader hopen
    rcases hheader : Header.read bs with ⟨e | h, tail⟩
    · rw [hheader] at hopen
      exact absurd hopen (by simp)
    · rw [hheader] at hopen
      obtain rfl := Except.ok.inj hopen
      obtain ⟨hmagic, hversion, rfl⟩ := Header.read_eq_ok_iff.mp hheader
      obtain ⟨rest, htail, hstorable, hstops⟩ := scan_stops Header.size tail
      have hload : Journal.load d path = .ok (scan Header.size tail) := by
        rw [Journal.load, hread]
        simp only [parse, hheader]
      refine ⟨h.reserved, (scan Header.size tail).records, rest, (scan Header.size tail).failure,
        ?_, hstorable, hload, nth_eq Header.size tail, hstops.failure_eq_none_iff,
        fun r hr => hstops.not_prefix hr, hstops.truncated_iff, hstops.checksum_of_not_short⟩
      rw [← htail, ← Header.eq_of_valid hmagic hversion]

/-- A reader says that three bytes are no record, and says so once. -/
theorem reads_format_of_three_bytes :
    (oneFile threeBytes).read logPath = .ok threeBytes ∧
      ∃ reader, Reader.open (oneFile threeBytes) logPath = .ok reader ∧
        reader.nth 0 = some (.error (.truncated 16)) ∧ reader.nth 1 = none := by
  have hread := (holds_oneFile threeBytes).read
  obtain ⟨hopens, hall⟩ := reads_format hread
  obtain ⟨reader, hopen⟩ := hopens.mpr ⟨0, [1, 2, 3], rfl⟩
  refine ⟨hread, reader, hopen, ?_⟩
  obtain ⟨reserved, rs, rest, failure, hbs, -, -, hnth, -, -, htruncated, -⟩ := hall reader hopen
  obtain ⟨-, hrest⟩ := List.append_inj hbs rfl
  -- there is no room for a record
  obtain rfl : rs = [] := by
    rcases rs with _ | ⟨r, rs⟩
    · rfl
    · have hlength := congrArg List.length hrest
      rw [List.length_append, ← recordBytes, recordBytes_cons] at hlength
      simp [Record.headSize] at hlength
      omega
  obtain rfl : [1, 2, 3] = rest := hrest
  have hfailure := htruncated.mpr ⟨by simp, .inl (by decide)⟩
  rw [hnth, hnth, hfailure]
  exact ⟨rfl, rfl⟩

end Reader

end CommandLog.Journal
