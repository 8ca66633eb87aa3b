import CommandLog.Proofs.Checksum
import CommandLog.Proofs.Journal.Reader

/-!
# A journal with a changed byte

A byte of a record that is not part of its length is covered by the checksum, or is part of the
checksum. When it is changed, the record is as long as it was, so the records before and behind it
stay where they are, and its checksum is wrong, because a checksum sees every change of one byte.
So a reader gives the records in front of the changed one, and then says so.

* `CommandLog.Journal.Corrupt` – three fields and a payload, with a wrong checksum;
* `CommandLog.Journal.Record.corrupt_flip` – **a record with a changed byte** is that, whichever
  field the byte is in;
* `CommandLog.Journal.flip_encodeRecords` – a changed byte of a record stays in that record;
* `CommandLog.Journal.parse_flip` – **a journal with a changed byte** reads back as the records in
  front of it.

Nothing is said about the length field. When it is changed, the record may come out torn, or take in
a part of what is behind it.
-/

namespace CommandLog

/-! ### One field -/

/-- A field with a changed byte is read as another number, which has room in it. -/
theorem LittleEndian.decode_flip_lt (mask : UInt8) (j width n : Nat) :
    decode (Bytes.flip mask j (encode width n)) < bound width :=
  decode_lt_of_length (by rw [Bytes.length_flip, length_encode])

/-- Written again, that number gives the changed bytes. -/
theorem LittleEndian.encode_decode_flip (mask : UInt8) (j width n : Nat) :
    encode width (decode (Bytes.flip mask j (encode width n))) =
      Bytes.flip mask j (encode width n) :=
  encode_decode_of_length (by rw [Bytes.length_flip, length_encode])

namespace Journal

variable {r : Record} {rs : List Record} {bs rest payload : Bytes} {seq i j : Nat} {mask : UInt8}
  {stored : UInt64}

/-! ### One record -/

/-- **A record with a wrong checksum**: three fields, and as long a payload as they say. -/
structure Corrupt (bs : Bytes) (seq : Nat) (stored : UInt64) (payload : Bytes) : Prop where
  /-- The number fits eight bytes. -/
  seq_lt : seq < 2 ^ 64
  /-- The length fits four bytes. -/
  fits : Journal.fits payload = true
  /-- These are the fields and the payload. -/
  bytes_eq : bs = Head.bytes seq payload.length stored ++ payload
  /-- The checksum is another one. -/
  checksum_ne : Record.checksum seq payload ≠ stored

/-- **Such a record is found at the front**, whatever follows. -/
theorem Corrupt.head_of (h : Corrupt bs seq stored payload) (rest : Bytes) :
    Head.of (bs ++ rest) = .corrupt seq stored (Record.checksum seq payload) := by
  rw [h.bytes_eq, List.append_assoc, Head.of_bytes_append h.fits, if_neg h.checksum_ne,
    Nat.mod_eq_of_lt h.seq_lt]

/-- A changed byte of the number. The checksum is the one of the number that was written. -/
theorem Record.corrupt_flip_seq (hr : r.Storable) (hj : j < 8) (hmask : mask ≠ 0) :
    Corrupt (Bytes.flip mask j r.encode)
      (LittleEndian.decode (Bytes.flip mask j (LittleEndian.encode 8 r.seq)))
      (Record.checksum r.seq r.payload) r.payload := by
  have hin : j < (LittleEndian.encode 8 r.seq).length := by rwa [LittleEndian.length_encode]
  have hseq := LittleEndian.encode_decode_flip mask j 8 r.seq
  refine ⟨LittleEndian.decode_flip_lt mask j 8 r.seq, hr.fits, ?_, ?_⟩
  · simp only [Record.encode, Head.bytes, List.append_assoc, Bytes.flip_append_left mask hin, hseq]
  · rw [Record.checksum, Record.checksum, hseq, List.append_assoc, List.append_assoc,
      ← Bytes.flip_append_left mask hin]
    exact Checksum.of_flip_ne (by rw [List.length_append]; omega) hmask

/-- A changed byte of the checksum. -/
theorem Record.corrupt_flip_checksum (hr : r.Storable) (hj : j < 8) (hmask : mask ≠ 0) :
    Corrupt (Bytes.flip mask (12 + j) r.encode) r.seq
      (UInt64.ofNat (LittleEndian.decode
        (Bytes.flip mask j (LittleEndian.encode 8 (Record.checksum r.seq r.payload).toNat))))
      r.payload := by
  have hin : j < (LittleEndian.encode 8 (Record.checksum r.seq r.payload).toNat).length := by
    rwa [LittleEndian.length_encode]
  have hstored := LittleEndian.encode_decode_flip mask j 8 (Record.checksum r.seq r.payload).toNat
  have hlt := LittleEndian.decode_flip_lt mask j 8 (Record.checksum r.seq r.payload).toNat
  have hfront : (LittleEndian.encode 8 r.seq ++
      LittleEndian.encode 4 r.payload.length).length = 12 := by simp
  refine ⟨hr.seq_lt, hr.fits, ?_, ?_⟩
  · rw [Record.encode, Head.bytes, UInt64.toNat_ofNat_of_lt' hlt, hstored, List.append_assoc,
      ← hfront, Bytes.flip_append_right, Bytes.flip_append_left mask hin]
    simp only [List.append_assoc]
  · -- the stored checksum is not what it was, because its bytes are not
    intro heq
    have hsame := congrArg (fun sum => LittleEndian.encode 8 sum.toNat) heq
    simp only [UInt64.toNat_ofNat_of_lt' hlt, hstored] at hsame
    exact Bytes.flip_ne hin hmask hsame.symm

/-- A changed byte of the payload. The checksum is the one of the payload that was written. -/
theorem Record.corrupt_flip_payload (hr : r.Storable) (hj : j < r.payload.length)
    (hmask : mask ≠ 0) :
    Corrupt (Bytes.flip mask (headSize + j) r.encode) r.seq (Record.checksum r.seq r.payload)
      (Bytes.flip mask j r.payload) := by
  refine ⟨hr.seq_lt, ?_, ?_, ?_⟩
  · have hfits := hr.fits
    rwa [Journal.fits, ← Bytes.length_flip mask j] at hfits
  · rw [r.encode_eq, ← r.length_head, Bytes.flip_append_right, Bytes.length_flip]
    rfl
  · rw [Record.checksum, Record.checksum, Bytes.length_flip, ← Bytes.flip_append_right]
    have hin := Nat.add_lt_add_left hj
      (LittleEndian.encode 8 r.seq ++ LittleEndian.encode 4 r.payload.length).length
    rw [← List.length_append] at hin
    exact Checksum.of_flip_ne hin hmask

/-- **A record with a changed byte** has a wrong checksum, and is as long as it was, if the byte is
not one of the four of the length. -/
theorem Record.corrupt_flip (hr : r.Storable) (hj : j < r.encode.length) (hfield : j < 8 ∨ 12 ≤ j)
    (hmask : mask ≠ 0) :
    ∃ seq stored payload, Corrupt (Bytes.flip mask j r.encode) seq stored payload ∧
      payload.length = r.payload.length := by
  rw [r.length_encode] at hj
  rcases hfield with hseq | hbehind
  · exact ⟨_, _, _, Record.corrupt_flip_seq hr hseq hmask, rfl⟩
  · rcases Nat.lt_or_ge j headSize with hstored | hpayload
    · obtain ⟨k, rfl⟩ := Nat.exists_eq_add_of_le hbehind
      have hk : k < 8 := Nat.lt_of_add_lt_add_left hstored
      exact ⟨_, _, _, Record.corrupt_flip_checksum hr hk hmask, rfl⟩
    · obtain ⟨k, rfl⟩ := Nat.exists_eq_add_of_le hpayload
      have hk := Nat.lt_of_add_lt_add_left hj
      exact ⟨_, _, _, Record.corrupt_flip_payload hr hk hmask, Bytes.length_flip _ _ _⟩

/-! ### Records in a row -/

theorem encodeRecords_eq_append (hr : rs[i]? = some r) :
    encodeRecords rs =
      encodeRecords (rs.take i) ++ (r.encode ++ encodeRecords (rs.drop (i + 1))) := by
  obtain ⟨hi, rfl⟩ := List.getElem?_eq_some_iff.mp hr
  rw [← encodeRecords_cons, ← List.drop_eq_getElem_cons hi, ← encodeRecords_append,
    List.take_append_drop]

/-- **A changed byte of a record stays in that record**, and the other records are as they were. -/
theorem flip_encodeRecords (hr : rs[i]? = some r) (hj : j < r.encode.length) :
    Bytes.flip mask (recordBytes (rs.take i) + j) (encodeRecords rs) =
      encodeRecords (rs.take i) ++
        (Bytes.flip mask j r.encode ++ encodeRecords (rs.drop (i + 1))) := by
  rw [encodeRecords_eq_append hr, recordBytes, Bytes.flip_append_right,
    Bytes.flip_append_left mask hj]

/-- **Reading stops at a record with a wrong checksum**, whatever is behind it. -/
theorem parse_corrupt (hstorable : ∀ r ∈ rs, r.Storable) (h : Corrupt bs seq stored payload)
    (rest : Bytes) :
    parse (({} : Header).encode ++ (encodeRecords rs ++ (bs ++ rest))) =
      .ok { records := rs
            failure := some (.checksumMismatch seq stored (Record.checksum seq payload)) } := by
  have hwrapped : rs.map Record.wrapped = rs :=
    (List.map_congr_left fun r hr => (hstorable r hr).wrapped_eq).trans (List.map_id rs)
  rw [parse_header_append, scan_encodeRecords_append fun r hr => (hstorable r hr).fits, scan_eq,
    h.head_of, hwrapped]
  simp only [List.append_nil]

/-- **A journal with a changed byte** reads back as the records in front of the changed one, and
with a wrong checksum for that one. -/
theorem parse_flip (hstorable : ∀ r ∈ rs, r.Storable) (hr : rs[i]? = some r)
    (hj : j < r.encode.length) (hfield : j < 8 ∨ 12 ≤ j) (hmask : mask ≠ 0) :
    ∃ seq stored payload, Corrupt (Bytes.flip mask j r.encode) seq stored payload ∧
      payload.length = r.payload.length ∧
      parse (Bytes.flip mask (Header.size + recordBytes (rs.take i) + j)
        (({} : Header).encode ++ encodeRecords rs)) =
        .ok { records := rs.take i
              failure := some (.checksumMismatch seq stored (Record.checksum seq payload)) } := by
  obtain ⟨seq, stored, payload, hcorrupt, hlength⟩ :=
    Record.corrupt_flip (hstorable r (List.mem_of_getElem? hr)) hj hfield hmask
  refine ⟨seq, stored, payload, hcorrupt, hlength, ?_⟩
  rw [← Header.length_encode_default, Nat.add_assoc, Bytes.flip_append_right,
    flip_encodeRecords hr hj]
  exact parse_corrupt (fun r hr => hstorable r (List.mem_of_mem_take hr)) hcorrupt _

end Journal

end CommandLog
