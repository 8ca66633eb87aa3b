import CommandLog.Proofs.Journal.Reader

/-!
# A journal that breaks off

A journal that is cut at any byte reads back as the records in front of the cut, and is found to be
torn unless the cut is between two records. The length of a record stands in front of its payload,
so a record that is not there completely is always too short for its own length, and its checksum
is never looked at.

* `CommandLog.Journal.Header.read_take` – a header that breaks off is no header;
* `CommandLog.Journal.scan_take_encode` – what is made of the beginning of a record;
* `CommandLog.Journal.scan_take_encodeRecords` – **records in a row that break off**: which of them
  are read, and where reading stops;
* `CommandLog.Journal.Reader.reads_cut` – **a reader of a journal that breaks off** gives exactly
  the records in front of the cut.
-/

namespace CommandLog.Journal

variable {r : Record} {rs : List Record} {ps : List Bytes} {k : Nat} {d : Disk} {path : Path}

/-! ### The header -/

/-- **A header that breaks off is no header**, at whichever of its fields. -/
theorem Header.read_take (hk : k < Header.size) :
    (Header.read (({} : Header).encode.take k)).1 = .error (.io .unexpectedEnd) := by
  revert k
  decide

/-! ### Records in a row -/

/-- **Why reading stops at a boundary** in front of a cut: the cut is right there, or in the record
that begins there. -/
def stopAt (boundary cut : Nat) : Option Error :=
  if boundary = cut then none else some (.truncated boundary)

/-- **The beginning of a record** is nothing or a torn record. -/
theorem scan_take_encode (hfits : fits r.payload = true) (hk : k < r.encode.length)
    (position : Nat) :
    scan position (r.encode.take k) =
      { records := [], failure := stopAt position (position + k) } := by
  have hrest : r.encode.drop k ≠ [] := by simpa using hk
  rw [scan_eq, Head.of_torn hfits (List.take_append_drop k r.encode).symm hrest]
  rcases k with _ | k
  · simp [stopAt]
  · have hne : (r.encode.take (k + 1)).isEmpty = false := by
      simpa using r.encode_ne_nil
    simp [stopAt, hne]

/-- **Records in a row that break off**: those that end in front of the cut are read, and what is
left of the next one is a torn record, which begins where the last one ends. -/
theorem scan_take_encodeRecords (hfits : ∀ r ∈ rs, fits r.payload = true) (position : Nat)
    (hk : k ≤ recordBytes rs) :
    ∃ n ≤ rs.length, (∀ m ≤ rs.length, recordBytes (rs.take m) ≤ k ↔ m ≤ n) ∧
      scan position ((encodeRecords rs).take k) =
        { records := (rs.take n).map Record.wrapped
          failure := stopAt (position + recordBytes (rs.take n)) (position + k) } := by
  induction rs generalizing position k with
  | nil =>
    obtain rfl : k = 0 := Nat.le_zero.mp hk
    refine ⟨0, Nat.le_refl 0, fun m hm => ?_, ?_⟩
    · simp [Nat.le_zero.mp hm, recordBytes, encodeRecords]
    · have hfinished : scan position [] = { records := [], failure := none } :=
        scan_eq position []
      simpa [stopAt, recordBytes, encodeRecords] using hfinished
  | cons r rs ih =>
    have hr := hfits r List.mem_cons_self
    rcases Nat.lt_or_ge k r.encode.length with hlt | hge
    · -- the cut is in the first record
      refine ⟨0, Nat.zero_le _, ?_, ?_⟩
      · intro m _
        rcases m with _ | m
        · simp [recordBytes, encodeRecords]
        · rw [r.length_encode] at hlt
          rw [List.take_succ_cons, recordBytes_cons]
          omega
      · rw [encodeRecords_cons, List.take_append_of_le_length (Nat.le_of_lt hlt),
          scan_take_encode hr hlt]
        rfl
    · -- the first record is read, and the cut is in the other ones
      obtain ⟨later, rfl⟩ := Nat.exists_eq_add_of_le hge
      have hlater : later ≤ recordBytes rs := by
        rw [recordBytes_cons, ← r.length_encode] at hk
        omega
      obtain ⟨n, hn, hiff, hscan⟩ := ih (fun r' hr' => hfits r' (List.mem_cons_of_mem r hr'))
        (position + Record.headSize + r.payload.length) hlater
      refine ⟨n + 1, Nat.succ_le_succ hn, ?_, ?_⟩
      · intro m hm
        rcases m with _ | m
        · simp [recordBytes, encodeRecords]
        · rw [List.take_succ_cons, recordBytes_cons, ← r.length_encode,
            Nat.add_le_add_iff_left, hiff m (Nat.le_of_succ_le_succ hm), Nat.add_le_add_iff_right]
      · rw [encodeRecords_cons, List.take_length_add_append, scan_eq, Head.of_encode_append hr]
        simp only [Record.payload_wrapped, hscan]
        rw [List.take_succ_cons, recordBytes_cons, r.length_encode, List.map_cons]
        simp only [Nat.add_assoc]

/-! ### Whole journals -/

theorem take_numbered (first : Nat) (ps : List Bytes) (n : Nat) :
    (numbered first ps).take n = numbered first (ps.take n) := by
  induction ps generalizing first n with
  | nil => simp [numbered]
  | cons p ps ih =>
    rcases n with _ | n
    · rfl
    · simp [numbered, ih]

@[simp] theorem length_numbered (first : Nat) (ps : List Bytes) :
    (numbered first ps).length = ps.length := by
  have hlength := congrArg List.length (map_payload_numbered first ps)
  rwa [List.length_map] at hlength

/-- Number of bytes of a journal. -/
theorem length_encode_journal (ps : List Bytes) :
    (encode ps).length = Header.size + recordBytes (numbered 0 ps) := by
  rw [encode, List.length_append, Header.length_encode_default, recordBytes]

/-- What some payloads are read back as, one by one. -/
theorem Reader.items_of (ps : List Bytes) (failure : Option Error) :
    items (Contents.of ps failure) =
      (ps.mapIdx fun j p => .ok { seq := j % 2 ^ 64, payload := p }) ++
        failure.toList.map .error := by
  have hrecords : (Contents.of ps failure).records.map Except.ok =
      ps.mapIdx fun j p => (.ok { seq := j % 2 ^ 64, payload := p } : Except Error Record) := by
    refine List.ext_getElem? fun j => ?_
    rw [Contents.of, List.getElem?_map, List.getElem?_map, getElem?_numbered, List.getElem?_mapIdx,
      Option.map_map, Option.map_map, Nat.zero_add]
    rfl
  rw [items, hrecords]
  rfl

/-- **A journal that breaks off behind its header** reads back as the payloads of the records that
end in front of the cut. -/
theorem parse_take_encode (hfits : ∀ p ∈ ps, fits p = true) (hheader : Header.size ≤ k)
    (hk : k ≤ (encode ps).length) :
    ∃ n ≤ ps.length, (∀ m ≤ ps.length, (encode (ps.take m)).length ≤ k ↔ m ≤ n) ∧
      parse ((encode ps).take k) =
        .ok (Contents.of (ps.take n) (stopAt (encode (ps.take n)).length k)) := by
  obtain ⟨later, rfl⟩ := Nat.exists_eq_add_of_le hheader
  rw [length_encode_journal, Nat.add_le_add_iff_left] at hk
  obtain ⟨n, hn, hiff, hscan⟩ := scan_take_encodeRecords
    (fun r hr => fits_of_mem_numbered hfits hr) Header.size hk
  rw [length_numbered] at hn hiff
  refine ⟨n, hn, ?_, ?_⟩
  · intro m hm
    rw [length_encode_journal, Nat.add_le_add_iff_left, ← take_numbered, hiff m hm]
  · rw [encode, ← Header.length_encode_default, List.take_length_add_append, parse_header_append,
      hscan, take_numbered, length_encode_journal]
    rfl

/-- **A reader of a journal that breaks off** gives exactly the records in front of the cut. Where
the cut is in the header, the reader cannot be opened, for want of bytes. Otherwise it can, and the
records that end in front of the cut are the first ones up to some number. The calls for the next
item give these, numbered from zero as far as a number can be stored, then nothing if the cut is
where the last of them ends, and otherwise the failure that the record which begins there is torn,
and nothing after that. -/
theorem Reader.reads_cut (hread : d.read path = .ok ((encode ps).take k))
    (hfits : ∀ p ∈ ps, fits p = true) (hk : k ≤ (encode ps).length) :
    (k < Header.size → Reader.open d path = .error (.io .unexpectedEnd)) ∧
    (Header.size ≤ k → ∃ reader n, Reader.open d path = .ok reader ∧ n ≤ ps.length ∧
      (∀ m ≤ ps.length, (encode (ps.take m)).length ≤ k ↔ m ≤ n) ∧
      ∀ j, reader.nth j =
        (((ps.take n).mapIdx fun j p => Except.ok { seq := j % 2 ^ 64, payload := p }) ++
          if (encode (ps.take n)).length = k then []
          else [.error (.truncated (encode (ps.take n)).length)])[j]?) := by
  rw [open_eq hread]
  constructor
  · intro hlt
    have hheader : (encode ps).take k = ({} : Header).encode.take k :=
      List.take_append_of_le_length (Nat.le_of_lt hlt)
    have hfails := Header.read_take hlt
    rw [ofBytes, hheader]
    revert hfails
    rcases Header.read (({} : Header).encode.take k) with ⟨e | h, rest⟩
    · intro hfails
      exact congrArg Except.error (Except.error.inj hfails)
    · intro hfails
      cases hfails
  · intro hheader
    obtain ⟨n, hn, hiff, hparse⟩ := parse_take_encode hfits hheader hk
    obtain ⟨reader, hopen, hnth⟩ := nth_of_parse hparse
    refine ⟨reader, n, hopen, hn, hiff, fun j => ?_⟩
    rw [hnth, items_of, stopAt]
    split
    · rfl
    · rfl

/-- Two commands, cut inside the second: the first is read, and then the record that begins behind
it is torn. -/
theorem Reader.reads_cut_of_two_commands :
    (oneFile ((encode [[0x61], [0x62, 0x63]]).take 42)).read logPath =
        .ok ((encode [[0x61], [0x62, 0x63]]).take 42) ∧
      (∀ p ∈ [[0x61], [0x62, 0x63]], fits p = true) ∧
      42 ≤ (encode [[0x61], [0x62, 0x63]]).length ∧
      ∃ reader, Reader.open (oneFile ((encode [[0x61], [0x62, 0x63]]).take 42)) logPath =
          .ok reader ∧
        reader.nth 0 = some (.ok { seq := 0, payload := [0x61] }) ∧
        reader.nth 1 = some (.error (.truncated 37)) ∧ reader.nth 2 = none := by
  have hread := (holds_oneFile ((encode [[0x61], [0x62, 0x63]]).take 42)).read
  have hfits : ∀ p ∈ [[0x61], [0x62, 0x63]], fits p = true := by decide
  have hlength : (encode [[0x61], [0x62, 0x63]]).length = 59 := rfl
  have hfirst : (encode [[0x61]]).length = 37 := rfl
  obtain ⟨-, hbehind⟩ := reads_cut hread hfits (by rw [hlength]; decide)
  obtain ⟨reader, n, hopen, hn, hiff, hnth⟩ := hbehind (by decide)
  -- the first record ends in front of the cut, and the second does not
  have hone : 1 ≤ n := (hiff 1 (by decide)).mp (by simp [hfirst])
  have htwo : ¬2 ≤ n := by
    rw [← hiff 2 (by decide)]
    simp [hlength]
  obtain rfl : n = 1 := by omega
  refine ⟨hread, hfits, by rw [hlength]; decide, reader, hopen, ?_, ?_, ?_⟩
  · rw [hnth]
    rfl
  · rw [hnth]
    simp [hfirst]
  · rw [hnth]
    simp [hfirst]

end CommandLog.Journal
