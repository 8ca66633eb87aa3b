import CommandLog.Proofs.Journal.Codec
import Mathlib.Logic.Basic

/-!
# What a byte string is read as

Reading cuts a byte string into parts, whatever it holds, and writing the parts again gives the
same bytes: the header, the records, and a rest that is the reason why reading stopped. This is the
other half of the round trip, in which nothing is assumed of the bytes.

* `CommandLog.Journal.Header.exists_encode_prefix_iff` – **which byte strings have a header**;
* `CommandLog.Journal.Head.Short` – too few bytes for a record, by their number or by the length
  field;
* `CommandLog.Journal.Head.of_short` and `CommandLog.Journal.Head.of_not_short` – **the two ways to
  go on in front of some bytes**: there are too few of them, or they are three fields and a payload,
  with whatever follows;
* `CommandLog.Journal.Head.of_torn` – the beginning of a record is not taken for anything else;
* `CommandLog.Journal.Stops` – what may be left when reading stops, and with which failure;
* `CommandLog.Journal.scan_stops` – **every byte string is records in a row and a rest at which
  reading stops**;
* `CommandLog.Journal.exists_parse_iff`, `CommandLog.Journal.parse_eq_error_iff` and
  `CommandLog.Journal.storable_of_mem_parse` – which byte strings are journals, why the others are
  not, and what the records of a journal are;
* `CommandLog.Journal.parse_torn` – **a journal that breaks off in a record** reads back as the
  payloads before it.

The rest never begins with a record, so the records are as many as there could be
(`CommandLog.Journal.Stops.not_prefix`). That the beginning of a record is told from a record needs
no property of the checksum: the length field is in front of it, so a record that breaks off is
always too short for its own length.
-/

namespace CommandLog

theorem LittleEndian.encode_decode_of_length {width : Nat} {bs : Bytes} (h : bs.length = width) :
    LittleEndian.encode width (LittleEndian.decode bs) = bs := by
  rw [← h, LittleEndian.encode_decode]

theorem LittleEndian.decode_lt_of_length {width : Nat} {bs : Bytes} (h : bs.length = width) :
    LittleEndian.decode bs < LittleEndian.bound width := by
  rw [← h]
  exact LittleEndian.decode_lt bs

namespace Journal

variable {r : Record} {rs : List Record} {bs rest p : Bytes} {position : Nat}

/-! ### The header -/

theorem Header.readNumber_eq_ok_iff {input rest : Bytes} {v : UInt32} :
    Header.readNumber input = (.ok v, rest) ↔ input = LittleEndian.encode 4 v.toNat ++ rest := by
  rw [Header.readNumber]
  constructor
  · intro hread
    split at hread
    · exact absurd hread (by simp)
    · next field rest' hfield =>
      obtain ⟨hlength, rfl⟩ := Bytes.takeExactly?_eq_some_iff.mp hfield
      obtain ⟨hv, rfl⟩ := Prod.mk.inj hread
      have hlt : LittleEndian.decode field < 2 ^ 32 := LittleEndian.decode_lt_of_length hlength
      rw [← Except.ok.inj hv, UInt32.toNat_ofNat_of_lt' hlt,
        LittleEndian.encode_decode_of_length hlength]
  · rintro rfl
    have hlt : v.toNat < LittleEndian.bound 4 := v.toNat_lt
    have hfield : Bytes.takeExactly? 4 (LittleEndian.encode 4 v.toNat ++ rest) =
        some (LittleEndian.encode 4 v.toNat, rest) :=
      Bytes.takeExactly?_eq_some_iff.mpr ⟨LittleEndian.length_encode 4 _, rfl⟩
    rw [hfield]
    simp only [LittleEndian.decode_encode hlt, UInt32.ofNat_toNat]

/-- **A header is read** where one of the right kind and version was written. -/
theorem Header.read_eq_ok_iff {input rest : Bytes} {h : Header} :
    Header.read input = (.ok h, rest) ↔
      h.magic = Header.journalMagic ∧ h.version = Header.currentVersion ∧
        input = h.encode ++ rest := by
  rw [Header.read]
  constructor
  · intro hread
    split at hread
    · exact absurd hread (by simp)
    · next magic input₁ hmagic =>
      obtain ⟨-, rfl⟩ := Bytes.takeExactly?_eq_some_iff.mp hmagic
      split at hread
      · exact absurd hread (by simp)
      · next hright =>
        split at hread
        · exact absurd hread (by simp)
        · next version input₂ hversion =>
          split at hread
          · exact absurd hread (by simp)
          · next hcurrent =>
            split at hread
            · exact absurd hread (by simp)
            · next reserved input₃ hreserved =>
              obtain ⟨rfl, rfl⟩ : { magic, version, reserved } = h ∧ input₃ = rest := by
                simpa using hread
              refine ⟨not_not.mp hright, not_not.mp hcurrent, ?_⟩
              rw [Header.readNumber_eq_ok_iff.mp hversion,
                Header.readNumber_eq_ok_iff.mp hreserved, Header.encode, List.append_assoc,
                List.append_assoc]
  · rintro ⟨hmagic, hversion, rfl⟩
    obtain ⟨magic, version, reserved⟩ := h
    obtain rfl : magic = Header.journalMagic := hmagic
    obtain rfl : version = Header.currentVersion := hversion
    have hfront : Bytes.takeExactly? 8
        (Header.encode ⟨Header.journalMagic, Header.currentVersion, reserved⟩ ++ rest) =
        some (Header.journalMagic, LittleEndian.encode 4 Header.currentVersion.toNat ++
          (LittleEndian.encode 4 reserved.toNat ++ rest)) :=
      Bytes.takeExactly?_eq_some_iff.mpr
        ⟨rfl, by rw [Header.encode, List.append_assoc, List.append_assoc]⟩
    simp only [hfront, Header.readNumber_eq_ok_iff.mpr rfl, ne_eq, not_true, if_false]

/-- A header is told by its reserved field. -/
theorem Header.eq_of_valid {h : Header} (hmagic : h.magic = Header.journalMagic)
    (hversion : h.version = Header.currentVersion) : h = { reserved := h.reserved } := by
  obtain ⟨magic, version, reserved⟩ := h
  obtain rfl : magic = Header.journalMagic := hmagic
  obtain rfl : version = Header.currentVersion := hversion
  rfl

/-- **Which byte strings have a header**, whatever its reserved field holds. -/
theorem Header.exists_encode_prefix_iff {input : Bytes} :
    (∃ reserved, ({ reserved } : Header).encode <+: input) ↔
      ∃ h rest, Header.read input = (.ok h, rest) := by
  constructor
  · rintro ⟨reserved, rest, rfl⟩
    exact ⟨{ reserved }, rest, Header.read_eq_ok_iff.mpr ⟨rfl, rfl, rfl⟩⟩
  · rintro ⟨h, rest, hread⟩
    obtain ⟨hmagic, hversion, rfl⟩ := Header.read_eq_ok_iff.mp hread
    rw [Header.eq_of_valid hmagic hversion]
    exact ⟨h.reserved, List.prefix_append _ _⟩

/-! ### What stands in front of some bytes -/

/-- A record whose number and whose length have room in their fields. -/
structure Record.Storable (r : Record) : Prop where
  /-- The number fits eight bytes. -/
  seq_lt : r.seq < 2 ^ 64
  /-- The length fits four bytes. -/
  fits : Journal.fits r.payload = true

theorem Record.Storable.wrapped_eq (h : r.Storable) : r.wrapped = r := by
  rw [Record.wrapped, Nat.mod_eq_of_lt h.seq_lt]

/-- The length that is stored in front of a payload. -/
def Head.lengthField (bs : Bytes) : Nat :=
  LittleEndian.decode ((bs.drop 8).take 4)

/-- **Too few bytes for a record**: not enough for the fields, or not enough for as long a payload
as they announce. -/
def Head.Short (bs : Bytes) : Prop :=
  bs.length < Record.headSize ∨ bs.length < Record.headSize + Head.lengthField bs

theorem Head.fields_take (bs : Bytes) :
    (Head.fields (bs.take Record.headSize)).2.1 = Head.lengthField bs := by
  have hfield : ((bs.take Record.headSize).drop 8).take 4 = (bs.drop 8).take 4 := by
    rw [List.drop_take, List.take_take]
    rfl
  rw [Head.fields, Head.lengthField, hfield]

/-- **Twenty bytes are three fields**, whatever they are. -/
theorem Head.bytes_fields {front : Bytes} (hlength : front.length = Record.headSize) :
    Head.bytes (Head.fields front).1 (Head.fields front).2.1 (Head.fields front).2.2 = front ∧
      (Head.fields front).1 < 2 ^ 64 ∧ (Head.fields front).2.1 < Record.payloadLimit := by
  have hseq : (front.take 8).length = 8 := by
    rw [List.length_take, hlength]
    rfl
  have hsize : ((front.drop 8).take 4).length = 4 := by
    rw [List.length_take, List.length_drop, hlength]
    rfl
  have hcheck : ((front.drop 12).take 8).length = 8 := by
    rw [List.length_take, List.length_drop, hlength]
    rfl
  have hsum : (UInt64.ofNat (LittleEndian.decode ((front.drop 12).take 8))).toNat =
      LittleEndian.decode ((front.drop 12).take 8) :=
    UInt64.toNat_ofNat_of_lt' (LittleEndian.decode_lt_of_length hcheck)
  refine ⟨?_, LittleEndian.decode_lt_of_length hseq, LittleEndian.decode_lt_of_length hsize⟩
  have hlast : (front.drop 12).take 8 = front.drop 12 :=
    List.take_of_length_le (by rw [List.length_drop, hlength]; decide)
  have hmiddle : (front.drop 8).take 4 ++ front.drop 12 = front.drop 8 := by
    have h := List.take_append_drop 4 (front.drop 8)
    rwa [List.drop_drop] at h
  rw [Head.bytes, Head.fields]
  simp only [hsum, LittleEndian.encode_decode_of_length hseq,
    LittleEndian.encode_decode_of_length hsize, LittleEndian.encode_decode_of_length hcheck]
  rw [hlast, List.append_assoc, hmiddle, List.take_append_drop]

theorem Head.of_nil : Head.of [] = .finished := rfl

/-- **Too few bytes are a torn record.** -/
theorem Head.of_short (hne : bs ≠ []) (hshort : Head.Short bs) : Head.of bs = .torn := by
  have hempty : bs.isEmpty = false := List.isEmpty_eq_false_iff.mpr hne
  rcases Nat.lt_or_ge bs.length Record.headSize with hlt | hge
  · simp [Head.of, hempty, Bytes.takeExactly?_eq_none_iff.mpr hlt]
  · -- the fields are there, and announce more than there is
    have hfront : bs.takeExactly? Record.headSize =
        some (bs.take Record.headSize, bs.drop Record.headSize) :=
      Bytes.takeExactly?_eq_some_iff.mpr
        ⟨List.length_take_of_le hge, (List.take_append_drop _ bs).symm⟩
    have hpayload : Bytes.takeExactly? (Head.lengthField bs) (bs.drop Record.headSize) = none := by
      rw [Bytes.takeExactly?_eq_none_iff, List.length_drop]
      rcases hshort with hlt | hlt
      · exact absurd hlt (Nat.not_lt.mpr hge)
      · omega
    simp [Head.of, hempty, hfront, Head.fields_take, hpayload]

/-- **Enough bytes are three fields and a payload**, and whatever follows them. -/
theorem Head.of_not_short (hlong : ¬Head.Short bs) :
    ∃ seq stored payload rest, seq < 2 ^ 64 ∧ fits payload = true ∧
      bs = Head.bytes seq payload.length stored ++ (payload ++ rest) := by
  rw [Head.Short, not_or, Nat.not_lt, Nat.not_lt] at hlong
  obtain ⟨hhead, hpayload⟩ := hlong
  obtain ⟨hbytes, hseq, hlength⟩ := Head.bytes_fields (List.length_take_of_le hhead)
  rw [Head.fields_take] at hbytes hlength
  have hsize : ((bs.drop Record.headSize).take (Head.lengthField bs)).length =
      Head.lengthField bs := by
    refine List.length_take_of_le ?_
    rw [List.length_drop]
    omega
  refine ⟨_, (Head.fields (bs.take Record.headSize)).2.2,
    (bs.drop Record.headSize).take (Head.lengthField bs),
    (bs.drop Record.headSize).drop (Head.lengthField bs), hseq, ?_, ?_⟩
  · rw [fits, hsize]
    exact decide_eq_true hlength
  · rw [hsize, hbytes, List.take_append_drop, List.take_append_drop]

/-- **A record is found where it was written**, and nowhere else. -/
theorem Head.of_eq_record_iff :
    Head.of bs = .record r rest ↔ r.Storable ∧ bs = r.encode ++ rest := by
  constructor
  · intro h
    rcases eq_or_ne bs [] with rfl | hne
    · exact absurd h (by simp [Head.of_nil])
    · by_cases hshort : Head.Short bs
      · exact absurd h (by simp [Head.of_short hne hshort])
      · obtain ⟨seq, stored, payload, later, hseq, hfits, rfl⟩ := Head.of_not_short hshort
        rw [Head.of_bytes_append hfits, Nat.mod_eq_of_lt hseq] at h
        split at h
        · next hsum =>
          obtain ⟨rfl, rfl⟩ : { seq, payload } = r ∧ later = rest := by simpa using h
          refine ⟨⟨hseq, hfits⟩, ?_⟩
          rw [Record.encode_eq, Record.head, hsum, List.append_assoc]
        · exact absurd h (by simp)
  · rintro ⟨hr, rfl⟩
    rw [Head.of_encode_append hr.fits, hr.wrapped_eq]

/-- **The beginning of a record is no record**, and nothing else that could be gone on from. If it
were long enough for its own length, the record would end in it. -/
theorem Head.of_torn {front : Bytes} (hfits : fits r.payload = true)
    (hcut : r.encode = front ++ rest) (hrest : rest ≠ []) :
    Head.of front = if front.isEmpty then .finished else .torn := by
  rcases eq_or_ne front [] with rfl | hne
  · rfl
  · have hempty : front.isEmpty = false := List.isEmpty_eq_false_iff.mpr hne
    rw [hempty]
    by_cases hshort : Head.Short front
    · exact Head.of_short hne hshort
    · obtain ⟨seq, stored, payload, later, -, hfits', rfl⟩ := Head.of_not_short hshort
      have hwhole := Head.of_encode_append hfits []
      rw [List.append_nil, hcut, List.append_assoc, List.append_assoc,
        Head.of_bytes_append hfits'] at hwhole
      split at hwhole
      · have hnil : later ++ rest = [] := (Head.record.inj hwhole).2
        exact absurd (List.append_eq_nil_iff.mp hnil).2 hrest
      · exact absurd hwhole (by simp)

/-! ### Where reading stops -/

/-- **What may be left when reading stops** in front of it, and the failure that this is. -/
inductive Stops (position : Nat) : Bytes → Option Error → Prop where
  /-- Nothing is left. -/
  | finished : Stops position [] none
  /-- There is something, and too little of it. -/
  | torn {bs : Bytes} (hne : bs ≠ []) (hshort : Head.Short bs) :
    Stops position bs (some (.truncated position))
  /-- There are three fields and a payload, and the checksum is not theirs. -/
  | corrupt {seq : Nat} {stored : UInt64} {payload rest : Bytes} (hseq : seq < 2 ^ 64)
    (hfits : fits payload = true) (hsum : Record.checksum seq payload ≠ stored) :
    Stops position (Head.bytes seq payload.length stored ++ (payload ++ rest))
      (some (.checksumMismatch seq stored (Record.checksum seq payload)))

variable {failure : Option Error}

/-- Nothing that reading stops in front of is taken for a record. -/
theorem Stops.of_ne_record (h : Stops position bs failure) (r : Record) (rest : Bytes) :
    Head.of bs ≠ .record r rest := by
  rcases h with _ | ⟨hne, hshort⟩ | ⟨hseq, hfits, hsum⟩
  · simp [Head.of_nil]
  · simp [Head.of_short hne hshort]
  · simp [Head.of_bytes_append hfits, hsum]

/-- **What is left does not begin with a record.** -/
theorem Stops.not_prefix (h : Stops position bs failure) (hr : r.Storable) : ¬r.encode <+: bs := by
  rintro ⟨rest, rfl⟩
  exact h.of_ne_record r rest (Head.of_eq_record_iff.mpr ⟨hr, rfl⟩)

theorem Stops.failure_eq_none_iff (h : Stops position bs failure) : failure = none ↔ bs = [] := by
  rcases h with _ | ⟨hne, hshort⟩ | ⟨hseq, hfits, hsum⟩
  · simp
  · simp [hne]
  · simp [Head.bytes, LittleEndian.encode]

/-- Three fields and a payload are not too few bytes. -/
theorem Head.not_short_bytes (hfits : fits p = true) (seq : Nat) (stored : UInt64) (rest : Bytes) :
    ¬Head.Short (Head.bytes seq p.length stored ++ (p ++ rest)) := by
  intro hshort
  have hne : Head.bytes seq p.length stored ++ (p ++ rest) ≠ [] := by
    simp [Head.bytes, LittleEndian.encode]
  have htorn := Head.of_short hne hshort
  rw [Head.of_bytes_append hfits] at htorn
  split at htorn <;> exact absurd htorn (by simp)

/-- **The failure is a torn record** exactly where there is something, and too little of it. -/
theorem Stops.truncated_iff (h : Stops position bs failure) :
    failure = some (.truncated position) ↔ bs ≠ [] ∧ Head.Short bs := by
  rcases h with _ | ⟨hne, hshort⟩ | ⟨hseq, hfits, hsum⟩
  · simp
  · simp [hne, hshort]
  · simp [Head.not_short_bytes hfits]

/-- **The failure is a wrong checksum** everywhere else. -/
theorem Stops.checksum_of_not_short (h : Stops position bs failure) (hlong : ¬Head.Short bs) :
    ∃ seq stored payload rest, seq < 2 ^ 64 ∧ fits payload = true ∧
      bs = Head.bytes seq payload.length stored ++ (payload ++ rest) ∧
      Record.checksum seq payload ≠ stored ∧
      failure = some (.checksumMismatch seq stored (Record.checksum seq payload)) := by
  rcases h with _ | ⟨hne, hshort⟩ | ⟨hseq, hfits, hsum⟩
  · exact absurd (.inl (by decide)) hlong
  · exact absurd hshort hlong
  · exact ⟨_, _, _, _, hseq, hfits, rfl, hsum, rfl⟩

/-- Where no record stands, nothing more is read. -/
theorem scan_of_ne_record (h : ∀ r rest, Head.of bs ≠ .record r rest) (position : Nat) :
    (scan position bs).records = [] ∧ Stops position bs (scan position bs).failure := by
  rcases eq_or_ne bs [] with rfl | hne
  · rw [scan_eq]
    exact ⟨rfl, .finished⟩
  · by_cases hshort : Head.Short bs
    · rw [scan_eq, Head.of_short hne hshort]
      exact ⟨rfl, .torn hne hshort⟩
    · obtain ⟨seq, stored, payload, rest, hseq, hfits, rfl⟩ := Head.of_not_short hshort
      have hsum : Record.checksum seq payload ≠ stored := by
        intro hsum
        exact h _ _ (by rw [Head.of_bytes_append hfits, if_pos hsum])
      rw [scan_eq, Head.of_bytes_append hfits, if_neg hsum, Nat.mod_eq_of_lt hseq]
      exact ⟨rfl, .corrupt hseq hfits hsum⟩

/-- **Every byte string is records in a row and a rest** at which reading stops. -/
theorem scan_stops (position : Nat) (bs : Bytes) :
    ∃ rest, bs = encodeRecords (scan position bs).records ++ rest ∧
      (∀ r ∈ (scan position bs).records, r.Storable) ∧
      Stops (position + recordBytes (scan position bs).records) rest
        (scan position bs).failure := by
  fun_induction scan position bs with
  | case1 position bs hhead | case2 position bs hhead | case3 position bs _ _ _ hhead =>
    -- no record stands here, and that is all there is to say
    have hne : ∀ r rest, Head.of bs ≠ .record r rest := by simp [hhead]
    obtain ⟨-, hstops⟩ := scan_of_ne_record hne position
    rw [scan_eq, hhead] at hstops
    exact ⟨bs, rfl, by simp, hstops⟩
  | case4 position bs r later hhead next ih =>
    obtain ⟨hr, hbs⟩ := Head.of_eq_record_iff.mp hhead
    obtain ⟨rest, hlater, hstorable, hstops⟩ := ih
    refine ⟨rest, ?_, ?_, ?_⟩
    · rw [encodeRecords_cons, List.append_assoc, ← hlater, hbs]
    · rintro r' hr'
      rcases List.mem_cons.mp hr' with rfl | hmem
      · exact hr
      · exact hstorable r' hmem
    · rwa [recordBytes_cons, ← Nat.add_assoc, ← Nat.add_assoc]

/-! ### Whole journals -/

/-- **All records that are read can be stored.** -/
theorem storable_of_mem_parse {c : Contents} (hparse : parse bs = .ok c) (hr : r ∈ c.records) :
    r.Storable := by
  rw [parse] at hparse
  split at hparse
  · exact absurd hparse (by simp)
  · next h tail hheader =>
    obtain rfl := Except.ok.inj hparse
    obtain ⟨rest, -, hstorable, -⟩ := scan_stops Header.size tail
    exact hstorable r hr

theorem parse_nil : parse [] = .error (.io .unexpectedEnd) := rfl

/-- **Which byte strings are journals**, damaged or not. -/
theorem exists_parse_iff :
    (∃ c, parse bs = .ok c) ↔ ∃ reserved, ({ reserved } : Header).encode <+: bs := by
  rw [Header.exists_encode_prefix_iff, parse]
  rcases Header.read bs with ⟨e | h, tail⟩
  · simp
  · simp

/-- **A journal is refused for its header** and for nothing else. -/
theorem parse_eq_error_iff {e : Error} : parse bs = .error e ↔ (Header.read bs).1 = .error e := by
  rw [parse]
  rcases Header.read bs with ⟨e' | h, tail⟩
  · simp
  · simp

/-- **A journal that breaks off in a record** reads back as the payloads before it. -/
theorem parse_torn {ps : List Bytes} {front : Bytes} (hfits : ∀ p ∈ ps, fits p = true)
    (hr : fits r.payload = true) (hcut : r.encode = front ++ rest) (hrest : rest ≠ []) :
    ∃ failure, parse (encode ps ++ front) = .ok (Contents.of ps failure) := by
  obtain ⟨position, hparse⟩ := parse_encode_append hfits front
  rw [scan_eq, Head.of_torn hr hcut hrest] at hparse
  by_cases hempty : front.isEmpty = true
  · rw [if_pos hempty, List.append_nil] at hparse
    exact ⟨_, hparse⟩
  · rw [if_neg hempty, List.append_nil] at hparse
    exact ⟨_, hparse⟩

end Journal

end CommandLog
