import CommandLog.Proofs.Ring.Fifo

/-!
# Command addresses and flat offsets

A byte of the log has two names: its flat offset, and the retention position of its entry together
with its offset inside the entry. Going from one to the other takes two walks that stop for
different reasons, one at the number of an entry and the other behind an offset, and the second one
finds a slot where the first one starts from a position.

* `CommandLog.Ring.span_take_add_lt_iff` – **the order of the log is that of its addresses**,
  position first and offset second;
* `CommandLog.Ring.Retains.translate_eq_ok_iff` and
  `CommandLog.Ring.Retains.translate_eq_error_iff` – which addresses there are, and what is wrong
  with the others;
* `CommandLog.Ring.Retains.exists_translate_eq` – every flat offset in the log has an address, and
  `CommandLog.Ring.Retains.resolve?_translate` – it resolves to the slot of that address;
* `CommandLog.Ring.Retains.readFrom_translate` – what the log holds from an address on;
* `CommandLog.Ring.addresses_biject` – **addresses and flat offsets name the same bytes**, on a
  ring made by any appends.

An entry without bytes has a position and no address: positions count it, and flat offsets pass
over it. So the two walks are never compared step by step, but only through the order of the log.
-/

namespace CommandLog.Ring

variable {N : Nat} {r : Ring N} {es : List Entry} {i j offset offset' flat flat' : Nat}
  {e e' : Entry}

/-! ### The order of the log -/

theorem span_take_le (es : List Entry) (i : Nat) : span (es.take i) ≤ span es := by
  conv_rhs => rw [← List.take_append_drop i es, span_append]
  exact Nat.le_add_right _ _

theorem span_take_mono (es : List Entry) (h : i ≤ j) : span (es.take i) ≤ span (es.take j) := by
  have hle := span_take_le (es.take j) i
  rwa [List.take_take, Nat.min_eq_left h] at hle

/-- A byte comes before all bytes of later entries. -/
theorem span_take_add_lt (he : es[i]? = some e) (hoffset : offset < e.size) (hij : i < j)
    (offset' : Nat) : span (es.take i) + offset < span (es.take j) + offset' := by
  have hend := span_take_add_one he
  have hle : span (es.take (i + 1)) ≤ span (es.take j) := span_take_mono es hij
  omega

/-- **The order of the log is that of its addresses**: the entry decides, and inside one entry the
offset does. -/
theorem span_take_add_lt_iff (he : es[i]? = some e) (he' : es[j]? = some e')
    (hoffset : offset < e.size) (hoffset' : offset' < e'.size) :
    span (es.take i) + offset < span (es.take j) + offset' ↔
      i < j ∨ i = j ∧ offset < offset' := by
  rcases Nat.lt_trichotomy i j with hlt | rfl | hgt
  · have hbefore := span_take_add_lt he hoffset hlt offset'
    simp [hlt, hbefore]
  · simp
  · have hafter := span_take_add_lt he' hoffset' hgt offset
    simp only [Nat.not_lt.mpr (Nat.le_of_lt hafter), Nat.not_lt.mpr (Nat.le_of_lt hgt),
      Nat.ne_of_gt hgt, false_and, or_self]

/-- **Two addresses of one byte are the same address.** -/
theorem eq_of_span_take_add_eq (he : es[i]? = some e) (he' : es[j]? = some e')
    (hoffset : offset < e.size) (hoffset' : offset' < e'.size)
    (heq : span (es.take i) + offset = span (es.take j) + offset') :
    i = j ∧ offset = offset' := by
  have hbefore := span_take_add_lt_iff he he' hoffset hoffset'
  have hafter := span_take_add_lt_iff he' he hoffset' hoffset
  -- neither byte comes before the other
  rw [heq, iff_false_left (Nat.lt_irrefl _), not_or] at hbefore
  rw [heq, iff_false_left (Nat.lt_irrefl _), not_or] at hafter
  omega

/-! ### Which addresses there are -/

/-- **There is a flat offset for every byte of every entry**, and for no other address. -/
theorem Retains.translate_eq_ok_iff (h : r.Retains es) :
    r.translate i offset = .ok flat ↔
      ∃ e, r.entries[i]? = some e ∧ offset < e.size ∧
        flat = span (r.entries.take i) + offset := by
  rw [h.translate_eq, ← h.entries_eq]
  rcases he : r.entries[i]? with _ | e
  · simp
  · by_cases hlt : offset < e.size
    · simp [hlt, eq_comm]
    · simp [hlt]

/-- **An address is refused** because there is no such entry, or because the entry has no such
byte, and the error says which. -/
theorem Retains.translate_eq_error_iff (h : r.Retains es) {cause : SeekError} :
    r.translate i offset = .error cause ↔
      r.size ≤ i ∧ cause = .indexOutOfRange i r.size ∨
        ∃ e, r.entries[i]? = some e ∧ e.size ≤ offset ∧
          cause = .offsetOutOfRange offset e.size := by
  have hsize : r.size = r.entries.length := by rw [h.size_eq, h.entries_eq]
  rw [h.translate_eq, ← h.entries_eq, hsize]
  rcases he : r.entries[i]? with _ | e
  · have hout := List.getElem?_eq_none_iff.mp he
    simp [hout, eq_comm]
  · have hin := (List.getElem?_eq_some_iff.mp he).1
    by_cases hlt : offset < e.size
    · simp [hlt, Nat.not_le.mpr hin, Nat.not_le.mpr hlt]
    · simp [hlt, Nat.not_le.mpr hin, Nat.not_lt.mp hlt, eq_comm]

/-- **The order of flat offsets is that of their addresses.** -/
theorem Retains.translate_lt_iff (h : r.Retains es) (hi : r.translate i offset = .ok flat)
    (hj : r.translate j offset' = .ok flat') :
    flat < flat' ↔ i < j ∨ i = j ∧ offset < offset' := by
  obtain ⟨e, he, hoffset, rfl⟩ := h.translate_eq_ok_iff.mp hi
  obtain ⟨e', he', hoffset', rfl⟩ := h.translate_eq_ok_iff.mp hj
  exact span_take_add_lt_iff he he' hoffset hoffset'

/-- **A flat offset has one address.** -/
theorem Retains.eq_of_translate_eq (h : r.Retains es) (hi : r.translate i offset = .ok flat)
    (hj : r.translate j offset' = .ok flat) : i = j ∧ offset = offset' := by
  obtain ⟨e, he, hoffset, rfl⟩ := h.translate_eq_ok_iff.mp hi
  obtain ⟨e', he', hoffset', heq⟩ := h.translate_eq_ok_iff.mp hj
  exact eq_of_span_take_add_eq he he' hoffset hoffset' heq

/-! ### From flat offsets to addresses -/

/-- A flat offset that has an address lies in the log. -/
theorem Retains.lt_of_translate_eq (h : r.Retains es) (hi : r.translate i offset = .ok flat) :
    flat < r.totalBytes := by
  obtain ⟨e, he, hoffset, rfl⟩ := h.translate_eq_ok_iff.mp hi
  have hend := span_take_add_one he
  have hle := span_take_le r.entries (i + 1)
  rw [h.totalBytes_eq, ← h.entries_eq]
  change _ < span r.entries
  omega

/-- **A flat offset in the log has an address**, and resolves to the slot of its entry. -/
theorem Retains.exists_translate_eq (h : r.Retains es) (hlt : flat < r.totalBytes) :
    ∃ i offset, r.translate i offset = .ok flat ∧
      r.resolve? flat = some ((r.tail + i) % N, offset) := by
  rw [h.totalBytes_eq] at hlt
  obtain ⟨i, e, he, hle, hin, hresolve⟩ := h.resolve?_of_lt hlt
  refine ⟨i, flat - span (r.entries.take i), h.translate_eq_ok_iff.mpr ⟨e, he, ?_, ?_⟩, hresolve⟩
  · omega
  · omega

/-- **A translated address resolves to where it came from**: the walk behind an offset stops at the
entry that the walk along the positions stopped at. -/
theorem Retains.resolve?_translate (h : r.Retains es) (hi : r.translate i offset = .ok flat) :
    r.resolve? flat = some ((r.tail + i) % N, offset) := by
  obtain ⟨j, offset', hj, hresolve⟩ := h.exists_translate_eq (h.lt_of_translate_eq hi)
  obtain ⟨rfl, rfl⟩ := h.eq_of_translate_eq hi hj
  exact hresolve

/-- The live entry at a position lies in the slot of that position. -/
theorem Retains.getElem?_live (h : r.Retains es) (he : r.entries[i]? = some e) :
    r.live[i]? = some ((r.tail + i) % N, e) := by
  rw [h.entries_eq] at he
  rw [h.live_eq, List.getElem?_mapIdx, he, Option.map_some]

theorem Retains.slot?_of_getElem? (h : r.Retains es) (he : r.entries[i]? = some e) :
    r.slot? ((r.tail + i) % N) = some e := by
  rw [h.entries_eq] at he
  obtain ⟨hi, rfl⟩ := List.getElem?_eq_some_iff.mp he
  have hlive : (r.tail + i) % N ∈ r.liveSlots := by
    rw [liveSlots, List.mem_map, h.size_eq]
    exact ⟨i, List.mem_range.mpr hi, rfl⟩
  rw [slot?, if_pos hlive, h.at?_retention hi]

/-- **From an address on**, the log holds the rest of the entry there and all newer entries. -/
theorem Retains.readFrom_translate (h : r.Retains es) (he : r.entries[i]? = some e)
    (hoffset : offset < e.size) :
    r.readFrom (span (r.entries.take i) + offset) =
      e.bytes.drop offset ++ ((r.entries.drop (i + 1)).map Entry.bytes).flatten := by
  rw [h.readFrom_eq, logicalLog_eq_append he, ← length_flatten_bytes, ← List.drop_drop,
    List.drop_left, List.drop_append_of_le_length (Nat.le_of_lt hoffset)]

/-! ### One name for the other -/

/-- **Addresses and flat offsets name the same bytes.** On a ring with at least one slot, after any
appends,

* an address has a flat offset just when its position is that of a live entry and its offset that
  of a byte of the entry, and the flat offset is the length of all older entries plus the offset;
* it is refused for its position when that is not below the number of live entries, and for its
  offset when there is an entry that is not longer, with the position or offset and the bound;
* different addresses have different flat offsets, in the order of the positions and then of the
  offsets, and the flat offsets are the numbers below the length of the log;
* the flat offset of an address resolves to the slot that its entry lies in and to its offset, and
  the log from there on is the rest of the entry and all newer entries. -/
theorem addresses_biject (hpos : 0 < N) (es : List Entry) (hr : r = ofList es) :
    (∀ i offset flat, r.translate i offset = .ok flat ↔
      ∃ e, i < r.size ∧ r.entries[i]? = some e ∧ offset < e.size ∧
        flat = total ((r.entries.take i).map Entry.size) + offset) ∧
    (∀ i offset cause, r.translate i offset = .error cause ↔
      r.size ≤ i ∧ cause = .indexOutOfRange i r.size ∨
        ∃ e, i < r.size ∧ r.entries[i]? = some e ∧ e.size ≤ offset ∧
          cause = .offsetOutOfRange offset e.size) ∧
    (∀ i offset j offset' flat flat', r.translate i offset = .ok flat →
      r.translate j offset' = .ok flat' →
      (flat = flat' → i = j ∧ offset = offset') ∧
        (flat < flat' ↔ i < j ∨ i = j ∧ offset < offset')) ∧
    (∀ flat, flat < r.totalBytes ↔ ∃ i offset, r.translate i offset = .ok flat) ∧
    ∀ i offset flat, r.translate i offset = .ok flat →
      ∃ slot e, r.live[i]? = some (slot, e) ∧ r.slot? slot = some e ∧
        r.resolve? flat = some (slot, offset) ∧
        r.readFrom flat =
          e.bytes.drop offset ++ ((r.entries.drop (i + 1)).map Entry.bytes).flatten := by
  have h : r.Retains es := hr ▸ retains_ofList hpos es
  have hsize : r.size = r.entries.length := by rw [h.size_eq, h.entries_eq]
  have hlive : ∀ {i e}, r.entries[i]? = some e → i < r.size := by
    intro i e he
    rw [hsize]
    exact (List.getElem?_eq_some_iff.mp he).1
  refine ⟨?_, ?_, ?_, ?_, ?_⟩
  · intro i offset flat
    rw [h.translate_eq_ok_iff]
    exact exists_congr fun e => ⟨fun ⟨he, hrest⟩ => ⟨hlive he, he, hrest⟩, fun ⟨_, hrest⟩ => hrest⟩
  · intro i offset cause
    rw [h.translate_eq_error_iff]
    refine or_congr_right (exists_congr fun e => ?_)
    exact ⟨fun ⟨he, hrest⟩ => ⟨hlive he, he, hrest⟩, fun ⟨_, hrest⟩ => hrest⟩
  · intro i offset j offset' flat flat' hi hj
    refine ⟨?_, h.translate_lt_iff hi hj⟩
    rintro rfl
    exact h.eq_of_translate_eq hi hj
  · intro flat
    constructor
    · intro hlt
      obtain ⟨i, offset, hi, -⟩ := h.exists_translate_eq hlt
      exact ⟨i, offset, hi⟩
    · rintro ⟨i, offset, hi⟩
      exact h.lt_of_translate_eq hi
  · intro i offset flat hi
    obtain ⟨e, he, hoffset, rfl⟩ := h.translate_eq_ok_iff.mp hi
    exact ⟨_, e, h.getElem?_live he, h.slot?_of_getElem? he, h.resolve?_translate hi,
      h.readFrom_translate he hoffset⟩

/-- Four entries go through a ring of three slots, and an empty one is left between two others: the
first byte behind it has the flat offset that the empty entry would have, and lies in the slot of
the entry that was evicted. -/
theorem addresses_biject_of_four :
    0 < 3 ∧ ∃ r : Ring 3, r = ofList [⟨[0x61]⟩, ⟨[0x62, 0x63]⟩, ⟨[]⟩, ⟨[0x64, 0x65]⟩] ∧
      r.translate 2 0 = .ok 2 ∧ r.translate 1 0 = .error (.offsetOutOfRange 0 0) ∧
      r.resolve? 2 = some (0, 0) ∧ r.readFrom 2 = [0x64, 0x65] := by
  obtain ⟨hok, herror, -, -, hsame⟩ := addresses_biject (N := 3) (by decide)
    [⟨[0x61]⟩, ⟨[0x62, 0x63]⟩, ⟨[]⟩, ⟨[0x64, 0x65]⟩] rfl
  have hflat := (hok 2 0 2).mpr ⟨⟨[0x64, 0x65]⟩, by decide, rfl, by decide, rfl⟩
  obtain ⟨slot, e, hlive, -, hresolve, hread⟩ := hsame 2 0 2 hflat
  obtain ⟨rfl, rfl⟩ := Prod.mk.inj (Option.some.inj hlive)
  exact ⟨by decide, _, rfl, hflat, (herror 1 0 _).mpr (.inr ⟨⟨[]⟩, by decide, rfl, by decide, rfl⟩),
    hresolve, hread⟩

end CommandLog.Ring
