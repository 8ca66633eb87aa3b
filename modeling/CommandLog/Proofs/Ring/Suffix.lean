import CommandLog.Proofs.Ring.Retention

/-!
# Suffixes of the logical log

Positions in the log are counted in two ways: as a flat offset into the concatenation of the live
entries, and as the number of an entry with an offset inside it. This file goes through both
walks over the running ends of the entries.

* `CommandLog.Ring.getElem?_endsFrom` – the running end of the entry at a position;
* `CommandLog.Ring.find?_endsFrom` – the first entry whose end lies behind an offset;
* `CommandLog.Ring.Retains.translate_eq` – **a command address** is the length of what comes
  before the entry, plus the offset, or out of range in one of two ways;
* `CommandLog.Ring.Retains.resolve?_of_lt` – the entry that holds an offset, and its slot;
* `CommandLog.Ring.Retains.chunksFrom_eq` – the pieces that are read from an offset on, one for
  each entry, and `CommandLog.Ring.Retains.readFrom_eq` – **reading from an offset** gives the
  logical log without its first bytes, whatever the offset.

The second walk finds a slot and not a position, and the position is recovered from the slot by a
subtraction modulo the capacity (`CommandLog.Ring.Retains.position_of_slot`); it is only here that
the wrap-around matters.
-/

namespace CommandLog.Ring

variable {N : Nat} {r : Ring N} {es : List Entry}

/-- The lengths of some entries, added up. -/
def span (es : List Entry) : Nat :=
  total (es.map Entry.size)

@[simp] theorem span_nil : span [] = 0 := rfl

@[simp] theorem span_cons (e : Entry) (es : List Entry) : span (e :: es) = e.size + span es := rfl

@[simp] theorem span_append (es later : List Entry) : span (es ++ later) = span es + span later := by
  simp [span]

/-- An entry ends behind those that come before it. -/
theorem span_take_add_one {es : List Entry} {i : Nat} {e : Entry} (he : es[i]? = some e) :
    span (es.take (i + 1)) = span (es.take i) + e.size := by
  rw [List.take_add_one, he, span_append, Option.toList_some, span_cons, span_nil, Nat.add_zero]

theorem length_flatten_bytes (es : List Entry) : (es.map Entry.bytes).flatten.length = span es := by
  induction es with
  | nil => rfl
  | cons e es ih => simp [ih, Entry.size]

/-! ### Running ends -/

theorem getElem?_endsFrom (start : Nat) (l : List (Nat × Entry)) (i : Nat) :
    (endsFrom start l)[i]? =
      l[i]?.map fun p => (p.1, p.2, start + span ((l.take i).map (·.2)) + p.2.size) := by
  induction l generalizing start i with
  | nil => rfl
  | cons p l ih =>
    obtain ⟨slot, e⟩ := p
    cases i with
    | zero => simp [endsFrom]
    | succ i => simp [endsFrom, ih, Nat.add_assoc]

/-- **The first entry that ends behind an offset**: what comes before it ends at the offset or
earlier, and the offset lies inside. -/
theorem find?_endsFrom (start : Nat) {offset : Nat} {l : List (Nat × Entry)}
    (hstart : start ≤ offset) (hlt : offset < start + span (l.map (·.2))) :
    ∃ older slot e newer, l = older ++ (slot, e) :: newer ∧
      start + span (older.map (·.2)) ≤ offset ∧
      offset < start + span (older.map (·.2)) + e.size ∧
      (endsFrom start l).find? (fun (_, _, stop) => decide (offset < stop)) =
        some (slot, e, start + span (older.map (·.2)) + e.size) := by
  induction l generalizing start with
  | nil => simp at hlt; omega
  | cons p l ih =>
    obtain ⟨slot, e⟩ := p
    -- the offset lies in the first entry, or behind it
    by_cases hin : offset < start + e.size
    · exact ⟨[], slot, e, l, rfl, by simpa using hstart, by simpa using hin, by
        simp [endsFrom, hin]⟩
    · simp only [List.map_cons, span_cons] at hlt
      obtain ⟨older, slot', e', newer, rfl, hle, hlt', hfind⟩ :=
        ih (start + e.size) (by omega) (by omega)
      refine ⟨(slot, e) :: older, slot', e', newer, rfl, ?_, ?_, ?_⟩
      · simp only [List.map_cons, span_cons]
        omega
      · simp only [List.map_cons, span_cons]
        omega
      · simp [endsFrom, hin, hfind, Nat.add_assoc]

theorem find?_endsFrom_eq_none (start : Nat) {offset : Nat} {l : List (Nat × Entry)}
    (hge : start + span (l.map (·.2)) ≤ offset) :
    (endsFrom start l).find? (fun (_, _, stop) => decide (offset < stop)) = none := by
  induction l generalizing start with
  | nil => rfl
  | cons p l ih =>
    obtain ⟨slot, e⟩ := p
    simp only [List.map_cons, span_cons] at hge
    have hout : ¬offset < start + e.size := by omega
    simp [endsFrom, hout, ih (start + e.size) (by omega)]

/-! ### Command addresses -/

/-- The live entries, without their slots. -/
theorem Retains.map_snd_live (h : r.Retains es) : r.live.map (·.2) = es.rtake N :=
  h.entries_eq

/-- **The flat offset of a command address**: what comes before the entry, and then the offset. An
address is out of range by its entry or by its offset, and in no other way. -/
theorem Retains.translate_eq (h : r.Retains es) (index offset : Nat) :
    r.translate index offset =
      match (es.rtake N)[index]? with
      | none => .error (.indexOutOfRange index (es.rtake N).length)
      | some e =>
        if offset < e.size then .ok (span ((es.rtake N).take index) + offset)
        else .error (.offsetOutOfRange offset e.size) := by
  have hentry : (es.rtake N)[index]? = r.live[index]?.map (·.2) := by
    rw [← h.map_snd_live, List.getElem?_map]
  have hbefore : (r.live.take index).map (·.2) = (es.rtake N).take index := by
    rw [← h.map_snd_live, List.map_take]
  rw [translate, cumulative, getElem?_endsFrom, hentry, hbefore, h.size_eq]
  cases r.live[index]? with
  | none => rfl
  | some p => simp

/-! ### Flat offsets -/

theorem Retains.tail_lt (h : r.Retains es) : r.tail < N := by
  rw [h.tail_eq]
  split
  · exact h.pos
  · exact Nat.mod_lt _ h.pos

/-- The position of a live entry, from the slot that it lies in. -/
theorem Retains.position_of_slot (h : r.Retains es) {i : Nat} (hi : i < N) :
    ((r.tail + i) % N + N - r.tail) % N = i := by
  have htail := h.tail_lt
  rcases Nat.lt_or_ge (r.tail + i) N with hlt | hge
  · rw [Nat.mod_eq_of_lt hlt]
    have hsum : r.tail + i + N - r.tail = i + N := by omega
    rw [hsum, Nat.add_mod_right, Nat.mod_eq_of_lt hi]
  · -- the last slot lies between the tail and this one
    have hwrap : (r.tail + i) % N = r.tail + i - N := by
      rw [Nat.mod_eq_sub_mod hge, Nat.mod_eq_of_lt (by omega)]
    have hsum : r.tail + i - N + N - r.tail = i := by omega
    rw [hwrap, hsum, Nat.mod_eq_of_lt hi]

/-- The slot of a live entry, from what comes before it. -/
theorem Retains.slot_of_live (h : r.Retains es) {older newer : List (Nat × Entry)} {slot : Nat}
    {e : Entry} (hlive : r.live = older ++ (slot, e) :: newer) :
    slot = (r.tail + older.length) % N := by
  have hat : r.live[older.length]? = some (slot, e) := by simp [hlive]
  rw [h.live_eq, List.getElem?_mapIdx, Option.map_eq_some_iff] at hat
  obtain ⟨_, -, hpair⟩ := hat
  exact (congrArg Prod.fst hpair).symm

/-- A cut inside the second of three pieces. -/
theorem drop_append_append {a b c : Bytes} {n : Nat} (ha : a.length ≤ n)
    (hb : n ≤ a.length + b.length) : (a ++ (b ++ c)).drop n = b.drop (n - a.length) ++ c := by
  rw [List.drop_append, List.drop_eq_nil_of_le ha, List.nil_append,
    List.drop_append_of_le_length (by omega)]

/-- **The entry that holds an offset**, by its position: the offset resolves to the slot of that
entry, and to what is left of the offset behind the entries that come before. -/
theorem Retains.resolve?_of_lt (h : r.Retains es) {offset : Nat}
    (hlt : offset < span (es.rtake N)) :
    ∃ i e, r.entries[i]? = some e ∧ span (r.entries.take i) ≤ offset ∧
      offset < span (r.entries.take i) + e.size ∧
      r.resolve? offset = some ((r.tail + i) % N, offset - span (r.entries.take i)) := by
  rw [← h.map_snd_live] at hlt
  obtain ⟨older, slot, e, newer, hlive, hle, hin, hfind⟩ :=
    find?_endsFrom 0 (Nat.zero_le offset) (by simpa using hlt)
  simp only [Nat.zero_add] at hle hin hfind
  have hentries : r.entries = older.map (·.2) ++ e :: newer.map (·.2) := by
    rw [entries, hlive, List.map_append, List.map_cons]
  have hbefore : r.entries.take older.length = older.map (·.2) := by
    rw [hentries]
    simp
  have hresolve : r.resolve? offset = some (slot, offset - span (older.map (·.2))) := by
    rw [resolve?, cumulative, hfind]
    simp
  refine ⟨older.length, e, ?_, hbefore ▸ hle, hbefore ▸ hin, ?_⟩
  · rw [hentries]
    simp
  · rw [hresolve, hbefore, h.slot_of_live hlive]

/-- Fewer entries are live than there are slots. -/
theorem Retains.lt_of_getElem? (h : r.Retains es) {i : Nat} {e : Entry}
    (he : r.entries[i]? = some e) : i < N := by
  have hlt := (List.getElem?_eq_some_iff.mp he).1
  rw [h.entries_eq] at hlt
  exact Nat.lt_of_lt_of_le hlt (length_rtake_le es)

/-- An offset behind the log resolves to nothing. -/
theorem Retains.resolve?_of_ge (h : r.Retains es) {offset : Nat}
    (hge : span (es.rtake N) ≤ offset) : r.resolve? offset = none := by
  rw [resolve?, cumulative, find?_endsFrom_eq_none 0 (by simpa [h.map_snd_live] using hge)]
  rfl

/-! ### Reading -/

theorem drop_entries_eq_cons {i : Nat} {e : Entry} (he : r.entries[i]? = some e) :
    r.entries.drop i = e :: r.entries.drop (i + 1) := by
  obtain ⟨hi, hget⟩ := List.getElem?_eq_some_iff.mp he
  rw [List.drop_eq_getElem_cons hi, hget]

/-- **The log, split at an entry**: what comes before it, the entry itself, and what comes after. -/
theorem logicalLog_eq_append {i : Nat} {e : Entry} (he : r.entries[i]? = some e) :
    r.logicalLog = ((r.entries.take i).map Entry.bytes).flatten ++
      (e.bytes ++ ((r.entries.drop (i + 1)).map Entry.bytes).flatten) := by
  conv_lhs => rw [logicalLog, ← List.take_append_drop i r.entries, drop_entries_eq_cons he]
  rw [List.map_append, List.map_cons, List.flatten_append, List.flatten_cons]

/-- **The slot tells how many entries come before**: leaving out as many brings back the entry. -/
theorem Retains.drop_position (h : r.Retains es) {i : Nat} {e : Entry}
    (he : r.entries[i]? = some e) :
    r.entries.drop (((r.tail + i) % N + N - r.tail) % N) = e :: r.entries.drop (i + 1) := by
  rw [h.position_of_slot (h.lt_of_getElem? he), drop_entries_eq_cons he]

/-- **The pieces of the log from an offset on**: the rest of the entry that it resolves to, and
every newer entry. -/
theorem Retains.chunksFrom_eq (h : r.Retains es) {offset inner i : Nat} {e : Entry}
    (he : r.entries[i]? = some e) (hresolve : r.resolve? offset = some ((r.tail + i) % N, inner)) :
    r.chunksFrom offset =
      e.bytes.drop inner :: (r.entries.drop (i + 1)).map Entry.bytes := by
  simp only [chunksFrom, hresolve, h.drop_position he]

/-- The pieces of the log from an offset on, together. -/
theorem Retains.readFrom_of_lt (h : r.Retains es) {offset : Nat}
    (hlt : offset < span (es.rtake N)) : r.readFrom offset = r.logicalLog.drop offset := by
  obtain ⟨i, e, he, hle, hin, hresolve⟩ := h.resolve?_of_lt hlt
  have hfront := length_flatten_bytes (r.entries.take i)
  have hdropLog := drop_append_append
    (c := ((r.entries.drop (i + 1)).map Entry.bytes).flatten)
    (hfront.le.trans hle) (hin.le.trans_eq (congrArg (· + e.size) hfront.symm))
  rw [hfront] at hdropLog
  rw [readFrom, h.chunksFrom_eq he hresolve, List.flatten_cons, logicalLog_eq_append he, hdropLog]

/-- There are no pieces of the log behind its end. -/
theorem Retains.chunksFrom_of_ge (h : r.Retains es) {offset : Nat}
    (hge : span (es.rtake N) ≤ offset) : r.chunksFrom offset = [] := by
  rw [chunksFrom, h.resolve?_of_ge hge]

/-- **Reading from an offset**: the logical log without as many bytes at its front, and nothing
when there are no more. -/
theorem Retains.readFrom_eq (h : r.Retains es) (offset : Nat) :
    r.readFrom offset = r.logicalLog.drop offset := by
  rcases Nat.lt_or_ge offset (span (es.rtake N)) with hlt | hge
  · exact h.readFrom_of_lt hlt
  · rw [readFrom, h.chunksFrom_of_ge hge, h.logicalLog_eq,
      List.drop_eq_nil_of_le (by rw [length_flatten_bytes]; exact hge)]
    rfl

end CommandLog.Ring
