import CommandLog.Proofs.Ring.Address

/-!
# Reading from an offset

A flat offset is resolved by walking along the running ends of the live entries, and what is read
from it on starts in the slot that the walk has found. This file says what the walk finds, for any
offset, and what is read then.

* `CommandLog.Ring.Retains.resolve?_eq_none_iff` – the offsets behind the log;
* `CommandLog.Ring.Retains.resolve?_eq_some_iff` – **an offset resolves to the entry it lies in**,
  and there is only one;
* `CommandLog.Ring.Retains.resolve?_span_take` – **the boundary of two entries belongs to the next
  one that has bytes**;
* `CommandLog.Ring.reads_suffixes` – **what is read is a suffix of the logical log**, in one piece
  for each entry.

Entries without bytes are never resolved to. They are passed over in front of an offset, but behind
it they are pieces like any other.
-/

namespace CommandLog.Ring

variable {N : Nat} {r : Ring N} {es : List Entry} {offset slot inner i : Nat} {e : Entry}

/-! ### What an offset resolves to -/

/-- The length of the log is what its entries add up to. -/
theorem Retains.length_logicalLog (h : r.Retains es) : r.logicalLog.length = r.totalBytes := by
  rw [logicalLog, length_flatten_bytes, h.totalBytes_eq, h.entries_eq]
  rfl

/-- **An offset resolves to nothing** just if it lies behind the log. -/
theorem Retains.resolve?_eq_none_iff (h : r.Retains es) :
    r.resolve? offset = none ↔ r.totalBytes ≤ offset := by
  constructor
  · intro hnone
    by_contra hlt
    obtain ⟨i, inner, -, hresolve⟩ := h.exists_translate_eq (Nat.lt_of_not_le hlt)
    rw [hnone] at hresolve
    cases hresolve
  · intro hge
    exact h.resolve?_of_ge (h.totalBytes_eq.ge.trans hge)

/-- The live entry at a position, from its slot. -/
theorem Retains.of_getElem?_live (h : r.Retains es) (hlive : r.live[i]? = some (slot, e)) :
    slot = (r.tail + i) % N ∧ r.entries[i]? = some e := by
  have he : r.entries[i]? = some e := by
    rw [entries, List.getElem?_map, hlive]
    rfl
  have hslot := h.getElem?_live he
  rw [hlive] at hslot
  exact ⟨(Prod.mk.inj (Option.some.inj hslot)).1, he⟩

/-- **An offset resolves to the entry it lies in**: the slot of a live entry, and as many bytes of
it as the offset has behind all older entries. -/
theorem Retains.resolve?_eq_some_iff (h : r.Retains es) :
    r.resolve? offset = some (slot, inner) ↔
      ∃ i e, r.live[i]? = some (slot, e) ∧ inner < e.size ∧
        offset = inner + span (r.entries.take i) := by
  constructor
  · intro hsome
    have hlt : offset < r.totalBytes := by
      by_contra hge
      rw [h.resolve?_eq_none_iff.mpr (Nat.le_of_not_lt hge)] at hsome
      cases hsome
    obtain ⟨i, inner', htranslate, hresolve⟩ := h.exists_translate_eq hlt
    rw [hsome] at hresolve
    obtain ⟨rfl, rfl⟩ := Prod.mk.inj (Option.some.inj hresolve)
    obtain ⟨e, he, hinner, rfl⟩ := h.translate_eq_ok_iff.mp htranslate
    exact ⟨i, e, h.getElem?_live he, hinner, Nat.add_comm _ _⟩
  · rintro ⟨i, e, hlive, hinner, rfl⟩
    obtain ⟨rfl, he⟩ := h.of_getElem?_live hlive
    exact h.resolve?_translate
      (h.translate_eq_ok_iff.mpr ⟨e, he, hinner, Nat.add_comm _ _⟩)

/-! ### Boundaries -/

theorem span_eq_zero {es : List Entry} (hempty : ∀ e ∈ es, e.size = 0) : span es = 0 := by
  induction es with
  | nil => rfl
  | cons e es ih =>
    rw [span_cons, hempty e List.mem_cons_self,
      ih fun e' he' => hempty e' (List.mem_cons_of_mem e he')]

/-- **The boundary of two entries belongs to the next one that has bytes**, and to nothing if there
is none. -/
theorem Retains.resolve?_span_take (h : r.Retains es) (i : Nat) :
    r.resolve? (span (r.entries.take i)) =
      ((r.live.drop i).find? fun p => decide (0 < p.2.size)).map fun p => (p.1, 0) := by
  rcases hfind : (r.live.drop i).find? fun p => decide (0 < p.2.size) with _ | ⟨slot, e⟩
  · -- everything from the boundary on is empty, so the log ends there
    have hempty : span (r.entries.drop i) = 0 := by
      refine span_eq_zero fun e he => ?_
      rw [entries, ← List.map_drop] at he
      obtain ⟨p, hp, rfl⟩ := List.mem_map.mp he
      have hnot := List.find?_eq_none.mp hfind p hp
      simpa using hnot
    have hwhole : r.totalBytes = span (r.entries.take i) + span (r.entries.drop i) := by
      rw [← span_append, List.take_append_drop, h.totalBytes_eq, h.entries_eq]
      rfl
    rw [hfind, h.resolve?_eq_none_iff.mpr (by omega), Option.map_none]
  · obtain ⟨hsize, passed, later, hdrop, hpassed⟩ := List.find?_eq_some_iff_append.mp hfind
    have hlive : r.live[i + passed.length]? = some (slot, e) := by
      rw [← List.getElem?_drop, hdrop]
      simp
    -- what is passed over is empty, so the entry begins at the boundary as well
    have hbetween : (r.entries.drop i).take passed.length = passed.map (·.2) := by
      rw [entries, ← List.map_drop, hdrop, List.map_append]
      exact List.take_left' (List.length_map _)
    have hspan : span (r.entries.take (i + passed.length)) = span (r.entries.take i) := by
      have hempty : span (passed.map (·.2)) = 0 := by
        refine span_eq_zero fun e' he' => ?_
        obtain ⟨p, hp, rfl⟩ := List.mem_map.mp he'
        simpa using hpassed p hp
      rw [List.take_add, span_append, hbetween, hempty, Nat.add_zero]
    rw [hfind, Option.map_some]
    exact h.resolve?_eq_some_iff.mpr
      ⟨_, e, hlive, by simpa using hsize, by rw [hspan, Nat.zero_add]⟩

/-! ### What is read -/

/-- **What is read from an offset on is a suffix of the logical log.** On a ring with at least one
slot, after any appends and for any offset,

* the offset resolves to nothing just if it is not below the length of the log, and to a slot with
  an offset inside just if the slot holds a live entry, the offset inside is that of one of its
  bytes, and the lengths of all older entries make up the rest;
* if it is the boundary in front of an entry, it resolves to the first byte of the next entry that
  has one;
* no piece is read behind the log. Otherwise the first piece is cut from the entry that the offset
  resolves to, which is the one found where the slot says, in front of one of its bytes, and the
  other pieces are all newer entries;
* the pieces together are the logical log without as many bytes at its front. -/
theorem reads_suffixes (hpos : 0 < N) (es : List Entry) (hr : r = ofList es) (offset : Nat) :
    (r.resolve? offset = none ↔ r.logicalLog.length ≤ offset) ∧
    (∀ slot inner, r.resolve? offset = some (slot, inner) ↔
      ∃ i e, r.live[i]? = some (slot, e) ∧ r.slot? slot = some e ∧ inner < e.size ∧
        offset = inner + total ((r.entries.take i).map Entry.size)) ∧
    (∀ i, offset = total ((r.entries.take i).map Entry.size) →
      r.resolve? offset =
        ((r.live.drop i).find? fun p => decide (0 < p.2.size)).map fun p => (p.1, 0)) ∧
    (r.logicalLog.length ≤ offset → r.chunksFrom offset = []) ∧
    (offset < r.logicalLog.length → ∃ slot inner i e,
      r.resolve? offset = some (slot, inner) ∧ r.live[i]? = some (slot, e) ∧
        r.entries.drop ((slot + N - r.tail) % N) = e :: r.entries.drop (i + 1) ∧
        inner < e.bytes.length ∧
        r.chunksFrom offset =
          e.bytes.drop inner :: (r.entries.drop (i + 1)).map Entry.bytes) ∧
    r.readFrom offset = r.logicalLog.drop offset := by
  have h : r.Retains es := hr ▸ retains_ofList hpos es
  rw [h.length_logicalLog]
  refine ⟨h.resolve?_eq_none_iff, ?_, ?_, ?_, ?_, h.readFrom_eq offset⟩
  · intro slot inner
    rw [h.resolve?_eq_some_iff]
    refine exists_congr fun i => exists_congr fun e => and_congr_right fun hlive => ?_
    obtain ⟨rfl, he⟩ := h.of_getElem?_live hlive
    exact (and_iff_right (h.slot?_of_getElem? he)).symm
  · rintro i rfl
    exact h.resolve?_span_take i
  · intro hge
    exact h.chunksFrom_of_ge (h.totalBytes_eq.ge.trans hge)
  · intro hlt
    obtain ⟨i, inner, htranslate, hresolve⟩ := h.exists_translate_eq hlt
    obtain ⟨e, he, hinner, -⟩ := h.translate_eq_ok_iff.mp htranslate
    exact ⟨_, inner, i, e, hresolve, h.getElem?_live he, h.drop_position he, hinner,
      h.chunksFrom_eq he hresolve⟩

/-- A ring of three slots that has wrapped around, with an empty entry in the middle: the boundary
in front of it belongs to the newest entry, which lies in the first slot, and the pieces from the
last byte of the oldest one on are that byte, nothing, and the newest entry. -/
theorem reads_suffixes_of_four :
    0 < 3 ∧ ∃ r : Ring 3, r = ofList [⟨[0x61]⟩, ⟨[0x62, 0x63]⟩, ⟨[]⟩, ⟨[0x64, 0x65]⟩] ∧
      r.resolve? 2 = some (0, 0) ∧ r.resolve? 4 = none ∧
      r.chunksFrom 1 = [[0x63], [], [0x64, 0x65]] ∧ r.readFrom 1 = [0x63, 0x64, 0x65] := by
  have hreads := reads_suffixes (N := 3) (by decide)
    [⟨[0x61]⟩, ⟨[0x62, 0x63]⟩, ⟨[]⟩, ⟨[0x64, 0x65]⟩] rfl
  obtain ⟨-, -, hboundary, -⟩ := hreads 2
  obtain ⟨hbehind, -⟩ := hreads 4
  obtain ⟨-, hresolve, -, -, hpieces, hread⟩ := hreads 1
  refine ⟨by decide, _, rfl, hboundary 1 rfl, hbehind.mpr (by decide), ?_, hread⟩
  obtain ⟨slot, inner, i, e, hsome, hlive, hdrop, -, hchunks⟩ := hpieces (by decide)
  have hfirst := (hresolve 1 1).mpr ⟨0, ⟨[0x62, 0x63]⟩, rfl, rfl, by decide, rfl⟩
  rw [hsome] at hfirst
  obtain ⟨rfl, rfl⟩ := Prod.mk.inj (Option.some.inj hfirst)
  obtain ⟨rfl, hnewer⟩ := List.cons.inj hdrop
  rw [hchunks, ← hnewer]
  rfl

end CommandLog.Ring
