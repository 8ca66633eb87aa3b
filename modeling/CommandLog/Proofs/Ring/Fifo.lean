import CommandLog.Proofs.Ring.Suffix

/-!
# A ring is a bounded queue

What goes into a ring comes out of it in the same order, as soon as there is no more room. An
append moves one entry in at the new end and, on a full ring, one entry out at the old end, so the
entries given back and the entries still listed make up what was appended.

* `CommandLog.Ring.appendAll` – appends in a row, with what each of them gave back;
* `CommandLog.Ring.Retains.conserved` – **one append loses nothing**, and
  `CommandLog.Ring.Retains.appendAll_conserved` – neither does a row of them;
* `CommandLog.Ring.Retains.given_eq` – what each append gives back;
* `CommandLog.Ring.Retains.get?_eq`, `CommandLog.Ring.Retains.slot?_eq_some_iff` and
  `CommandLog.Ring.Retains.cumulative_eq` – the live entries by position, by slot, and one after
  the other with their running ends;
* `CommandLog.Ring.bounded_fifo` – **a ring is a bounded queue**, from its making on.

Slots are told by number: the entry appended as number `k` lies in slot `k % N` or nowhere. So the
statements about slots speak of the list of all entries ever appended, and not of where the ring
happens to have its head and its tail.
-/

namespace CommandLog.Ring

variable {N : Nat} {r : Ring N} {es : List Entry}

/-! ### Appends in a row -/

/-- **Appends in a row**: what each of them gave back, and the ring after all of them. -/
def appendAll (r : Ring N) : List Entry → List (Option Entry) × Ring N
  | [] => ([], r)
  | e :: later =>
    ((r.append e).1 :: (appendAll (r.append e).2 later).1, (appendAll (r.append e).2 later).2)

theorem Retains.appendAll (h : r.Retains es) (later : List Entry) :
    (r.appendAll later).2.Retains (es ++ later) := by
  induction later generalizing r es with
  | nil => simpa [Ring.appendAll] using h
  | cons e later ih => simpa [Ring.appendAll] using ih (h.append e)

/-- **What appends in a row give back**: nothing while there is room, and then each time the entry
that came in `N` appends before. -/
theorem Retains.given_eq (h : r.Retains es) (later : List Entry) :
    (r.appendAll later).1 = (List.range later.length).map fun k =>
      if es.length + k < N then none else (es ++ later)[es.length + k - N]? := by
  induction later generalizing r es with
  | nil => rfl
  | cons e later ih =>
    have hpos := h.pos
    have hfirst : (r.append e).1 =
        if es.length < N then none else (es ++ e :: later)[es.length - N]? := by
      rw [h.evicted_eq]
      split
      · rfl
      · rw [List.getElem?_append_left (by omega)]
    rw [Ring.appendAll, ih (h.append e), List.length_cons, List.range_succ_eq_map, List.map_cons,
      List.map_map, hfirst]
    refine congrArg₂ List.cons rfl (List.map_congr_left fun k _ => ?_)
    -- the later appends have numbers one higher, counted from here
    have hnumber : (es ++ [e]).length + k = es.length + (k + 1) := by
      rw [List.length_append, List.length_singleton]
      omega
    rw [hnumber, List.append_assoc, List.singleton_append]
    rfl

/-- **One append loses nothing**: the entry that it gives back, if any, and the entries listed
afterwards are those listed before and the new one. -/
theorem Retains.conserved (h : r.Retains es) (e : Entry) :
    (r.append e).1.toList ++ (r.append e).2.entries = r.entries ++ [e] := by
  rw [h.evicted_eq, (h.append e).entries_eq, h.entries_eq, rtake_append_singleton es e h.pos]
  rcases Nat.lt_or_ge es.length N with hlt | hge
  · -- there is room, and both lists are whole
    have hdrop : es.length + 1 - N = 0 := by omega
    rw [if_pos hlt, hdrop, List.drop_zero, rtake_eq_self (Nat.le_of_lt hlt)]
    rfl
  · have hpos := h.pos
    have hin : es.length - N < es.length := by omega
    rw [if_neg (Nat.not_lt.mpr hge), rtake_eq_cons hpos hge, List.getElem?_eq_getElem hin]
    rfl

/-- **Appends in a row lose nothing**, and change no order. -/
theorem Retains.appendAll_conserved (h : r.Retains es) (later : List Entry) :
    (r.appendAll later).1.filterMap id ++ (r.appendAll later).2.entries = r.entries ++ later := by
  induction later generalizing r es with
  | nil => simp [Ring.appendAll]
  | cons e later ih =>
    have hgiven : ((r.append e).1 :: ((r.append e).2.appendAll later).1).filterMap id =
        (r.append e).1.toList ++ ((r.append e).2.appendAll later).1.filterMap id := by
      rcases (r.append e).1 with _ | old
      · rfl
      · rfl
    calc (r.appendAll (e :: later)).1.filterMap id ++ (r.appendAll (e :: later)).2.entries
        = (r.append e).1.toList ++ (((r.append e).2.appendAll later).1.filterMap id ++
            ((r.append e).2.appendAll later).2.entries) := by
          rw [Ring.appendAll, hgiven, List.append_assoc]
      _ = ((r.append e).1.toList ++ (r.append e).2.entries) ++ later := by
          rw [ih (h.append e), List.append_assoc]
      _ = r.entries ++ (e :: later) := by
          rw [h.conserved e, List.append_assoc, List.singleton_append]

/-! ### Counts -/

theorem Retains.isEmpty_iff (h : r.Retains es) : r.isEmpty = true ↔ es = [] := by
  rw [isEmpty, h.full_eq, h.head_eq, h.tail_eq, ← List.length_eq_zero_iff]
  have hpos := h.pos
  rcases Nat.lt_or_ge es.length N with hlt | hge
  · simp [hlt, Nat.not_le.mpr hlt, Nat.mod_eq_of_lt hlt]
  · simp only [hge, decide_true, Bool.not_true, Bool.false_and, Bool.false_eq_true, false_iff]
    omega

/-- **The bytes that an append counts out were counted in.** -/
theorem Retains.size_evicted_le (h : r.Retains es) {e old : Entry}
    (hold : (r.append e).1 = some old) : old.size ≤ r.totalBytes := by
  rw [h.evicted_eq] at hold
  rcases Nat.lt_or_ge es.length N with hlt | hge
  · rw [if_pos hlt] at hold
    exact absurd hold (by simp)
  · have hpos := h.pos
    have hin : es.length - N < es.length := by omega
    rw [if_neg (Nat.not_lt.mpr hge), List.getElem?_eq_getElem hin, Option.some.injEq] at hold
    rw [h.totalBytes_eq, rtake_eq_cons hpos hge, List.map_cons, total_cons, ← hold]
    exact Nat.le_add_right _ _

/-! ### Live entries, by position and by slot -/

/-- **A live entry by its position** is the one that is listed there. -/
theorem Retains.get?_eq (h : r.Retains es) (i : Nat) : r.get? i = r.entries[i]? := by
  rw [get?, h.size_eq, h.entries_eq]
  split
  · next hi => rw [h.at?_retention hi, List.getElem?_eq_getElem hi]
  · next hi => rw [List.getElem?_eq_none (Nat.not_lt.mp hi)]

theorem Retains.mem_liveSlots_iff (h : r.Retains es) {slot : Nat} :
    slot ∈ r.liveSlots ↔ ∃ i, i < (es.rtake N).length ∧ (es.length - N + i) % N = slot := by
  rw [liveSlots, List.mem_map, h.size_eq]
  constructor
  · rintro ⟨i, hi, rfl⟩
    exact ⟨i, List.mem_range.mp hi, (h.tail_add_mod i).symm⟩
  · rintro ⟨i, hi, rfl⟩
    exact ⟨i, List.mem_range.mpr hi, h.tail_add_mod i⟩

/-- **A slot holds the live entry whose number it has**, and is not live if no live entry has
it. -/
theorem Retains.slot?_eq_some_iff (h : r.Retains es) {slot : Nat} {e : Entry} :
    r.slot? slot = some e ↔
      ∃ k, k < es.length ∧ es.length ≤ k + N ∧ k % N = slot ∧ es[k]? = some e := by
  rw [slot?]
  constructor
  · intro hslot
    split at hslot
    · next hlive =>
      obtain ⟨i, hi, rfl⟩ := h.mem_liveSlots_iff.mp hlive
      rw [length_rtake] at hi
      refine ⟨es.length - N + i, by omega, by omega, rfl, ?_⟩
      rw [← h.held _ (by omega) (by omega), hslot]
    · exact absurd hslot (by simp)
  · rintro ⟨k, hk, hlate, rfl, he⟩
    -- the number, counted from the oldest live entry
    have hlive : k % N ∈ r.liveSlots := by
      refine h.mem_liveSlots_iff.mpr ⟨k - (es.length - N), ?_, ?_⟩
      · rw [length_rtake]
        omega
      · congr 1
        omega
    rw [if_pos hlive, h.held k hk hlate, he]

/-- **Each live entry with its slot and its running end.** -/
theorem Retains.cumulative_eq (h : r.Retains es) :
    r.cumulative = (es.rtake N).mapIdx fun i e =>
      ((es.length - N + i) % N, e, span ((es.rtake N).take (i + 1))) := by
  refine List.ext_getElem? fun i => ?_
  have hbefore : (r.live.take i).map (·.2) = (es.rtake N).take i := by
    rw [List.map_take, h.map_snd_live]
  rw [cumulative, getElem?_endsFrom, hbefore, h.live_eq, List.getElem?_mapIdx,
    List.getElem?_mapIdx, Option.map_map]
  refine Option.map_congr fun e he => ?_
  simp only [Function.comp_apply, h.tail_add_mod i, span_take_add_one he, Nat.zero_add]

/-! ### The queue -/

/-- **A ring is a bounded queue.** With at least one slot it can be made, and after any appends

* it lists the last `N` entries, oldest first;
* the first `N` appends have given nothing back, and each later one the entry that came in `N`
  appends before it, so that the entries given back and those listed are all entries in order;
* its counts are the number of listed entries, whether these fill it, whether there are none, the
  number of appends, and the bytes of the listed entries, which the next append cannot count below
  zero;
* a position leads to the entry listed there, and a slot to the live entry that has its number;
* each listed entry is gone through with its slot and with the bytes up to its end. -/
theorem bounded_fifo (hpos : 0 < N) (es : List Entry) :
    ∃ start : Ring N, create N = .ok start ∧ ∀ given r, start.appendAll es = (given, r) →
      r.entries = es.rtake N ∧
      given = ((List.range es.length).map fun k => if k < N then none else es[k - N]?) ∧
      given.filterMap id ++ r.entries = es ∧
      r.size = min es.length N ∧ (r.full = true ↔ N ≤ es.length) ∧
      (r.isEmpty = true ↔ es.length = 0) ∧ r.writes = es.length ∧
      r.totalBytes = total (r.entries.map Entry.size) ∧
      (∀ e old, (r.append e).1 = some old → old.size ≤ r.totalBytes) ∧
      (∀ i, r.get? i = r.entries[i]?) ∧
      (∀ slot e, r.slot? slot = some e ↔
        ∃ k, k < es.length ∧ es.length ≤ k + N ∧ k % N = slot ∧ es[k]? = some e) ∧
      r.cumulative = r.entries.mapIdx fun i e =>
        ((es.length - N + i) % N, e, total ((r.entries.take (i + 1)).map Entry.size)) := by
  refine ⟨empty, if_neg (Nat.ne_of_gt hpos), ?_⟩
  rintro given r hrun
  have hempty : (empty : Ring N).Retains [] := retains_empty hpos
  have h : r.Retains es := by
    have hafter := hempty.appendAll es
    rwa [hrun, List.nil_append] at hafter
  have hgiven := hempty.given_eq es
  have hconserved := hempty.appendAll_conserved es
  rw [hrun] at hgiven hconserved
  rw [hempty.entries_eq, List.rtake_nil, List.nil_append] at hconserved
  refine ⟨h.entries_eq, ?_, hconserved, ?_, ?_, ?_, h.writes_eq, ?_, fun e old => h.size_evicted_le,
    h.get?_eq, fun slot e => h.slot?_eq_some_iff, ?_⟩
  · simpa using hgiven
  · rw [h.size_eq, length_rtake, Nat.min_comm]
  · rw [h.full_eq, decide_eq_true_iff]
  · rw [h.isEmpty_iff, List.length_eq_zero_iff]
  · rw [h.totalBytes_eq, h.entries_eq]
  · rw [h.cumulative_eq, h.entries_eq]
    rfl

/-- Three entries, one of them empty, go through a ring of two slots: the first is given back, and
the third lies where it was. -/
theorem bounded_fifo_of_three :
    0 < 2 ∧ ∃ start : Ring 2, create 2 = .ok start ∧
      ∀ given r, start.appendAll [⟨[0x61]⟩, ⟨[]⟩, ⟨[0x62]⟩] = (given, r) →
        given = [none, none, some ⟨[0x61]⟩] ∧ r.entries = [⟨[]⟩, ⟨[0x62]⟩] ∧
        r.slot? 0 = some ⟨[0x62]⟩ := by
  obtain ⟨start, hcreate, hall⟩ :=
    bounded_fifo (N := 2) (by decide) [⟨[0x61]⟩, ⟨[]⟩, ⟨[0x62]⟩]
  refine ⟨by decide, start, hcreate, ?_⟩
  rintro given r hrun
  obtain ⟨hentries, hgiven, -, -, -, -, -, -, -, -, hslot, -⟩ := hall given r hrun
  exact ⟨hgiven, hentries, (hslot 0 _).mpr ⟨2, by decide, by decide, rfl, rfl⟩⟩

end CommandLog.Ring
