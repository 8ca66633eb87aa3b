import CommandLog.Ring.Offset
import CommandLog.Total
import Mathlib.Data.List.DropRight

/-!
# What a ring retains

A ring of `N` slots holds the last `N` entries ever appended. The whole point is one invariant,
`CommandLog.Ring.Retains`, which ties the positions, the flag, the counts and the slots of a ring
to the list of *all* entries appended to it: the entry appended as number `i` lies in slot
`i % N` until number `i + N` takes the slot over. Everything else about a ring is read off it.

* `CommandLog.Ring.Retains.append` – an append keeps the invariant, for the list with one entry
  more (`CommandLog.Ring.retains_ofList` for a whole list);
* `CommandLog.Ring.Retains.live_eq` – the live entries with their slots are the last `N` entries;
* `CommandLog.Ring.Retains.entries_eq`, `CommandLog.Ring.Retains.size_eq` and
  `CommandLog.Ring.Retains.evicted_eq` – what is listed, how much of it, and what gives way.

The head and the tail are remainders, and equal ones both when nothing and when everything is
live; so the two cases are told apart by the number of appends and never by the positions.
-/

namespace CommandLog.Ring

variable {N : Nat}

/-- **A ring after all entries of a list were appended to it.** -/
structure Retains (r : Ring N) (es : List Entry) : Prop where
  /-- There is a slot. -/
  pos : 0 < N
  /-- The next entry goes to the slot of its number. -/
  head_eq : r.head = es.length % N
  /-- The oldest live entry is the first one, or the one whose slot is next. -/
  tail_eq : r.tail = if es.length < N then 0 else es.length % N
  /-- Every slot is live as soon as there were enough entries. -/
  full_eq : r.full = decide (N ≤ es.length)
  /-- Each of the last entries lies in the slot of its number. -/
  held : ∀ i, i < es.length → es.length ≤ i + N → r.at? (i % N) = es[i]?
  /-- The bytes of the last entries are counted. -/
  totalBytes_eq : r.totalBytes = total ((es.rtake N).map Entry.size)
  /-- All entries are counted. -/
  writes_eq : r.writes = es.length

theorem retains_empty (h : 0 < N) : (empty : Ring N).Retains [] where
  pos := h
  head_eq := by simp [empty]
  tail_eq := by simp [empty, h]
  full_eq := by simp [empty, Nat.not_le.mpr h]
  held := by simp
  totalBytes_eq := by simp [empty]
  writes_eq := rfl

/-! ### One more entry -/

theorem rtake_append_singleton {α : Type} (l : List α) (x : α) (h : 0 < N) :
    (l ++ [x]).rtake N = (l.drop (l.length + 1 - N)) ++ [x] := by
  rw [List.rtake, List.length_append, List.length_singleton, List.drop_append_of_le_length]
  omega

/-- The last entries without the oldest of them. -/
theorem rtake_eq_cons {α : Type} {l : List α} (h : 0 < N) (hl : N ≤ l.length) :
    l.rtake N = l.get ⟨l.length - N, by omega⟩ :: l.drop (l.length + 1 - N) := by
  have hlt : l.length - N < l.length := by omega
  have hsucc : l.length - N + 1 = l.length + 1 - N := by omega
  rw [List.rtake, List.drop_eq_getElem_cons hlt, hsucc, List.get_eq_getElem]

theorem rtake_eq_self {α : Type} {l : List α} (hl : l.length ≤ N) : l.rtake N = l := by
  rw [List.rtake, Nat.sub_eq_zero_of_le hl, List.drop_zero]

/-- The last entries are determined by the last ones so far and the new ones. -/
theorem rtake_rtake_append {α : Type} (l l' : List α) :
    (l.rtake N ++ l').rtake N = (l ++ l').rtake N := by
  simp only [List.rtake, List.length_append, List.length_drop, List.drop_append, List.drop_drop]
  congr 2 <;> omega

theorem rtake_rtake {α : Type} (l : List α) : (l.rtake N).rtake N = l.rtake N := by
  have h := rtake_rtake_append (N := N) l []
  rwa [List.append_nil, List.append_nil] at h

theorem map_rtake {α β : Type} (f : α → β) (l : List α) : (l.map f).rtake N = (l.rtake N).map f := by
  rw [List.rtake, List.rtake, List.length_map, List.map_drop]

/-- Nothing is lost by keeping the last entries twice. -/
theorem rtake_map_rtake {α β : Type} (f : α → β) (l : List α) :
    ((l.rtake N).map f).rtake N = (l.map f).rtake N := by
  rw [map_rtake, rtake_rtake, ← map_rtake]

/-- Whoever has the same last entries still has them after the same new ones. -/
theorem rtake_append_congr {α : Type} {l l' : List α} (h : l.rtake N = l'.rtake N)
    (later : List α) : (l ++ later).rtake N = (l' ++ later).rtake N := by
  rw [← rtake_rtake_append l, h, rtake_rtake_append]

/-- What has few things behind it is among the last. -/
theorem mem_rtake_of_length_lt {α : Type} {l l' : List α} (x : α) (h : l'.length < N) :
    x ∈ (l ++ x :: l').rtake N := by
  have hle : (l ++ x :: l').length - N ≤ l.length := by
    rw [List.length_append, List.length_cons]
    omega
  rw [List.rtake, List.drop_append_of_le_length hle]
  exact List.mem_append_right _ List.mem_cons_self

theorem length_rtake {α : Type} (l : List α) : (l.rtake N).length = min N l.length := by
  rw [List.rtake, List.length_drop]
  omega

theorem length_rtake_le {α : Type} (l : List α) : (l.rtake N).length ≤ N := by
  rw [length_rtake]
  exact Nat.min_le_left N _

/-- On a full ring the slot that is emptied is the one that is written next. -/
theorem at?_append (r : Ring N) (e : Entry) (h : r.head < N)
    (htail : r.full = true → r.tail = r.head) (slot : Nat) :
    (r.append e).2.at? slot = if slot = r.head then some e else r.at? slot := by
  simp only [append, at?, Vector.getElem?_setIfInBounds]
  by_cases hs : slot = r.head
  · simp [hs, h]
  · by_cases hfull : r.full = true
    · simp [hs, Ne.symm hs, hfull, htail hfull]
    · simp [hs, Ne.symm hs, hfull]

variable {r : Ring N} {es : List Entry}

theorem Retains.head_lt (h : r.Retains es) : r.head < N := by
  rw [h.head_eq]
  exact Nat.mod_lt _ h.pos

/-- The head and the tail of a full ring are one slot. -/
theorem Retains.tail_eq_head (h : r.Retains es) (hfull : r.full = true) : r.tail = r.head := by
  rw [h.full_eq, decide_eq_true_iff] at hfull
  rw [h.tail_eq, h.head_eq, if_neg (Nat.not_lt.mpr hfull)]

/-- The slot of the oldest live entry of a full ring holds the entry that comes before the last
`N - 1`. -/
theorem Retains.at?_tail (h : r.Retains es) (hfull : N ≤ es.length) :
    r.at? r.tail = es[es.length - N]? := by
  have hmod : (es.length - N) % N = es.length % N := by
    have := Nat.add_mod_right (es.length - N) N
    rwa [Nat.sub_add_cancel hfull, eq_comm] at this
  have hpos := h.pos
  rw [h.tail_eq, if_neg (Nat.not_lt.mpr hfull), ← hmod]
  exact h.held _ (by omega) (by omega)

/-- **What an append evicts**: nothing while there is room, and then the entries in the order of
their appends. -/
theorem Retains.evicted_eq (h : r.Retains es) (e : Entry) :
    (r.append e).1 = if es.length < N then none else es[es.length - N]? := by
  rcases Nat.lt_or_ge es.length N with hlt | hge
  · simp [append, h.full_eq, hlt, Nat.not_le.mpr hlt]
  · simp [append, h.full_eq, hge, Nat.not_lt.mpr hge, h.at?_tail hge]

/-- The tail goes on by one slot when the ring is full and stays at the first slot otherwise. -/
theorem Retains.tail_append (h : r.Retains es) (e : Entry) :
    (r.append e).2.tail = if es.length + 1 < N then 0 else (es.length + 1) % N := by
  have htail : (r.append e).2.tail = if r.full then (r.tail + 1) % N else r.tail := rfl
  rw [htail, h.full_eq, h.tail_eq]
  rcases Nat.lt_trichotomy (es.length + 1) N with hlt | heq | hgt
  · simp [hlt, Nat.not_le.mpr (Nat.lt_of_succ_lt hlt)]
  · simp [heq, show es.length < N by omega, Nat.not_le.mpr (show es.length < N by omega)]
  · simp [Nat.not_lt.mpr (show N ≤ es.length by omega), show N ≤ es.length by omega,
      Nat.not_lt.mpr (Nat.le_of_lt hgt)]

/-- An append counts the new bytes in and those of the evicted entry out. -/
theorem Retains.totalBytes_append (h : r.Retains es) (e : Entry) :
    (r.append e).2.totalBytes = total (((es ++ [e]).rtake N).map Entry.size) := by
  have htotal : (r.append e).2.totalBytes =
      r.totalBytes - (((r.append e).1.map Entry.size).getD 0) + e.size := rfl
  rw [htotal, h.evicted_eq, h.totalBytes_eq, rtake_append_singleton es e h.pos]
  rcases Nat.lt_or_ge es.length N with hlt | hge
  · have hdrop : es.length + 1 - N = 0 := by omega
    simp [hlt, hdrop, rtake_eq_self (Nat.le_of_lt hlt)]
  · have hin : es.length - N < es.length := by
      have := h.pos
      omega
    simp [Nat.not_lt.mpr hge, rtake_eq_cons h.pos hge, List.getElem?_eq_getElem hin]

/-- The slots after an append: the newest entry has taken the slot of its number, and no other of
the last `N` entries lay there. -/
theorem Retains.held_append (h : r.Retains es) (e : Entry) (i : Nat) (hi : i < (es ++ [e]).length)
    (hlate : (es ++ [e]).length ≤ i + N) :
    (r.append e).2.at? (i % N) = (es ++ [e])[i]? := by
  rw [List.length_append, List.length_singleton] at hi hlate
  rw [at?_append r e h.head_lt h.tail_eq_head, h.head_eq]
  rcases Nat.lt_or_ge i es.length with hlt | hge
  · -- numbers less than `N` apart have different slots
    have hne : i % N ≠ es.length % N := by
      intro hmod
      have hdvd : N ∣ es.length - i :=
        Nat.dvd_of_mod_eq_zero (Nat.sub_mod_eq_zero_of_mod_eq hmod.symm)
      have := Nat.le_of_dvd (by omega) hdvd
      omega
    rw [if_neg hne, h.held i hlt (by omega), List.getElem?_append_left hlt]
  · obtain rfl : i = es.length := by omega
    rw [if_pos rfl, List.getElem?_concat_length]

/-- **An append keeps the invariant.** -/
theorem Retains.append (h : r.Retains es) (e : Entry) : (r.append e).2.Retains (es ++ [e]) where
  pos := h.pos
  head_eq := by
    have hhead : (r.append e).2.head = (r.head + 1) % N := rfl
    rw [hhead, h.head_eq, List.length_append, List.length_singleton, Nat.mod_add_mod]
  tail_eq := by
    rw [h.tail_append, List.length_append, List.length_singleton]
  full_eq := by
    have hhead : (r.append e).2.full = ((r.head + 1) % N == (r.append e).2.tail) := rfl
    rw [hhead, h.tail_append, h.head_eq, Nat.mod_add_mod, List.length_append,
      List.length_singleton]
    rcases Nat.lt_or_ge (es.length + 1) N with hlt | hge
    · rw [if_pos hlt, Nat.mod_eq_of_lt hlt]
      simp [Nat.not_le.mpr hlt]
    · rw [if_neg (Nat.not_lt.mpr hge)]
      simp [hge]
  held := h.held_append e
  totalBytes_eq := h.totalBytes_append e
  writes_eq := by
    have hwrites : (r.append e).2.writes = r.writes + 1 := rfl
    rw [hwrites, h.writes_eq, List.length_append, List.length_singleton]

theorem Retains.foldl (h : r.Retains es) (later : List Entry) :
    (later.foldl (fun r e => (r.append e).2) r).Retains (es ++ later) := by
  induction later generalizing r es with
  | nil => simpa using h
  | cons e later ih => simpa using ih (h.append e)

/-- **A ring made from a list retains the end of it.** -/
theorem retains_ofList (h : 0 < N) (es : List Entry) : (ofList es : Ring N).Retains es := by
  exact (retains_empty h).foldl es

/-! ### What is listed -/

theorem Retains.size_eq (h : r.Retains es) : r.size = (es.rtake N).length := by
  rw [size, h.full_eq, h.head_eq, h.tail_eq, length_rtake]
  rcases Nat.lt_or_ge es.length N with hlt | hge
  · simp [hlt, Nat.not_le.mpr hlt, Nat.mod_eq_of_lt hlt, Nat.min_eq_right (Nat.le_of_lt hlt)]
  · simp [hge]

/-- The slot at a retention position is that of the number which the entry there had among all
entries ever appended. -/
theorem Retains.tail_add_mod (h : r.Retains es) (i : Nat) :
    (r.tail + i) % N = (es.length - N + i) % N := by
  rw [h.tail_eq]
  rcases Nat.lt_or_ge es.length N with hlt | hge
  · rw [if_pos hlt, Nat.sub_eq_zero_of_le (Nat.le_of_lt hlt)]
  · have hround := Nat.add_mod_right (es.length - N + i) N
    have hsum : es.length - N + i + N = es.length + i := by omega
    rw [if_neg (Nat.not_lt.mpr hge), Nat.mod_add_mod, ← hround, hsum]

/-- The slot at a retention position holds the entry at that position. -/
theorem Retains.at?_retention (h : r.Retains es) {i : Nat} (hi : i < (es.rtake N).length) :
    r.at? ((r.tail + i) % N) = some (es.rtake N)[i] := by
  have hlen : (es.rtake N).length = es.length - (es.length - N) := by
    rw [List.rtake, List.length_drop]
  have hin : es.length - N + i < es.length := by omega
  rw [h.tail_add_mod i, h.held _ hin (by omega), List.getElem?_eq_getElem hin]
  simp [List.rtake]

/-- **The live entries with their slots**: the last `N` entries, from the slot of the oldest one
on. -/
theorem Retains.live_eq (h : r.Retains es) :
    r.live = (es.rtake N).mapIdx fun i e => ((r.tail + i) % N, e) := by
  have hslots : r.liveSlots.map (fun slot => (r.at? slot).map (slot, ·)) =
      ((es.rtake N).mapIdx fun i e => ((r.tail + i) % N, e)).map some := by
    refine List.ext_getElem (by simp [liveSlots, h.size_eq]) ?_
    rintro i hi -
    have hin : i < (es.rtake N).length := by simpa [liveSlots, h.size_eq] using hi
    simp [liveSlots, h.at?_retention hin]
  -- every live slot holds an entry, so leaving out empty ones leaves out nothing
  have hlive : r.live = (r.liveSlots.map fun slot => (r.at? slot).map (slot, ·)).filterMap id := by
    rw [List.filterMap_map]
    rfl
  rw [hlive, hslots, List.filterMap_map]
  exact List.filterMap_some

/-- **A ring lists the last `N` entries**, oldest first. -/
theorem Retains.entries_eq (h : r.Retains es) : r.entries = es.rtake N := by
  rw [entries, h.live_eq]
  refine List.ext_getElem (by simp) ?_
  intro i _ _
  simp

/-- **Rings that retain the same entries** cannot be told apart by what they list, by their number
of bytes or by whether they are full. -/
theorem Retains.alike {r' : Ring N} {es' : List Entry} (h : r.Retains es) (h' : r'.Retains es')
    (hsame : es.rtake N = es'.rtake N) :
    r.entries = r'.entries ∧ r.totalBytes = r'.totalBytes ∧ r.full = r'.full := by
  refine ⟨?_, ?_, ?_⟩
  · rw [h.entries_eq, h'.entries_eq, hsame]
  · rw [h.totalBytes_eq, h'.totalBytes_eq, hsame]
  · have hlength := congrArg List.length hsame
    rw [length_rtake, length_rtake] at hlength
    rw [h.full_eq, h'.full_eq]
    simp only [decide_eq_decide]
    omega

theorem Retains.logicalLog_eq (h : r.Retains es) :
    r.logicalLog = ((es.rtake N).map Entry.bytes).flatten := by
  rw [logicalLog, h.entries_eq]

end CommandLog.Ring
