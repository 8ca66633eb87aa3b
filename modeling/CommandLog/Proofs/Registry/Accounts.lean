import Mathlib.Logic.Basic
import Mathlib.Tactic.Common
import CommandLog.Registry

/-!
# A registry accounts for its sessions

Between the start of a session and its collection lie the report of its completion, the coming in of
that report and the end of its task, in this order. What a registry knows of all sessions at once is
said by one predicate, which every operation keeps.

* `CommandLog.Registry.Accounts` – **every session is registered, or its task has ended and its
  report has come in**;
* `CommandLog.Registry.Accounts.spawn`, `CommandLog.Registry.Accounts.report`,
  `CommandLog.Registry.Accounts.arrive`, `CommandLog.Registry.Accounts.progress`,
  `CommandLog.Registry.Accounts.without` and `CommandLog.Registry.Accounts.drain` – the operations,
  and what tasks do meanwhile;
* `CommandLog.Registry.collect?_eq_some_iff` – what one step of a collection does.

When a task has ended is up to whoever runs the tasks. So it is a parameter here, and only has to
fit the reports.
-/

namespace CommandLog.Registry

variable {r r' : Registry} {ended ended' : SessionId → Bool} {id : SessionId}

/-- **A registry that accounts for its sessions**, given which tasks have ended. -/
structure Accounts (r : Registry) (ended : SessionId → Bool) : Prop where
  /-- The registered sessions are listed in the order of their identifiers, each one once. -/
  registered : r.registered = (List.range r.spawned).filter (· ∈ r.registered)
  /-- Only sessions that were started are reported. -/
  reported : ∀ id ∈ r.reported, id < r.spawned
  /-- Only reports that were made come in. -/
  arrived : ∀ id ∈ r.arrived, id ∈ r.reported
  /-- No report comes in twice. -/
  nodup : r.arrived.Nodup
  /-- The task of a session goes on until its report has come in. -/
  gone : ∀ id, id < r.spawned → ended id = true → id ∈ r.arrived
  /-- A session that is not registered any more has no task any more. -/
  collected : ∀ id, id < r.spawned → id ∉ r.registered → ended id = true

theorem accounts_empty (ended : SessionId → Bool) : Accounts {} ended where
  registered := rfl
  reported _ h := absurd h List.not_mem_nil
  arrived _ h := absurd h List.not_mem_nil
  nodup := List.nodup_nil
  gone _ h := absurd h (Nat.not_lt_zero _)
  collected _ h := absurd h (Nat.not_lt_zero _)

theorem Accounts.lt_of_mem (h : r.Accounts ended) (hid : id ∈ r.registered) : id < r.spawned := by
  rw [h.registered] at hid
  exact List.mem_range.mp (List.mem_filter.mp hid).1

/-- **A new session** is registered, and has a task. -/
theorem Accounts.spawn (h : r.Accounts ended) (m : Metrics) (hnew : ended' r.spawned = false)
    (hsame : ∀ id, id < r.spawned → ended' id = ended id) : (r.spawn m).2.1.Accounts ended' where
  registered := by
    change r.registered ++ [r.spawned] =
      (List.range (r.spawned + 1)).filter (· ∈ r.registered ++ [r.spawned])
    rw [List.range_succ, List.filter_append, List.filter_cons_of_pos (by simp), List.filter_nil]
    conv_lhs => rw [h.registered]
    congr 1
    refine List.filter_congr fun id hid => ?_
    have hne : id ≠ r.spawned := Nat.ne_of_lt (List.mem_range.mp hid)
    simp [hne]
  reported id hid := Nat.lt_succ_of_lt (h.reported id hid)
  arrived := h.arrived
  nodup := h.nodup
  gone id hid hended := by
    rcases Nat.lt_succ_iff_lt_or_eq.mp hid with hlt | rfl
    · exact h.gone id hlt (hsame id hlt ▸ hended)
    · rw [hnew] at hended
      cases hended
  collected id hid hnot := by
    have hnot' : id ∉ r.registered ∧ id ≠ r.spawned := by
      simpa [Registry.spawn] using hnot
    rcases Nat.lt_succ_iff_lt_or_eq.mp hid with hlt | rfl
    · rw [hsame id hlt]
      exact h.collected id hlt hnot'.1
    · exact absurd rfl hnot'.2

/-- **Reports are made** by sessions that were started. -/
theorem Accounts.report (h : r.Accounts ended) (hspawned : r'.spawned = r.spawned)
    (hregistered : r'.registered = r.registered) (harrived : r'.arrived = r.arrived)
    (hkept : ∀ id ∈ r.reported, id ∈ r'.reported) (hlt : ∀ id ∈ r'.reported, id < r'.spawned) :
    r'.Accounts ended where
  registered := by
    rw [hregistered, hspawned]
    exact h.registered
  reported := hlt
  arrived id hid := hkept id (h.arrived id (harrived ▸ hid))
  nodup := harrived ▸ h.nodup
  gone id hid := by
    rw [harrived]
    exact h.gone id (hspawned ▸ hid)
  collected id hid := by
    rw [hregistered]
    exact h.collected id (hspawned ▸ hid)

theorem Accounts.complete (h : r.Accounts ended) (hid : id < r.spawned) :
    (r.complete id).Accounts ended := by
  refine h.report (spawned_complete ..) (registered_complete ..) (arrived_complete ..)
    (fun id' hid' => mem_reported_complete.mpr (.inl hid')) fun id' hid' => ?_
  rw [spawned_complete]
  rcases mem_reported_complete.mp hid' with hold | rfl
  · exact h.reported id' hold
  · exact hid

/-- A report comes in. -/
theorem Accounts.arrive (h : r.Accounts ended) (hid : id ∈ r.reported) :
    (r.arrive id).Accounts ended where
  registered := by simpa using h.registered
  reported := by simpa using h.reported
  arrived id' hid' := by
    rw [reported_arrive]
    rcases (mem_arrived_arrive hid).mp hid' with hold | rfl
    · exact h.arrived id' hold
    · exact hid
  nodup := by
    unfold Registry.arrive
    split
    · next hnew =>
      refine List.nodup_append.mpr
        ⟨h.nodup, List.nodup_cons.mpr ⟨List.not_mem_nil, List.nodup_nil⟩, ?_⟩
      rintro a ha b hb rfl
      exact hnew.2 (List.mem_singleton.mp hb ▸ ha)
    · exact h.nodup
  gone id' hlt hended := by
    rw [spawned_arrive] at hlt
    exact (mem_arrived_arrive hid).mpr (.inl (h.gone id' hlt hended))
  collected := by simpa using h.collected

/-- Tasks end, each one after its report has come in. -/
theorem Accounts.progress (h : r.Accounts ended)
    (hlater : ∀ id, ended id = true → ended' id = true)
    (hgone : ∀ id, id < r.spawned → ended' id = true → id ∈ r.arrived) : r.Accounts ended' :=
  { h with
    gone := hgone
    collected := fun id hid hnot => hlater id (h.collected id hid hnot) }

/-- **Sessions are collected** whose tasks have ended. -/
theorem Accounts.without (h : r.Accounts ended) {ids : List SessionId}
    (hended : ∀ id ∈ ids, ended id = true) : (r.without ids).Accounts ended where
  registered := by
    change r.registered.filter (· ∉ ids) =
      (List.range r.spawned).filter (· ∈ r.registered.filter (· ∉ ids))
    conv_lhs => rw [h.registered, List.filter_filter]
    refine List.filter_congr fun id _ => ?_
    rw [Bool.eq_iff_iff]
    simp [and_comm]
  reported := h.reported
  arrived := h.arrived
  nodup := h.nodup
  gone := h.gone
  collected id hid hnot := by
    by_cases hmem : id ∈ ids
    · exact hended id hmem
    · refine h.collected id hid fun hregistered => hnot ?_
      exact List.mem_filter.mpr ⟨hregistered, decide_eq_true hmem⟩

/-- Nobody is left when everybody is taken out. -/
theorem without_registered (r : Registry) :
    r.without r.registered = { r with registered := [] } := by
  rw [without, List.filter_eq_nil_iff.mpr (by simp)]

/-- **To collect all sessions** succeeds when all tasks have ended. -/
theorem drain_eq_true_iff {m m' : Metrics} :
    r.drain ended m = (true, r', m') ↔ (∀ id ∈ r.registered, ended id = true) ∧
      r' = { r with registered := [] } ∧ m' = { m with sessionsActive := 0 } := by
  unfold Registry.drain
  rw [← List.all_eq_true]
  split
  · next hall => simp [hall, eq_comm]
  · next hnot => simp [hnot]

/-- **All sessions are collected.** -/
theorem Accounts.drain {m m' : Metrics} (h : r.Accounts ended)
    (hdrain : r.drain ended m = (true, r', m')) : r'.Accounts ended := by
  obtain ⟨hended, rfl, -⟩ := drain_eq_true_iff.mp hdrain
  exact without_registered r ▸ h.without hended

/-! ### Collections -/

/-- **One step of a collection**: the next session is not registered any more. -/
theorem collect?_eq_some_iff {c c' : Collection} :
    r.collect? ended c = some (id, r', c') ↔
      c.left = id :: c'.left ∧ c'.found = c.found ∧ ended id = true ∧ r' = r.without [id] := by
  obtain ⟨found, left⟩ := c
  obtain ⟨found', left'⟩ := c'
  unfold collect?
  rcases left with _ | ⟨next, left⟩
  · simp
  · simp only [Option.ite_none_right_eq_some, Option.some.injEq, Prod.mk.injEq, Collection.mk.injEq,
      List.cons.injEq]
    constructor
    · rintro ⟨hended, rfl, rfl, rfl, rfl⟩
      exact ⟨⟨rfl, rfl⟩, rfl, hended, rfl⟩
    · rintro ⟨⟨rfl, rfl⟩, rfl, hended, rfl⟩
      exact ⟨hended, rfl, rfl, rfl, rfl⟩

@[simp] theorem without_nil (r : Registry) : r.without [] = r := by
  unfold without
  rw [List.filter_eq_self.mpr (by simp)]

/-- Sessions can be collected one by one. -/
theorem without_without (r : Registry) (id : SessionId) (ids : List SessionId) :
    (r.without [id]).without ids = r.without (id :: ids) := by
  unfold without
  congr 1
  rw [List.filter_filter]
  refine List.filter_congr fun id' _ => ?_
  rw [Bool.eq_iff_iff]
  simp [and_comm]

end CommandLog.Registry
