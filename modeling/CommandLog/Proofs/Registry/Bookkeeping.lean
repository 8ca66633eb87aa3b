import Mathlib.Data.List.Nodup
import CommandLog.Proofs.Registry.Schedule

/-!
# The bookkeeping of a registry is exact

Whatever tasks do with their completions and in whatever order, and whenever sessions are started
and collected meanwhile, a registry tells exactly who was started and not collected, and every
report comes in exactly once.

* `CommandLog.TaskGroup.Leaving` – **no task ends before its report has come in**, since the last
  thing it does is to drop its completion;
* `CommandLog.TaskGroup.Booked` – what a registry has, in terms of what was noted, kept by every
  step of a task (`CommandLog.TaskGroup.Booked.act`), by a new session
  (`CommandLog.TaskGroup.Booked.spawn`) and by sessions that are collected
  (`CommandLog.TaskGroup.Booked.without`);
* `CommandLog.TaskGroup.Collects.outcome` – what a collection leaves, and what it has published;
* `CommandLog.TaskGroup.Run.bookkeeping` – **the bookkeeping is exact**, in every run.

The gauge lags behind while a collection goes on, so it is no part of what is kept all the time.
-/

namespace CommandLog.TaskGroup

variable {g g' : TaskGroup} {notes notes' : List Note} {id id' : SessionId} {t : Task}
  {c : Registry.Collection} {n : Nat}

/-! ### Tasks that end -/

/-- A task has ended when it has nothing to do any more. -/
theorem hasEnded_eq (g : TaskGroup) (id : SessionId) :
    g.hasEnded id = (g.tasks[id]?.map Task.todo).all List.isEmpty := by
  unfold hasEnded
  split
  · next ht =>
    rw [ht]
    rfl
  · next ht =>
    rw [ht]
    rfl

theorem hasEnded_of_getElem? (ht : g.tasks[id]? = some t) : g.hasEnded id = t.todo.isEmpty := by
  rw [hasEnded_eq, ht]
  rfl

theorem getElem?_pass_of_ne (hne : id' ≠ id) : (g.pass id t).tasks[id']? = g.tasks[id']? :=
  List.getElem?_set_ne (Ne.symm hne)

theorem getElem?_pass_self (ht : g.tasks[id]? = some t) :
    (g.pass id t).tasks[id]? = some { t with todo := t.todo.drop 1 } := by
  simp [pass, List.getElem?_set_self', ht]

/-- A task that has ended is not affected by others. -/
theorem hasEnded_pass (ht : g.tasks[id]? = some t) (hgoing : t.todo ≠ [])
    (hended : g.hasEnded id' = true) : (g.pass id t).hasEnded id' = true := by
  by_cases heq : id' = id
  · subst heq
    rw [hasEnded_of_getElem? ht, List.isEmpty_iff] at hended
    exact absurd hended hgoing
  · rwa [hasEnded, getElem?_pass_of_ne heq]

/-- A release leaves every task as much to do as before. -/
theorem todo_unblock (g : TaskGroup) (id id' : SessionId) :
    (g.unblock id).tasks[id']?.map Task.todo = g.tasks[id']?.map Task.todo := by
  simp only [unblock, List.getElem?_modify, Option.map_eq_map, Option.map_map]
  split <;> rfl

/-- **Whoever has not reported yet has still to drop its completion.** -/
def Leaving (g : TaskGroup) : Prop :=
  ∀ id t, g.tasks[id]? = some t → .drop ∈ t.todo ∨ id ∈ g.registry.arrived

theorem Leaving.gone (h : g.Leaving) (hid : id < g.tasks.length) (hended : g.hasEnded id = true) :
    id ∈ g.registry.arrived := by
  have ht := List.getElem?_eq_getElem hid
  rw [hasEnded_of_getElem? ht, List.isEmpty_iff] at hended
  refine (h id _ ht).resolve_left ?_
  rw [hended]
  exact List.not_mem_nil

/-- A task leaves an action behind. -/
theorem Leaving.pass (h : g.Leaving) (ht : g.tasks[id]? = some t) {registry : Registry}
    (hkept : ∀ id ∈ g.registry.arrived, id ∈ registry.arrived)
    (hself : .drop ∈ t.todo.drop 1 ∨ id ∈ registry.arrived) :
    Leaving { g.pass id t with registry } := by
  intro id' t' ht'
  by_cases heq : id' = id
  · subst heq
    have hsame := ht'.symm.trans (getElem?_pass_self ht)
    cases hsame
    exact hself
  · have hsame := ht'.symm.trans (getElem?_pass_of_ne heq)
    exact (h id' t' hsame.symm).imp_right (hkept id')

/-! ### Everything that is booked -/

/-- The session that was started, if one was. -/
def Note.spawned? : Note → Option SessionId
  | .spawned id => some id
  | .marked _ | .dropped _ | .collected _ => none

/-- The sessions that were started, in their order. -/
def spawnedIds (notes : List Note) : List SessionId :=
  notes.filterMap Note.spawned?

@[simp] theorem spawnedIds_append (notes notes' : List Note) :
    spawnedIds (notes ++ notes') = spawnedIds notes ++ spawnedIds notes' :=
  List.filterMap_append

theorem mem_spawnedIds : id ∈ spawnedIds notes ↔ .spawned id ∈ notes := by
  refine List.mem_filterMap.trans ⟨?_, fun h => ⟨_, h, rfl⟩⟩
  rintro ⟨note, hmem, hid⟩
  cases note with
  | spawned => cases hid; exact hmem
  | marked | dropped | collected => cases hid

/-- **What a registry has**, in terms of what was noted. -/
structure Booked (notes : List Note) (g : TaskGroup) : Prop where
  /-- It accounts for its sessions. -/
  accounts : g.registry.Accounts g.hasEnded
  /-- Every session has a task. -/
  length_tasks : g.tasks.length = g.registry.spawned
  /-- No task ends before its report has come in. -/
  leaving : g.Leaving
  /-- Identifiers were given out one after the other. -/
  spawned : spawnedIds notes = List.range g.registry.spawned
  /-- The reports that have come in are those of completions marked or dropped. -/
  posted : ∀ id, id ∈ g.registry.arrived ↔ .marked id ∈ notes ∨ .dropped id ∈ notes
  /-- Whoever is not registered any more was collected. -/
  collected : ∀ id, .collected id ∈ notes ↔
    id < g.registry.spawned ∧ id ∉ g.registry.registered

theorem booked_empty : Booked [] {} where
  accounts := Registry.accounts_empty _
  length_tasks := rfl
  leaving := by simp [Leaving]
  spawned := rfl
  posted := by simp
  collected := by simp

theorem Booked.lt_of_task (h : g.Booked notes) (ht : g.tasks[id]? = some t) :
    id < g.registry.spawned :=
  h.length_tasks ▸ (List.getElem?_eq_some_iff.mp ht).1

/-- A task has reported, and leaves that behind. -/
theorem Booked.signal (h : g.Booked notes) {action : Task.Action} {todo : List Task.Action}
    {note : Note} (ht : g.tasks[id]? = some t) (htodo : t.todo = action :: todo)
    (hnote : Signals id action note) (hreported : id ∈ g.registry.reported) :
    Booked (notes ++ [note]) { g.pass id t with registry := g.registry.arrive id } := by
  have harrived := fun id' => @Registry.mem_arrived_arrive g.registry id id' hreported
  have hleaving := h.leaving.pass ht (fun id' hid' => (harrived id').mpr (.inl hid'))
    (.inr ((harrived id).mpr (.inr rfl)))
  have hlength : (g.tasks.set id { t with todo := t.todo.drop 1 }).length =
      (g.registry.arrive id).spawned := by
    rw [List.length_set, Registry.spawned_arrive, h.length_tasks]
  -- the report is in now, so this may be the end of the task
  refine
    { accounts := (h.accounts.arrive hreported).progress
        (fun id' => hasEnded_pass ht (by simp [htodo]))
        fun id' hid' hended => hleaving.gone (hlength ▸ hid') hended
      length_tasks := hlength
      leaving := hleaving
      spawned := ?_
      posted := fun id' => ?_
      collected := fun id' => ?_ }
  · have hnone : spawnedIds [note] = [] := by
      cases hnote <;> rfl
    rw [spawnedIds_append, hnone, List.append_nil, Registry.spawned_arrive, h.spawned]
  · rw [harrived, h.posted]
    cases hnote <;> simp [or_assoc, or_comm, or_left_comm]
  · cases hnote <;> simpa using h.collected id'

/-- **Every step of a task is booked.** -/
theorem Booked.act (h : g.Booked notes) (hact : g.Act id notes' g') :
    g'.Booked (notes ++ notes') := by
  cases hact with
  | raise ht =>
    rw [List.append_nil]
    have hlt := h.lt_of_task ht
    exact
      { accounts := h.accounts.complete hlt
        length_tasks := by simpa using h.length_tasks
        leaving := by simpa [Leaving] using h.leaving
        spawned := by simpa using h.spawned
        posted := by simpa using h.posted
        collected := by simpa using h.collected }
  | signal ht htodo hnote hreported => exact h.signal ht htodo hnote hreported
  | @wake t todo ht htodo =>
    rw [List.append_nil]
    have hleaving : (g.pass id t).Leaving := by
      -- the wait that is left behind is not the drop
      refine h.leaving.pass ht (fun _ hid' => hid') ((h.leaving id t ht).imp_left fun hdrop => ?_)
      simpa [htodo] using hdrop
    have hlength : (g.pass id t).tasks.length = g.registry.spawned := by
      rw [pass, List.length_set, h.length_tasks]
    exact
      { h with
        accounts := h.accounts.progress (fun id' => hasEnded_pass ht (by simp [htodo]))
          fun id' hid' => hleaving.gone (hlength ▸ hid')
        length_tasks := hlength
        leaving := hleaving }

/-- A release ends no task. -/
theorem Booked.unblock (h : g.Booked notes) (id : SessionId) : (g.unblock id).Booked notes :=
  have hended : (g.unblock id).hasEnded = g.hasEnded := by
    funext id'
    rw [hasEnded_eq, hasEnded_eq, todo_unblock]
  { h with
    accounts := hended ▸ h.accounts
    length_tasks := (List.length_modify ..).trans h.length_tasks
    leaving := by
      intro id' t' ht'
      have hsame := todo_unblock g id id'
      rw [ht', Option.map_some, eq_comm, Option.map_eq_some_iff] at hsame
      obtain ⟨t, ht, heq⟩ := hsame
      exact heq ▸ h.leaving id' t ht }

theorem Booked.stirs (h : g.Booked notes) (hstir : g.Stirs notes' g') :
    g'.Booked (notes ++ notes') := by
  induction hstir with
  | refl => rwa [List.append_nil]
  | step _ _ hstep ih =>
    rw [← List.append_assoc]
    exact ih.act (act_of_step? hstep)
  | unblock _ id ih => exact ih.unblock id

/-- **A new session is booked**, under the next identifier. -/
theorem Booked.spawn (h : g.Booked notes) (actions : List Task.Action) :
    (g.start actions).2.Booked (notes ++ [.spawned (g.start actions).1]) := by
  have htask : ∀ id : SessionId, (g.start actions).2.tasks[id]? =
      if id < g.registry.spawned then g.tasks[id]?
      else if id = g.registry.spawned then some { todo := actions ++ [.drop] } else none := by
    intro id
    change (g.tasks ++ [_])[id]? = _
    rw [List.getElem?_append, h.length_tasks]
    split
    · rfl
    · next hge =>
      rw [List.getElem?_singleton]
      refine if_congr ?_ rfl rfl
      rw [Nat.sub_eq_zero_iff_le, eq_comm]
      exact ⟨fun hle => Nat.le_antisymm (Nat.le_of_not_lt hge) hle, fun heq => heq ▸ Nat.le_refl _⟩
  exact
    { accounts := by
        refine h.accounts.spawn g.metrics ?_ fun id hid => ?_
        · rw [hasEnded_of_getElem? (by rw [htask, if_neg (Nat.lt_irrefl _), if_pos rfl])]
          simp
        · rw [hasEnded, hasEnded, htask, if_pos hid]
      length_tasks := by
        change (g.tasks ++ [_]).length = g.registry.spawned + 1
        rw [List.length_append, h.length_tasks, List.length_singleton]
      leaving := by
        intro id t ht
        rw [htask] at ht
        split at ht
        · exact h.leaving id t ht
        · split at ht
          · cases ht
            exact .inl (List.mem_append_right _ List.mem_cons_self)
          · cases ht
      spawned := by
        rw [spawnedIds_append, h.spawned]
        exact List.range_succ.symm
      posted := by
        intro id
        refine (h.posted id).trans ?_
        simp
      collected := by
        intro id
        have hnote : .collected id ∈ notes ++ [.spawned g.registry.spawned] ↔
            .collected id ∈ notes := by
          simp
        change .collected id ∈ notes ++ [.spawned g.registry.spawned] ↔
          id < g.registry.spawned + 1 ∧ id ∉ g.registry.registered ++ [g.registry.spawned]
        rw [hnote, h.collected, List.mem_append, List.mem_singleton, not_or]
        constructor
        · rintro ⟨hlt, hnot⟩
          exact ⟨Nat.lt_succ_of_lt hlt, hnot, Nat.ne_of_lt hlt⟩
        · rintro ⟨hlt, hnot, hne⟩
          exact ⟨Nat.lt_of_le_of_ne (Nat.le_of_lt_succ hlt) hne, hnot⟩ }

/-- **Sessions whose tasks have ended are collected.** -/
theorem Booked.without (h : g.Booked notes) {ids : List SessionId}
    (hlt : ∀ id ∈ ids, id < g.registry.spawned) (hended : ∀ id ∈ ids, g.hasEnded id = true) :
    Booked (notes ++ ids.map .collected) { g with registry := g.registry.without ids } where
  accounts := h.accounts.without hended
  length_tasks := h.length_tasks
  leaving := h.leaving
  spawned := by
    have hnone : spawnedIds (ids.map .collected) = [] := by
      rw [spawnedIds, List.filterMap_map, List.filterMap_eq_nil_iff]
      exact fun _ _ => rfl
    rw [spawnedIds_append, hnone, List.append_nil]
    exact h.spawned
  posted id := by
    refine (h.posted id).trans ?_
    simp
  collected id := by
    have hmem : .collected id ∈ notes ++ ids.map Note.collected ↔
        .collected id ∈ notes ∨ id ∈ ids := by
      simp
    have hregistered : id ∈ (g.registry.without ids).registered ↔
        id ∈ g.registry.registered ∧ id ∉ ids := by
      simp [Registry.without]
    change _ ↔ id < g.registry.spawned ∧ id ∉ (g.registry.without ids).registered
    rw [hmem, h.collected, hregistered, not_and_not_right]
    constructor
    · rintro (⟨hold, hnot⟩ | hid)
      · exact ⟨hold, fun hregistered => absurd hregistered hnot⟩
      · exact ⟨hlt id hid, fun _ => hid⟩
    · rintro ⟨hold, himp⟩
      by_cases hmem : id ∈ g.registry.registered
      · exact .inr (himp hmem)
      · exact .inl ⟨hold, hmem⟩

/-! ### Collections -/

theorem Act.collected_notMem (hact : g.Act id notes g') (id' : SessionId) :
    .collected id' ∉ notes := by
  cases hact with
  | raise | wake => exact List.not_mem_nil
  | signal _ _ hnote => cases hnote <;> simp

theorem Stirs.collected_notMem (hstir : g.Stirs notes g') (id : SessionId) :
    .collected id ∉ notes := by
  induction hstir with
  | refl => exact List.not_mem_nil
  | step _ _ hstep ih =>
    rw [List.mem_append, not_or]
    exact ⟨ih, (act_of_step? hstep).collected_notMem id⟩
  | unblock _ _ ih => exact ih

/-- **What a collection leaves**: everybody whom it has found is gone, and nobody else. -/
theorem Collects.outcome (h : g.Collects c notes g') :
    g'.registry.registered = (g.registry.without c.left).registered ∧
      g'.metrics = g'.registry.conclude c g.metrics ∧
      ∀ id, .collected id ∈ notes ↔ id ∈ c.left := by
  induction h with
  | done hleft =>
    rw [hleft, Registry.without_nil]
    exact ⟨rfl, rfl, fun _ => iff_of_false List.not_mem_nil List.not_mem_nil⟩
  | stir hstir _ ih =>
    -- tasks neither start nor collect anybody, and publish nothing
    obtain ⟨hregistered, hmetrics, hnotes⟩ := ih
    have hframe := hstir.frame
    refine ⟨?_, by rw [hmetrics, hframe.metrics], fun id => ?_⟩
    · rw [hregistered, Registry.without, hframe.registered]
      rfl
    · rw [List.mem_append, hnotes]
      exact or_iff_right (hstir.collected_notMem id)
  | next hcollect _ ih =>
    obtain ⟨hleft, hfound, -, rfl⟩ := Registry.collect?_eq_some_iff.mp hcollect
    obtain ⟨hregistered, hmetrics, hnotes⟩ := ih
    refine ⟨by rw [hregistered, hleft, Registry.without_without],
      by rw [hmetrics, Registry.conclude, Registry.conclude, hfound], fun id => ?_⟩
    rw [List.mem_cons, hnotes, hleft, List.mem_cons, Note.collected.injEq]

theorem Booked.collects (h : g.Booked notes) (hcollects : g.Collects c notes' g')
    (hlt : ∀ id ∈ c.left, id < g.registry.spawned) : g'.Booked (notes ++ notes') := by
  -- a collection is built from its end, so what was noted before it grows on the way
  induction hcollects generalizing notes with
  | done =>
    rw [List.append_nil]
    exact { h with }
  | stir hstir _ ih =>
    rw [← List.append_assoc]
    exact ih (h.stirs hstir) (hstir.frame.spawned ▸ hlt)
  | @next g _ c c' id registry notes' hcollect _ ih =>
    obtain ⟨hleft, -, hended, rfl⟩ := Registry.collect?_eq_some_iff.mp hcollect
    rw [hleft, List.forall_mem_cons] at hlt
    have hids : ∀ id' ∈ [id], id' < g.registry.spawned ∧ g.hasEnded id' = true := by
      simpa using ⟨hlt.1, hended⟩
    rw [← List.singleton_append, ← List.append_assoc]
    exact ih (h.without (fun id' hid' => (hids id' hid').1) fun id' hid' => (hids id' hid').2) hlt.2

theorem Booked.reaps (h : g.Booked notes) (hreap : g.Reaps n notes' g') :
    g'.Booked (notes ++ notes') := by
  obtain ⟨c, -, hperm, -, hcollects⟩ := hreap
  refine h.collects hcollects fun id hid => h.accounts.lt_of_mem ?_
  exact (List.mem_filter.mp (hperm.mem_iff.mp hid)).1

/-- **A reap collects exactly whom it finds reported complete.** -/
theorem Reaps.outcome (h : g.Reaps n notes g') :
    n = (g.registry.registered.filter (· ∈ g.registry.reported)).length ∧
      g'.registry.registered = g.registry.registered.filter (· ∉ g.registry.reported) ∧
      ∀ id, .collected id ∈ notes ↔ id ∈ g.registry.registered ∧ id ∈ g.registry.reported := by
  obtain ⟨c, hfound, hperm, rfl, hcollects⟩ := h
  obtain ⟨hregistered, -, hnotes⟩ := hcollects.outcome
  have hdue : ∀ id, id ∈ c.left ↔ id ∈ g.registry.registered ∧ id ∈ g.registry.reported := by
    intro id
    rw [hperm.mem_iff]
    simp [Registry.survey, Registry.due]
  refine ⟨hfound, hregistered.trans (List.filter_congr fun id hid => ?_), fun id => ?_⟩
  · rw [decide_eq_decide, hdue, and_iff_right hid]
  · rw [hnotes, hdue]

/-- It sets the gauge if it has collected anybody, and otherwise nothing has changed. -/
theorem Reaps.gauge (h : g.Reaps n notes g')
    (hgauge : g.metrics.sessionsActive = g.registry.size) :
    g'.metrics.sessionsActive = g'.registry.size := by
  obtain ⟨c, hfound, hperm, rfl, hcollects⟩ := h
  obtain ⟨hregistered, hmetrics, -⟩ := hcollects.outcome
  rw [hmetrics, Registry.conclude]
  split
  · next hnone =>
    -- nobody was found, so the registry is as it was when the gauge was set
    have hempty : c.left = [] := by
      rw [← List.length_eq_zero_iff, hperm.length_eq]
      exact hfound.symm.trans hnone
    rw [hempty, Registry.without_nil] at hregistered
    rw [hgauge, Registry.size, Registry.size, hregistered]
  · rfl

theorem Booked.drains (h : g.Booked notes) (hdrain : g.Drains notes' g') :
    g'.Booked (notes ++ notes') := by
  cases hdrain with
  | @intro notes' g₁ _ _ hstir hdrain =>
    have h₁ := h.stirs hstir
    obtain ⟨hended, rfl, -⟩ := Registry.drain_eq_true_iff.mp hdrain
    rw [← List.append_assoc, ← Registry.without_registered]
    have hwithout := h₁.without (fun id hid => h₁.accounts.lt_of_mem hid) hended
    exact { hwithout with }

/-- **A drain collects everybody**, and sets the gauge. -/
theorem Drains.outcome (h : g.Drains notes g') :
    g'.registry.registered = [] ∧ g'.metrics.sessionsActive = 0 ∧
      ∀ id, .collected id ∈ notes ↔ id ∈ g.registry.registered := by
  cases h with
  | @intro notes₁ g₁ registry metrics hstir hdrain =>
    obtain ⟨-, rfl, rfl⟩ := Registry.drain_eq_true_iff.mp hdrain
    refine ⟨rfl, rfl, fun id => ?_⟩
    rw [List.mem_append, or_iff_right (hstir.collected_notMem id), hstir.frame.registered]
    simp

/-! ### Runs -/

/-- **Every run is booked**, and the gauge shows the number of registered sessions between
operations. -/
theorem Run.booked (hrun : Run {} notes g) :
    g.Booked notes ∧ g.metrics.sessionsActive = g.registry.size := by
  induction hrun with
  | refl => exact ⟨booked_empty, rfl⟩
  | stir _ hstir ih =>
    have hframe := hstir.frame
    refine ⟨ih.1.stirs hstir, ?_⟩
    rw [hframe.metrics, ih.2, Registry.size, Registry.size, hframe.registered]
  | spawn _ actions ih => exact ⟨ih.1.spawn actions, rfl⟩
  | reap _ hreap ih => exact ⟨ih.1.reaps hreap, hreap.gauge ih.2⟩
  | drain _ hdrain ih =>
    obtain ⟨hnone, hgauge, -⟩ := hdrain.outcome
    exact ⟨ih.1.drains hdrain, by rw [hgauge, Registry.size, hnone]; rfl⟩

/-- **The bookkeeping of a registry is exact.** Sessions are started and collected by operations
that return, and their tasks do anything in any order, in between and meanwhile. Then

* identifiers are given out as `0`, `1`, `2` and so on, each one once;
* a report comes in at most once, and those that have come in are the reports of just those sessions
  whose completions were marked or dropped;
* a session is registered if and only if it was started and not collected;
* the gauge shows the number of registered sessions;
* to reap collects exactly those registered sessions that are reported complete when that is asked
  for, and returns their number;
* to drain collects all registered sessions. -/
theorem Run.bookkeeping (hrun : Run {} notes g) :
    spawnedIds notes = List.range (spawnedIds notes).length ∧
    (∀ id, g.registry.arrived.count id ≤ 1 ∧
      (id ∈ g.registry.arrived ↔ .marked id ∈ notes ∨ .dropped id ∈ notes)) ∧
    (∀ id, g.registry.contains id = true ↔ .spawned id ∈ notes ∧ .collected id ∉ notes) ∧
    g.metrics.sessionsActive = g.registry.size ∧
    (∀ n notes' g', g.Reaps n notes' g' →
      n = (g.registry.registered.filter (· ∈ g.registry.reported)).length ∧
      g'.registry.registered = g.registry.registered.filter (· ∉ g.registry.reported) ∧
      ∀ id, .collected id ∈ notes' ↔ id ∈ g.registry.registered ∧ id ∈ g.registry.reported) ∧
    ∀ notes' g', g.Drains notes' g' →
      g'.registry.registered = [] ∧
      ∀ id, .collected id ∈ notes' ↔ id ∈ g.registry.registered := by
  obtain ⟨h, hgauge⟩ := hrun.booked
  refine ⟨?_, ?_, ?_, hgauge, ?_, ?_⟩
  · rw [h.spawned, List.length_range]
  · exact fun id => ⟨List.nodup_iff_count_le_one.mp h.accounts.nodup id, h.posted id⟩
  · intro id
    rw [← mem_spawnedIds, h.spawned, List.mem_range, h.collected, Registry.contains,
      decide_eq_true_eq]
    constructor
    · exact fun hid => ⟨h.accounts.lt_of_mem hid, fun hgone => hgone.2 hid⟩
    · rintro ⟨hlt, hkept⟩
      exact not_not.mp fun hnot => hkept ⟨hlt, hnot⟩
  · exact fun n notes' g' hreap => hreap.outcome
  · intro notes' g' hdrain
    obtain ⟨hnone, -, hnotes⟩ := hdrain.outcome
    exact ⟨hnone, hnotes⟩

/-- Two sessions that have reported, with what the task of the first has still to do. -/
def twoReported (first : Task) : TaskGroup where
  registry := { spawned := 2, registered := [0, 1], reported := [0, 1], arrived := [0, 1] }
  tasks := [first, { todo := [] }]
  metrics := { sessionsActive := 2 }

/-- A task marks its completion twice, and ends only while a collection waits for it. -/
theorem exists_run_of_lateTask :
    ∃ g', Run {} [.spawned 0, .spawned 1, .marked 0, .dropped 1]
        (twoReported { todo := [.mark, .wait, .drop] }) ∧
      Reaps (twoReported { todo := [.mark, .wait, .drop] }) 2
        [.marked 0, .dropped 0, .collected 0, .collected 1] g' := by
  have hspawned : Run {} [.spawned 0, .spawned 1] _ :=
    (Run.refl.spawn [.mark, .mark, .wait]).spawn []
  have hmarked := hspawned.stir ((Stirs.refl.step 0 rfl).step 0 rfl)
  have hdropped := hmarked.stir ((Stirs.refl.step 1 rfl).step 1 rfl)
  have hwaiting : Stirs (twoReported { todo := [.mark, .wait, .drop] }) [.marked 0]
      (twoReported { todo := [.wait, .drop] }) := Stirs.refl.step 0 rfl
  have hwoken : Stirs _ [.marked 0] (twoReported { todo := [.drop], released := true }) :=
    (hwaiting.unblock 0).step 0 rfl
  have hlate : Stirs _ [.marked 0, .dropped 0] (twoReported { todo := [], released := true }) :=
    hwoken.step 0 rfl
  have hcollects := @collects_of_ended (twoReported { todo := [], released := true }) ⟨2, [0, 1]⟩
    (by decide)
  exact ⟨_, hdropped, _, rfl, .refl _, rfl, .stir hlate hcollects⟩

/-- The report came in once, and the collection waited for the task and took both sessions. -/
theorem bookkeeping_of_lateTask :
    ∃ g', Reaps (twoReported { todo := [.mark, .wait, .drop] }) 2
        [.marked 0, .dropped 0, .collected 0, .collected 1] g' ∧
      (twoReported { todo := [.mark, .wait, .drop] }).registry.arrived.count 0 ≤ 1 ∧
      g'.registry.registered = [] := by
  obtain ⟨g', hrun, hreap⟩ := exists_run_of_lateTask
  obtain ⟨-, hposted, -, -, hreaps, -⟩ := Run.bookkeeping hrun
  exact ⟨g', hreap, (hposted 0).1, (hreaps _ _ _ hreap).2.1⟩

end CommandLog.TaskGroup
