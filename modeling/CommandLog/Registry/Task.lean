import CommandLog.Registry

/-!
# Tasks and their completions

What a registry has to cope with is a task that may mark its completion at any time, several
times or never, and that may end in order or by a failure. This file runs such tasks beside a
registry: a task is a list of actions, it waits where it is told to until it is released, and at
its end, whatever brought it about, its completion is dropped.

* `CommandLog.Task.Action` and `CommandLog.Task` – what a task does, and how far it is;
* `CommandLog.TaskGroup` – a registry with the tasks that were started through it;
* `CommandLog.TaskGroup.step?` – **one step of a task**. Marking a completion takes two of them: the
  report is made, and then it comes in;
* `CommandLog.TaskGroup.start` and `CommandLog.TaskGroup.unblock` – a task is started, and it is
  released;
* `CommandLog.TaskGroup.spawn`, `CommandLog.TaskGroup.release`, `CommandLog.TaskGroup.reap`,
  `CommandLog.TaskGroup.drain` – operations after each of which every task has gone on as far as it
  can.
-/

namespace CommandLog

/-- One action of a task. -/
inductive Task.Action where
  /-- Mark the completion. -/
  | mark
  /-- Drop the completion, which marks it as well. -/
  | drop
  /-- Wait until released. -/
  | wait
deriving DecidableEq, Repr

/-- A task that was started. -/
structure Task where
  /-- What it has still to do; when that is nothing it has ended. -/
  todo : List Task.Action
  /-- Whether its one release was given. -/
  released : Bool := false
deriving DecidableEq, Repr, Inhabited

/-- Whether a task has ended. -/
def Task.hasEnded (t : Task) : Bool :=
  t.todo.isEmpty

/-- A registry with the tasks that were started through it, in the order of their identifiers. -/
structure TaskGroup where
  /-- The registry. -/
  registry : Registry := {}
  /-- The tasks. -/
  tasks : List Task := []
  /-- The metrics that the registry sets. -/
  metrics : Metrics := {}
deriving Repr, Inhabited

namespace TaskGroup

/-- Whether the task of a session has ended. -/
def hasEnded (g : TaskGroup) (id : SessionId) : Bool :=
  match g.tasks[id]? with
  | some t => t.hasEnded
  | none => true

/-- A task leaves its next action behind. -/
def pass (g : TaskGroup) (id : SessionId) (t : Task) : TaskGroup :=
  { g with tasks := g.tasks.set id { t with todo := t.todo.drop 1 } }

/-- A task marks its completion, in two steps if nobody has marked it before. -/
def signal (g : TaskGroup) (id : SessionId) (t : Task) : TaskGroup :=
  if id ∈ g.registry.reported then { g.pass id t with registry := g.registry.arrive id }
  else { g with registry := g.registry.complete id }

/-- **One step of a task**, if it has one now. -/
def step? (g : TaskGroup) (id : SessionId) : Option TaskGroup :=
  match g.tasks[id]? with
  | none => none
  | some t =>
    match t.todo with
    | [] => none
    | .wait :: _ => if t.released then some (g.pass id t) else none
    | .mark :: _ => some (g.signal id t)
    | .drop :: _ => some (g.signal id t)

/-- A bound on the steps that a task can take. -/
def work (g : TaskGroup) (id : SessionId) : Nat :=
  2 * ((g.tasks[id]?.map fun t => t.todo.length).getD 0) +
    if id ∈ g.registry.reported then 0 else 1

theorem work_pass {g : TaskGroup} {id : SessionId} {t : Task} (ht : g.tasks[id]? = some t) :
    (g.pass id t).work id =
      2 * (t.todo.length - 1) + if id ∈ g.registry.reported then 0 else 1 := by
  simp [work, pass, List.getElem?_set_self', ht]

theorem work_signal_lt {g : TaskGroup} {id : SessionId} {t : Task} (ht : g.tasks[id]? = some t)
    (htodo : t.todo ≠ []) : (g.signal id t).work id < g.work id := by
  have hpos := List.length_pos_iff.mpr htodo
  unfold signal
  split
  · next hreported =>
    have hwork := work_pass ht
    simp only [work, Registry.reported_arrive, hreported, ht, Option.map_some, Option.getD_some,
      if_true] at hwork ⊢
    simp only [pass] at hwork ⊢
    omega
  · next hnew =>
    simp [work, Registry.complete, hnew]

theorem work_step?_lt {g g' : TaskGroup} {id : SessionId} (h : g.step? id = some g') :
    g'.work id < g.work id := by
  unfold step? at h
  split at h
  · cases h
  · next t ht =>
    split at h
    · cases h
    · next htodo =>
      rw [Option.ite_none_right_eq_some] at h
      obtain ⟨-, h⟩ := h
      cases h
      rw [work_pass ht]
      simp only [work, ht, htodo, Option.map_some, Option.getD_some, List.length_cons]
      omega
    · next htodo =>
      cases h
      exact work_signal_lt ht (by simp [htodo])
    · next htodo =>
      cases h
      exact work_signal_lt ht (by simp [htodo])

/-- A task goes on as far as it can. -/
def advance (g : TaskGroup) (id : SessionId) : TaskGroup :=
  match _h : g.step? id with
  | none => g
  | some g' => advance g' id
termination_by g.work id
decreasing_by exact work_step?_lt _h

/-- **A task is started**, and will drop its completion when it has nothing else to do. -/
def start (g : TaskGroup) (actions : List Task.Action) : SessionId × TaskGroup :=
  let (id, registry, metrics) := g.registry.spawn g.metrics
  (id, { registry, metrics, tasks := g.tasks ++ [{ todo := actions ++ [.drop] }] })

/-- A task is released. -/
def unblock (g : TaskGroup) (id : SessionId) : TaskGroup :=
  { g with tasks := g.tasks.modify id fun t => { t with released := true } }

/-- Starts a task and lets it go on. -/
def spawn (g : TaskGroup) (actions : List Task.Action) : SessionId × TaskGroup :=
  let (id, g) := g.start actions
  (id, g.advance id)

/-- **Releases a task**, once, and lets it go on: whether it was waiting for that, or nothing when
there is no such task or its release was given before. -/
def release (g : TaskGroup) (id : SessionId) : Option Bool × TaskGroup :=
  match g.tasks[id]? with
  | none => (none, g)
  | some t => if t.released then (none, g) else (some (!t.hasEnded), (g.unblock id).advance id)

/-- Collects the sessions reported complete. -/
def reap (g : TaskGroup) : Option Nat × TaskGroup :=
  let (n, registry, metrics) := g.registry.reap g.hasEnded g.metrics
  (n, { g with registry, metrics })

/-- Collects all sessions. -/
def drain (g : TaskGroup) : Bool × TaskGroup :=
  let (returned, registry, metrics) := g.registry.drain g.hasEnded g.metrics
  (returned, { g with registry, metrics })

end TaskGroup

end CommandLog
