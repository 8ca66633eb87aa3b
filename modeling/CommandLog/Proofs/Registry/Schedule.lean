import Mathlib.Data.List.TakeWhile
import CommandLog.Proofs.Registry.Accounts
import CommandLog.Registry.Task

/-!
# Schedules of tasks

Tasks go on in any order, beside whoever starts and collects sessions, also while a collection waits
for one of them. Notes are taken of what happens to the sessions.

* `CommandLog.TaskGroup.Act` – **what a task does in one step**, with the note of it;
* `CommandLog.TaskGroup.Stirs` – tasks go on for a while;
* `CommandLog.TaskGroup.Collects` – a collection goes on to its end;
* `CommandLog.TaskGroup.Reaps` and `CommandLog.TaskGroup.Drains` – **an operation that returns**,
  with all that tasks do meanwhile;
* `CommandLog.TaskGroup.Run` – a run of such operations.

A collection takes its sessions in whatever order they are listed. The operations that let every
task go on as far as it can are among these (`CommandLog.TaskGroup.Run.spawn_advance`,
`CommandLog.TaskGroup.Run.release_advance`, `CommandLog.TaskGroup.reaps_of_reap`,
`CommandLog.TaskGroup.drains_of_drain`).
-/

namespace CommandLog.TaskGroup

/-- What happens to a session, as it is noted. -/
inductive Note where
  /-- It is started. -/
  | spawned (id : SessionId)
  /-- Its task has marked the completion. -/
  | marked (id : SessionId)
  /-- Its task has dropped the completion, by a failure or in order. -/
  | dropped (id : SessionId)
  /-- It is collected. -/
  | collected (id : SessionId)
deriving DecidableEq

variable {start g g' : TaskGroup} {notes notes' : List Note} {id : SessionId} {t : Task}
  {c : Registry.Collection} {n : Nat}

/-! ### Steps of tasks -/

/-- What is noted of the next step of a task. To mark a completion for the first time takes two
steps, and the second is noted. -/
def noted (g : TaskGroup) (id : SessionId) : List Note :=
  match g.tasks[id]?.map Task.todo with
  | some (.mark :: _) => if id ∈ g.registry.reported then [.marked id] else []
  | some (.drop :: _) => if id ∈ g.registry.reported then [.dropped id] else []
  | _ => []

/-- The action by which a completion is marked, and its note. -/
inductive Signals (id : SessionId) : Task.Action → Note → Prop where
  /-- It is marked and kept. -/
  | mark : Signals id .mark (.marked id)
  /-- It is dropped. -/
  | drop : Signals id .drop (.dropped id)

/-- **What a task does in one step**, with the note of it. -/
inductive Act (g : TaskGroup) (id : SessionId) : List Note → TaskGroup → Prop where
  /-- It reports, for the first time. -/
  | raise {t : Task} (ht : g.tasks[id]? = some t) (hnew : id ∉ g.registry.reported) :
    Act g id [] { g with registry := g.registry.complete id }
  /-- It has reported, and the report comes in if it has not before. -/
  | signal {t : Task} {action : Task.Action} {todo : List Task.Action} {note : Note}
    (ht : g.tasks[id]? = some t) (htodo : t.todo = action :: todo) (hnote : Signals id action note)
    (hreported : id ∈ g.registry.reported) :
    Act g id [note] { g.pass id t with registry := g.registry.arrive id }
  /-- It has waited. -/
  | wake {t : Task} {todo : List Task.Action} (ht : g.tasks[id]? = some t)
    (htodo : t.todo = .wait :: todo) : Act g id [] (g.pass id t)

theorem act_signal {action : Task.Action} {todo : List Task.Action} {note : Note}
    (ht : g.tasks[id]? = some t) (htodo : t.todo = action :: todo) (hnote : Signals id action note)
    (hnoted : g.noted id = if id ∈ g.registry.reported then [note] else []) :
    g.Act id (g.noted id) (g.signal id t) := by
  rw [hnoted]
  unfold signal
  split
  · next hreported => exact .signal ht htodo hnote hreported
  · next hnew => exact .raise ht hnew

theorem act_of_step? (h : g.step? id = some g') : g.Act id (g.noted id) g' := by
  unfold step? at h
  split at h
  · cases h
  · next t ht =>
    split at h
    · cases h
    · next htodo =>
      rw [Option.ite_none_right_eq_some] at h
      obtain ⟨-, h⟩ := h
      cases h
      have hnoted : g.noted id = [] := by simp [noted, ht, htodo]
      rw [hnoted]
      exact .wake ht htodo
    · next htodo =>
      cases h
      exact act_signal ht htodo .mark (by simp [noted, ht, htodo])
    · next htodo =>
      cases h
      exact act_signal ht htodo .drop (by simp [noted, ht, htodo])

/-- A task starts and collects nobody. -/
structure Frame (g g' : TaskGroup) : Prop where
  /-- There are as many tasks. -/
  length_tasks : g'.tasks.length = g.tasks.length
  /-- No identifier is given out. -/
  spawned : g'.registry.spawned = g.registry.spawned
  /-- Nobody is collected. -/
  registered : g'.registry.registered = g.registry.registered
  /-- The metrics stay as they are. -/
  metrics : g'.metrics = g.metrics

theorem Act.frame (hact : g.Act id notes g') : g.Frame g' := by
  cases hact with
  | raise => exact ⟨rfl, Registry.spawned_complete .., Registry.registered_complete .., rfl⟩
  | signal =>
    exact ⟨List.length_set, Registry.spawned_arrive .., Registry.registered_arrive .., rfl⟩
  | wake => exact ⟨List.length_set, rfl, rfl, rfl⟩

/-- **Tasks go on for a while**, and are released. -/
inductive Stirs (start : TaskGroup) : List Note → TaskGroup → Prop where
  /-- Nothing happens. -/
  | refl : Stirs start [] start
  /-- A task takes one step more. -/
  | step {notes : List Note} {g g' : TaskGroup} (h : Stirs start notes g) (id : SessionId)
    (hstep : g.step? id = some g') : Stirs start (notes ++ g.noted id) g'
  /-- A task is released. -/
  | unblock {notes : List Note} {g : TaskGroup} (h : Stirs start notes g) (id : SessionId) :
    Stirs start notes (g.unblock id)

theorem Stirs.frame (h : start.Stirs notes g) : start.Frame g := by
  induction h with
  | refl => exact ⟨rfl, rfl, rfl, rfl⟩
  | step _ _ hstep ih =>
    have hframe := (act_of_step? hstep).frame
    exact ⟨hframe.length_tasks.trans ih.length_tasks, hframe.spawned.trans ih.spawned,
      hframe.registered.trans ih.registered, hframe.metrics.trans ih.metrics⟩
  | unblock _ id ih =>
    exact ⟨List.length_modify .. |>.trans ih.length_tasks, ih.spawned, ih.registered, ih.metrics⟩

/-- A task goes on as far as it can. -/
theorem Stirs.advance (h : start.Stirs notes g) (id : SessionId) :
    ∃ notes', start.Stirs notes' (g.advance id) := by
  induction g using advance.induct id generalizing notes with
  | case1 g hstep =>
    refine ⟨notes, ?_⟩
    rw [TaskGroup.advance]
    split
    · exact h
    · next hsome =>
      rw [hstep] at hsome
      cases hsome
  | case2 g g' hstep ih =>
    rw [TaskGroup.advance]
    split
    · next hnone =>
      rw [hstep] at hnone
      cases hnone
    · next hsome =>
      rw [hstep] at hsome
      cases hsome
      exact ih (h.step id hstep)

/-! ### Collections -/

/-- **A collection goes on to its end**, and tasks do so meanwhile. -/
inductive Collects : TaskGroup → Registry.Collection → List Note → TaskGroup → Prop where
  /-- There is nobody left to collect. -/
  | done {g : TaskGroup} {c : Registry.Collection} (hleft : c.left = []) :
    Collects g c [] { g with metrics := g.registry.conclude c g.metrics }
  /-- Tasks go on. -/
  | stir {g g' g'' : TaskGroup} {c : Registry.Collection} {notes notes' : List Note}
    (hstir : g.Stirs notes g') (hmore : Collects g' c notes' g'') :
    Collects g c (notes ++ notes') g''
  /-- The next session is collected. -/
  | next {g g' : TaskGroup} {c c' : Registry.Collection} {id : SessionId} {registry : Registry}
    {notes : List Note}
    (hcollect : g.registry.collect? g.hasEnded c = some (id, registry, c'))
    (hmore : Collects { g with registry } c' notes g') :
    Collects g c (.collected id :: notes) g'

/-- **The sessions reported complete are collected**, and their number is returned. They are found
when the operation is called, in whatever order. -/
def Reaps (g : TaskGroup) (n : Nat) (notes : List Note) (g' : TaskGroup) : Prop :=
  ∃ c : Registry.Collection, c.found = g.registry.survey.found ∧
    c.left.Perm g.registry.survey.left ∧ n = c.found ∧ g.Collects c notes g'

/-- **All sessions are collected.** The operation returns when all tasks have ended. -/
inductive Drains (start : TaskGroup) : List Note → TaskGroup → Prop where
  /-- Tasks go on until they have ended. -/
  | intro {notes : List Note} {g : TaskGroup} {registry : Registry} {metrics : Metrics}
    (hstir : start.Stirs notes g)
    (hdrain : g.registry.drain g.hasEnded g.metrics = (true, registry, metrics)) :
    Drains start (notes ++ g.registry.registered.map .collected) { g with registry, metrics }

/-- **A run of operations that return**, with tasks that go on in between and meanwhile. -/
inductive Run (start : TaskGroup) : List Note → TaskGroup → Prop where
  /-- Nothing has happened yet. -/
  | refl : Run start [] start
  /-- Tasks go on. -/
  | stir {notes notes' : List Note} {g g' : TaskGroup} (h : Run start notes g)
    (hstir : g.Stirs notes' g') : Run start (notes ++ notes') g'
  /-- A session is started. -/
  | spawn {notes : List Note} {g : TaskGroup} (h : Run start notes g)
    (actions : List Task.Action) :
    Run start (notes ++ [.spawned (g.start actions).1]) (g.start actions).2
  /-- The sessions reported complete are collected. -/
  | reap {notes notes' : List Note} {g g' : TaskGroup} {n : Nat} (h : Run start notes g)
    (hreap : g.Reaps n notes' g') : Run start (notes ++ notes') g'
  /-- All sessions are collected. -/
  | drain {notes notes' : List Note} {g g' : TaskGroup} (h : Run start notes g)
    (hdrain : g.Drains notes' g') : Run start (notes ++ notes') g'

/-! ### The operations that let tasks go on as far as they can -/

/-- A session is started, and its task goes on. -/
theorem Run.spawn_advance (h : Run start notes g) (actions : List Task.Action) :
    ∃ notes', Run start notes' (g.spawn actions).2 := by
  have hstart : (g.start actions).2.Stirs [] (g.start actions).2 := .refl
  obtain ⟨notes', hstirs⟩ := hstart.advance (g.start actions).1
  exact ⟨_, (h.spawn actions).stir hstirs⟩

/-- A task is released, and goes on. -/
theorem Run.release_advance (h : Run start notes g) (id : SessionId) :
    ∃ notes', Run start notes' (g.release id).2 := by
  unfold release
  split
  · exact ⟨notes, h⟩
  · split
    · exact ⟨notes, h⟩
    · obtain ⟨notes', hstirs⟩ := (Stirs.refl.unblock id).advance id
      exact ⟨_, h.stir hstirs⟩

/-- Sessions whose tasks have ended are collected one after the other. -/
theorem collects_of_ended (hended : ∀ id ∈ c.left, g.hasEnded id = true) :
    g.Collects c (c.left.map .collected)
      { g with
        registry := g.registry.without c.left
        metrics := (g.registry.without c.left).conclude c g.metrics } := by
  obtain ⟨found, left⟩ := c
  induction left generalizing g with
  | nil =>
    rw [Registry.without_nil]
    exact .done rfl
  | cons id left ih =>
    have hcollect : g.registry.collect? g.hasEnded ⟨found, id :: left⟩ =
        some (id, g.registry.without [id], ⟨found, left⟩) :=
      Registry.collect?_eq_some_iff.mpr ⟨rfl, rfl, hended id List.mem_cons_self, rfl⟩
    have hmore := @ih { g with registry := g.registry.without [id] } fun id' hid' =>
      hended id' (List.mem_cons_of_mem _ hid')
    rw [Registry.without_without] at hmore
    exact .next hcollect hmore

/-- **A collection during which nobody moves**, if it returns. -/
theorem reaps_of_reap (h : g.reap = (some n, g')) :
    g.Reaps n (g.registry.due.map .collected) g' := by
  rcases hstuck : g.registry.due.dropWhile g.hasEnded with _ | ⟨stuck, rest⟩
  · have hended := List.dropWhile_eq_nil_iff.mp hstuck
    have hcollects := collects_of_ended (c := g.registry.survey) hended
    simp only [reap, Registry.reap, hstuck] at h
    cases h
    refine ⟨g.registry.survey, rfl, .refl _, rfl, ?_⟩
    simpa [Registry.survey, Registry.conclude, List.isEmpty_iff] using hcollects
  · simp [reap, Registry.reap, hstuck] at h

/-- **A collection of all sessions** during which nobody moves, if it returns. -/
theorem drains_of_drain (h : g.drain = (true, g')) :
    g.Drains (g.registry.registered.map .collected) g' := by
  unfold drain at h
  rcases hdrain : g.registry.drain g.hasEnded g.metrics with ⟨returned, registry, metrics⟩
  rw [hdrain] at h
  cases h
  exact .intro .refl hdrain

end CommandLog.TaskGroup
