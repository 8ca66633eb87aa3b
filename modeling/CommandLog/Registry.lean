import CommandLog.Metrics

/-!
# The registry of sessions

Every session that is started gets an identifier and owns a completion. Marking the completion,
or losing it in whatever way, reports the session as complete, exactly once. The registry keeps
the sessions that were started and not collected yet.

* `CommandLog.Registry` – the identifiers given out, the sessions registered, and the reports of
  completion in the order in which they were made;
* `CommandLog.Registry.spawn` – a new session;
* `CommandLog.Registry.complete` – a completion is marked or lost, and
  `CommandLog.Registry.arrive`, by which the report of that comes in;
* `CommandLog.Registry.survey`, `CommandLog.Registry.collect?` and `CommandLog.Registry.conclude` –
  **a collection, step by step**: the sessions that are reported complete are found, then collected
  one after the other, and then those that are left are counted;
* `CommandLog.Registry.reap` – a collection during which nobody moves;
* `CommandLog.Registry.drain` – collects all sessions.

A report is made by setting a mark on the session, and the session's identifier comes in on a
channel some time later. Who collects looks at the marks; who waits for something to collect looks
at the channel.

Collecting a session waits until its task has ended. A report of completion comes shortly before
that, so collecting after a report does not wait in practice; a task that goes on after its
report keeps whoever collects it waiting, and then the collecting operation does not return.
Whoever is reported complete while others are waited for is left for the next collection.
-/

namespace CommandLog

/-- The identifier of a session. -/
abbrev SessionId := Nat

/-- An identifier as text. -/
def SessionId.text (id : SessionId) : String :=
  "session-" ++ toString id

/-- The sessions that were started and what became of them. -/
structure Registry where
  /-- Number of identifiers given out; the next session gets this one. -/
  spawned : Nat := 0
  /-- Sessions started and not collected, in the order of their start. -/
  registered : List SessionId := []
  /-- Sessions reported complete, in the order of the reports. -/
  reported : List SessionId := []
  /-- Reports that have come in, in the order in which they did. -/
  arrived : List SessionId := []
deriving DecidableEq, Repr, Inhabited

/-- A collection of sessions that is under way. -/
structure Registry.Collection where
  /-- Number of sessions that were found complete when it began. -/
  found : Nat
  /-- Those of them that are not collected yet, the next one first. -/
  left : List SessionId
deriving DecidableEq, Repr

namespace Registry

/-- Number of registered sessions. -/
def size (r : Registry) : Nat :=
  r.registered.length

/-- The metrics with the number of registered sessions published. -/
def publish (r : Registry) (m : Metrics) : Metrics :=
  { m with sessionsActive := r.size }

/-- **A new session**, with its identifier. -/
def spawn (r : Registry) (m : Metrics) : SessionId × Registry × Metrics :=
  let r' : Registry :=
    { r with spawned := r.spawned + 1, registered := r.registered ++ [r.spawned] }
  (r.spawned, r', r'.publish m)

/-- **A completion is marked or lost.** Only the first time counts. -/
def complete (r : Registry) (id : SessionId) : Registry :=
  if id ∈ r.reported then r else { r with reported := r.reported ++ [id] }

/-- The report of a session comes in. It does so once, and only after it was made. -/
def arrive (r : Registry) (id : SessionId) : Registry :=
  if id ∈ r.reported ∧ id ∉ r.arrived then { r with arrived := r.arrived ++ [id] } else r

/-- Whether a session is registered. -/
def contains (r : Registry) (id : SessionId) : Bool :=
  id ∈ r.registered

/-- The registered sessions that are reported complete. -/
def due (r : Registry) : List SessionId :=
  r.registered.filter (· ∈ r.reported)

/-- The registry without some sessions. -/
def without (r : Registry) (ids : List SessionId) : Registry :=
  { r with registered := r.registered.filter (· ∉ ids) }

/-- **A collection begins**: the sessions that are reported complete are found. -/
def survey (r : Registry) : Collection where
  found := r.due.length
  left := r.due

/-- **The next session is collected**, once its task has ended. -/
def collect? (r : Registry) (hasEnded : SessionId → Bool) (c : Collection) :
    Option (SessionId × Registry × Collection) :=
  match c.left with
  | [] => none
  | id :: left => if hasEnded id then some (id, r.without [id], { c with left }) else none

/-- The metrics at the end of a collection. The gauge is set only when there was something to
collect. -/
def conclude (r : Registry) (c : Collection) (m : Metrics) : Metrics :=
  if c.found = 0 then m else r.publish m

/-- **Collects every session reported complete**, and gives their number. Sessions are collected
one after the other, each one when its task has ended; without a number the operation waits for a
task that has not, and only the sessions up to that one are out of the registry. The gauge is set
at the end, and only when there was something to collect. -/
def reap (r : Registry) (hasEnded : SessionId → Bool) (m : Metrics) :
    Option Nat × Registry × Metrics :=
  match r.due.dropWhile hasEnded with
  | [] =>
    let r' := r.without r.due
    (some r.due.length, r', if r.due.isEmpty then m else r'.publish m)
  | stuck :: _ => (none, r.without (r.due.takeWhile hasEnded ++ [stuck]), m)

/-- **Collects every session**, and tells whether the operation returns, which it does when all
tasks have ended. -/
def drain (r : Registry) (hasEnded : SessionId → Bool) (m : Metrics) :
    Bool × Registry × Metrics :=
  let r' : Registry := { r with registered := [] }
  if r.registered.all hasEnded then (true, r', { m with sessionsActive := 0 })
  else (false, r', m)

/-! ### Laws -/

@[simp] theorem spawned_complete (r : Registry) (id : SessionId) :
    (r.complete id).spawned = r.spawned := by
  unfold complete
  split <;> rfl

@[simp] theorem registered_complete (r : Registry) (id : SessionId) :
    (r.complete id).registered = r.registered := by
  unfold complete
  split <;> rfl

@[simp] theorem arrived_complete (r : Registry) (id : SessionId) :
    (r.complete id).arrived = r.arrived := by
  unfold complete
  split <;> rfl

/-- One session is reported at most. -/
theorem reported_complete (r : Registry) (id : SessionId) :
    (r.complete id).reported = r.reported ∨
      ∃ id', (r.complete id).reported = r.reported ++ [id'] := by
  unfold complete
  split
  · exact .inl rfl
  · exact .inr ⟨id, rfl⟩

/-- A session that is reported once is reported. -/
@[simp] theorem mem_reported_complete {r : Registry} {id id' : SessionId} :
    id' ∈ (r.complete id).reported ↔ id' ∈ r.reported ∨ id' = id := by
  unfold complete
  split
  · next hmem =>
    refine ⟨.inl, ?_⟩
    rintro (h | rfl)
    · exact h
    · exact hmem
  · exact List.mem_append.trans (or_congr_right List.mem_singleton)

@[simp] theorem spawned_arrive (r : Registry) (id : SessionId) :
    (r.arrive id).spawned = r.spawned := by
  unfold arrive
  split <;> rfl

@[simp] theorem registered_arrive (r : Registry) (id : SessionId) :
    (r.arrive id).registered = r.registered := by
  unfold arrive
  split <;> rfl

@[simp] theorem reported_arrive (r : Registry) (id : SessionId) :
    (r.arrive id).reported = r.reported := by
  unfold arrive
  split <;> rfl

/-- A report that was made comes in. -/
theorem mem_arrived_arrive {r : Registry} {id id' : SessionId} (h : id ∈ r.reported) :
    id' ∈ (r.arrive id).arrived ↔ id' ∈ r.arrived ∨ id' = id := by
  unfold arrive
  split
  · exact List.mem_append.trans (or_congr_right List.mem_singleton)
  · next hnot =>
    have hmem : id ∈ r.arrived := by
      false_or_by_contra
      next hnew => exact hnot ⟨h, hnew⟩
    refine ⟨.inl, ?_⟩
    rintro (h | rfl)
    · exact h
    · exact hmem

end Registry

end CommandLog
