import CommandLog.Service.Event
import CommandLog.Settings

/-!
# The server

A server is a service of sessions and annotators with a supervisor, which accepts connections,
collects the sessions that are complete, and takes everything down in order when shutdown is
requested:

```text
serving -> collecting -> awaiting -> serving
   |
draining -> joining -> closing -> stopped
```

* `CommandLog.Server` – the service, the stage of the supervisor, and the number of sessions that
  it has published;
* `CommandLog.Server.start` – a server on settings and an engine, refused when the settings make
  no sense or the address is not to be had;
* `CommandLog.Server.accept?` – a connection is accepted;
* `CommandLog.Server.advance?` – **the supervisor's own step**, if it has one now;
* `CommandLog.Server.signOff?` – the task of a session comes to its end: the report that it has made
  comes in, and then the task is over;
* `CommandLog.Server.Move` and `CommandLog.Server.Reachable` – one move of a run, and what can be
  reached by such moves in any order;
* `CommandLog.Server.settle` – one particular run, until everything rests.

The journal is let go in the very last step. Before it, every session has been waited for and then
every annotator, so nothing is stored afterwards. While it serves, the supervisor looks for a
request to shut down first, for a report of completion next, and for a connection last.

The supervisor is a task beside the sessions, and they run while it collects. A session can be over
before the supervisor has come back from accepting it, and one can report its completion while the
supervisor waits for the tasks of others.
-/

namespace CommandLog

/-- How far the supervisor is. -/
inductive Server.Stage where
  /-- It waits for connections, reports of completion and the request to shut down. -/
  | serving
  /-- It is about to look for sessions that are complete. -/
  | collecting
  /-- It waits for the tasks of the sessions that it has found, one after the other. -/
  | awaiting (c : Registry.Collection)
  /-- It accepts nothing any more and waits for the sessions. -/
  | draining
  /-- It waits for the annotators. -/
  | joining
  /-- It waits for the engine's lock, to let go of the journal. -/
  | closing
  /-- It is done. -/
  | stopped (result : Except Error Unit)

/-- A service with its supervisor. -/
structure Server where
  /-- What the server was told. -/
  settings : Settings
  /-- The sessions and annotators around the engine. -/
  service : Service
  /-- How far the supervisor is. -/
  stage : Server.Stage := .serving
  /-- Sessions whose tasks are over, in the order in which they were. -/
  finished : List SessionId := []
  /-- Number of reports of completion that the supervisor has taken notice of. -/
  noticed : Nat := 0
  /-- Number of sessions as it was published last. -/
  published : Nat := 0

namespace Server

/-- **A server on settings and an engine.** Whether the address is to be had is up to the
surroundings. -/
def start (settings : Settings) (listening : Except Fault Unit) (engine : Engine) (host : Host)
    (epoch : Nat) : Except Error Server := do
  settings.check
  listening.mapError Error.io
  let annotators := settings.timestampPeriod.toList.map fun period => Annotator.start period 0
  return { settings, service := { engine, host, annotators, epoch } }

/-- Number of reports of completion that the supervisor has not taken notice of. -/
def pending (s : Server) : Nat :=
  s.service.registry.arrived.length - s.noticed

/-- Whether the task of a session is over. -/
def hasFinished (s : Server) (id : SessionId) : Bool :=
  id ∈ s.finished

/-- **A connection is accepted** and a session started on it. The supervisor goes on by collecting
what is complete. -/
def accept? (s : Server) : Option (SessionId × Server) :=
  match s.stage with
  | .serving =>
    if s.service.cancelled || s.pending ≠ 0 then none
    else
      let (id, service) := s.service.connect s.settings.maxCommandBytes
      some (id, { s with service, stage := .collecting })
  | _ => none

/-- **Accepting a connection fails.** The supervisor goes on as if it had accepted one, after a
while. -/
def acceptFails? (s : Server) : Option Server :=
  match s.stage with
  | .serving =>
    if s.service.cancelled || s.pending ≠ 0 then none else some { s with stage := .collecting }
  | _ => none

/-- **The task of a session comes to its end** when its completion was reported: the report comes
in, and then the task is over. -/
def signOff? (s : Server) (id : SessionId) : Option Server :=
  if id ∉ s.service.registry.reported then none
  else if id ∉ s.service.registry.arrived then
    some { s with service := { s.service with registry := s.service.registry.arrive id } }
  else if id ∉ s.finished then some { s with finished := s.finished ++ [id] }
  else none

/-- The supervisor, having nothing to do with its sessions, goes down or takes notice of a
report. -/
def serve? (s : Server) : Option Server :=
  if s.service.cancelled then some { s with stage := .draining }
  else if s.pending ≠ 0 then some { s with noticed := s.noticed + 1, stage := .collecting }
  else none

/-- Collects the next session, once its task is over. When all are collected it publishes the
number of those that are left. -/
def collect? (s : Server) (c : Registry.Collection) : Option Server :=
  if c.left.isEmpty then
    let metrics := s.service.registry.conclude c s.service.host.metrics
    some
      { s with
        service := { s.service with host := { s.service.host with metrics } }
        published := s.service.registry.size
        stage := .serving }
  else
    match s.service.registry.collect? s.hasFinished c with
    | none => none
    | some (_, registry, c) =>
      some { s with service := { s.service with registry }, stage := .awaiting c }

/-- Collects all sessions, once their tasks are over. -/
def drain? (s : Server) : Option Server :=
  match s.service.registry.drain s.hasFinished s.service.host.metrics with
  | (false, _, _) => none
  | (true, registry, metrics) =>
    some
      { s with
        service := { s.service with registry, host := { s.service.host with metrics } }
        published := 0
        stage := .joining }

/-- Lets go of the journal, once nobody else has the engine's lock or waits for it. -/
def close? (s : Server) : Option Server :=
  if s.service.held || !s.service.queue.isEmpty then none
  else
    let (result, engine, host) := s.service.engine.close s.settings.purgesJournal s.service.host
    some { s with service := { s.service with engine, host }, stage := .stopped result }

/-- **The supervisor's own step**, if it has one now. -/
def advance? (s : Server) : Option Server :=
  match s.stage with
  | .serving => s.serve?
  | .collecting => some { s with stage := .awaiting s.service.registry.survey }
  | .awaiting c => s.collect? c
  | .draining => s.drain?
  | .joining =>
    if s.service.annotators.all Annotator.hasEnded then some { s with stage := .closing } else none
  | .closing => s.close?
  | .stopped _ => none

/-! ### Runs -/

/-- Whether an event comes from a peer, from the clock or from whoever requests shutdown or looks
at the log. What a supervisor does is no such event. -/
def isOutside : Service.Event → Bool
  | .deliver .. | .endInput .. | .breakOutput _ | .allow .. | .cancel | .hold | .release
  | .tick _ => true
  | .connect _ | .append _ | .reap | .annotate _ => false

/-- The service after the task of a session has failed: the session is over at once, its turn at
the lock is given up, and its completion is lost, which reports it. -/
def crash (service : Service) (id : SessionId) : Service :=
  { service with
    sessions := service.sessions.modify id fun x => { x with phase := .ended }
    queue := service.queue.filter (· ≠ .session id)
    registry := service.registry.complete id }

/-- **One move of a run.** -/
inductive Move : Server → Server → Prop where
  /-- A connection is accepted. -/
  | accept {s s' : Server} {id : SessionId} (h : s.accept? = some (id, s')) : Move s s'
  /-- Accepting a connection fails. -/
  | acceptFails {s s' : Server} (h : s.acceptFails? = some s') : Move s s'
  /-- The supervisor takes a step. -/
  | supervisor {s s' : Server} (h : s.advance? = some s') : Move s s'
  /-- The task of a session comes closer to its end. -/
  | signOff {s s' : Server} {id : SessionId} (h : s.signOff? id = some s') : Move s s'
  /-- A session or an annotator takes a step. -/
  | actor {s : Server} {service : Service} {a : Actor} (h : s.service.step? a = some service) :
    Move s { s with service }
  /-- Something happens outside. -/
  | event (s : Server) (e : Service.Event) (h : isOutside e = true) :
    Move s { s with service := s.service.handle e }
  /-- The task of a session that was started fails. -/
  | crash (s : Server) (id : SessionId) (h : id < s.service.sessions.length) :
    Move s { s with service := crash s.service id }

/-- What can be reached from a server by any moves in any order. -/
inductive Reachable (start : Server) : Server → Prop where
  /-- The start itself. -/
  | refl : Reachable start start
  /-- One move further. -/
  | step {s s' : Server} (h : Reachable start s) (m : Move s s') : Reachable start s'

/-! ### A run until everything rests -/

/-- A bound on the steps of the supervisor, if nobody else moves. A report that comes in may make it
look at all sessions again. -/
def work (s : Server) : Nat :=
  (s.service.registry.size + 3) * s.pending +
    match s.stage with
    | .collecting => s.service.registry.size + 6
    | .awaiting c => c.left.length + 5
    | .serving => 4
    | .draining => 3
    | .joining => 2
    | .closing => 1
    | .stopped _ => 0

theorem work_serve?_lt {s s' : Server} (hstage : s.stage = .serving) (h : s.serve? = some s') :
    s'.work < s.work := by
  unfold serve? at h
  split at h
  · cases h
    simp [work, pending, hstage]
  · split at h
    · next hpending =>
      cases h
      have hless : (s.service.registry.size + 3) * (s.pending - 1) + (s.service.registry.size + 3)
          = (s.service.registry.size + 3) * s.pending := by
        rw [← Nat.mul_succ, Nat.succ_eq_add_one, Nat.sub_add_cancel (Nat.pos_of_ne_zero hpending)]
      simp only [pending] at hless
      simp only [work, pending, hstage, ← Nat.sub_sub]
      omega
    · cases h

theorem work_survey_lt {s : Server} (hstage : s.stage = .collecting) :
    work { s with stage := .awaiting s.service.registry.survey } < s.work := by
  have hdue : s.service.registry.due.length ≤ s.service.registry.size := List.length_filter_le ..
  simp only [work, pending, hstage, Registry.survey, Registry.size] at hdue ⊢
  omega

theorem work_collect?_lt {s s' : Server} {c : Registry.Collection} (hstage : s.stage = .awaiting c)
    (h : s.collect? c = some s') : s'.work < s.work := by
  unfold collect? at h
  split at h
  · cases h
    simp only [work, pending, hstage]
    omega
  · unfold Registry.collect? at h
    rcases hleft : c.left with _ | ⟨id, left⟩
    · simp [hleft] at h
    · simp only [hleft] at h
      split at h
      · cases h
      · next hcollect =>
        rw [Option.ite_none_right_eq_some] at hcollect
        obtain ⟨-, hcollect⟩ := hcollect
        cases hcollect
        cases h
        have hsize : (s.service.registry.without [id]).size ≤ s.service.registry.size :=
          List.length_filter_le ..
        have hmul := Nat.mul_le_mul_right s.pending (Nat.add_le_add_right hsize 3)
        simp only [pending] at hmul
        simp only [work, pending, hstage, hleft, List.length_cons]
        simp only [Registry.without] at hmul ⊢
        omega

theorem work_drain?_lt {s s' : Server} (hstage : s.stage = .draining) (h : s.drain? = some s') :
    s'.work < s.work := by
  unfold drain? Registry.drain at h
  split at h
  · cases h
  · next hdrain =>
    split at hdrain
    · cases hdrain
      cases h
      have hmul := Nat.mul_le_mul_right s.pending (Nat.le_add_left 3 s.service.registry.size)
      simp only [pending] at hmul
      simp only [work, pending, hstage, Registry.size, List.length_nil] at hmul ⊢
      omega
    · cases hdrain

/-- **Every step of the supervisor leaves less to do for it.** -/
theorem work_advance?_lt {s s' : Server} (h : s.advance? = some s') : s'.work < s.work := by
  unfold advance? at h
  split at h
  · next hstage => exact work_serve?_lt hstage h
  · next hstage =>
    cases h
    exact work_survey_lt hstage
  · next hstage => exact work_collect?_lt hstage h
  · next hstage => exact work_drain?_lt hstage h
  · next hstage =>
    split at h
    · cases h
      simp [work, pending, hstage]
    · cases h
  · next hstage =>
    unfold close? at h
    split at h
    · cases h
    · cases h
      simp [work, pending, hstage]
  · cases h

/-- The supervisor goes on as far as it can. -/
def supervise (s : Server) : Server :=
  match _h : s.advance? with
  | none => s
  | some s' => supervise s'
termination_by s.work
decreasing_by exact work_advance?_lt _h

/-- The task of a session comes to its end, if it can. -/
def signOff (s : Server) (id : SessionId) : Server :=
  let s := (s.signOff? id).getD s
  (s.signOff? id).getD s

/-- **The server at rest**: sessions and annotators first, then the tasks of those sessions that
have reported their completion, then the supervisor, whose steps set nobody else in motion. -/
def settle (s : Server) : Server :=
  let s := { s with service := s.service.settle }
  supervise (s.service.registry.reported.foldl signOff s)

/-- The server after shutdown was requested. -/
def shutDown (s : Server) : Server :=
  settle { s with service := s.service.handle .cancel }

/-- How the server ended, if it has. -/
def result? (s : Server) : Option (Except Error Unit) :=
  match s.stage with
  | .stopped result => some result
  | _ => none

end Server

end CommandLog
