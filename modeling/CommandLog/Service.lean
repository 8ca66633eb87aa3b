import CommandLog.Annotator
import CommandLog.Engine.Answer
import CommandLog.Registry

/-!
# Sessions, annotators and the lock

Any number of sessions and annotators share one engine. Who wants to use the engine asks for its
lock and takes his turn in a queue; someone outside may hold the lock as well. Carrying out a
request is one step, so the lock is never held by a session or an annotator between two steps.

* `CommandLog.Service` – the engine with its surroundings, all sessions and annotators, the lock
  with its queue, the clock, and whether shutdown was requested;
* `CommandLog.Actor` – who can take a step: a session or an annotator;
* `CommandLog.Service.step?` – **the step of an actor**, if it has one now. Which actor takes the
  next step is open, so a run of the service is any sequence of such steps and of events from
  outside;
* `CommandLog.Service.settle` – one particular run: the actors go on until none of them can;
* `CommandLog.Service.work` – how many steps are left, at most, if nothing comes from outside.

`CommandLog.Service.step?_work_lt` says that every step makes that number smaller. So the service
comes to rest by itself, whatever order its actors go in.
-/

namespace CommandLog

/-- Who can take a step. -/
inductive Actor where
  /-- A session, by its identifier. -/
  | session (id : SessionId)
  /-- An annotator, by its position. -/
  | annotator (index : Nat)
deriving DecidableEq, Repr

/-- Sessions and annotators around one engine. -/
structure Service where
  /-- The log. -/
  engine : Engine
  /-- What the engine acts on. -/
  host : Host
  /-- The registry of the sessions. -/
  registry : Registry := {}
  /-- All sessions ever started, by identifier. -/
  sessions : List Session := []
  /-- All annotators ever started. -/
  annotators : List Annotator := []
  /-- Milliseconds since the service was started. -/
  clock : Nat := 0
  /-- The time at which the service was started, in milliseconds since the start of 1970. -/
  epoch : Nat := 0
  /-- Whether shutdown was requested. -/
  cancelled : Bool := false
  /-- Whether someone outside holds the engine's lock. -/
  held : Bool := false
  /-- Who waits for the lock, in the order of asking. -/
  queue : List Actor := []
deriving Inhabited

namespace Service

/-- The current time. -/
def now (s : Service) : Instant :=
  Instant.ofMillis (s.epoch + s.clock)

/-- Whether an actor's turn has come: the lock is free, and nobody asked before him. -/
def grants (s : Service) (a : Actor) : Bool :=
  !s.held && s.queue.head? == some a

/-- The service with one session changed. -/
def setSession (s : Service) (id : SessionId) (x : Session) : Service :=
  { s with sessions := s.sessions.set id x }

/-- The service with one annotator changed. -/
def setAnnotator (s : Service) (index : Nat) (x : Annotator) : Service :=
  { s with annotators := s.annotators.set index x }

/-- What a session's own step does to its surroundings. -/
def absorb (s : Service) (id : SessionId) : Session.Effect → Service
  | .none => s
  | .commandAborted =>
    { s with
      host := { s.host with
        metrics := { s.host.metrics with
          commandsAborted := s.host.metrics.commandsAborted + 1 } } }
  | .lockRequested => { s with queue := s.queue ++ [.session id] }
  | .completed => { s with registry := s.registry.complete id }

/-- A session's request carried out, at the head of the queue. -/
def serve (s : Service) (id : SessionId) (x : Session) (r : Request) : Service :=
  let (answer, engine, host) := s.engine.answer s.host r
  { s with engine, host, queue := s.queue.drop 1 }.setSession id (x.answered answer)

/-- An annotator's timestamp stored, at the head of the queue. -/
def annotate (s : Service) (index : Nat) (x : Annotator) (deadline : Nat) (stamp : Timestamp) :
    Service :=
  let (result, engine, host) := s.engine.append stamp.bytes s.host
  let stored := match result with
    | .ok _ => 1
    | .error _ => 0
  let metrics :=
    { host.metrics with timestampsAppended := host.metrics.timestampsAppended + stored }
  { s with engine, host := { host with metrics }, queue := s.queue.drop 1 }.setAnnotator index
    { x with phase := .waiting deadline }

/-- The step of a session. -/
def stepSession? (s : Service) (id : SessionId) (x : Session) : Option Service :=
  match x.phase with
  | .queued r => if s.grants (.session id) then some (s.serve id x r) else none
  | _ =>
    match x.advance? s.cancelled with
    | some (e, x) => some ((s.setSession id x).absorb id e)
    | none => none

/-- The step of an annotator. -/
def stepAnnotator? (s : Service) (index : Nat) (x : Annotator) : Option Service :=
  match x.phase with
  | .queued deadline stamp =>
    if s.grants (.annotator index) then some (s.annotate index x deadline stamp) else none
  | _ =>
    match x.advance? s.cancelled s.clock s.now with
    | some x =>
      let s := s.setAnnotator index x
      some (if x.hasEnded then s else { s with queue := s.queue ++ [.annotator index] })
    | none => none

/-- **The step of an actor**, if it has one now. -/
def step? (s : Service) : Actor → Option Service
  | .session id =>
    match s.sessions[id]? with
    | some x => s.stepSession? id x
    | none => none
  | .annotator index =>
    match s.annotators[index]? with
    | some x => s.stepAnnotator? index x
    | none => none

/-! ### The service comes to rest -/

/-- **A bound on the steps left**, if nothing comes from outside. -/
def work (s : Service) : Nat :=
  total (s.sessions.map Session.weight) + total (s.annotators.map (Annotator.weight s.clock))

theorem work_setSession_lt {s : Service} {id : SessionId} {x y : Session}
    (h : s.sessions[id]? = some x) (hlt : y.weight < x.weight) :
    (s.setSession id y).work < s.work := by
  have := total_map_set Session.weight y h
  simp only [work, setSession]
  omega

theorem work_setAnnotator_lt {s : Service} {i : Nat} {x y : Annotator}
    (h : s.annotators[i]? = some x) (hlt : y.weight s.clock < x.weight s.clock) :
    (s.setAnnotator i y).work < s.work := by
  have := total_map_set (Annotator.weight s.clock) y h
  simp only [work, setAnnotator]
  omega

@[simp] theorem work_absorb (s : Service) (id : SessionId) (e : Session.Effect) :
    (s.absorb id e).work = s.work := by
  cases e <;> rfl

theorem stepSession?_work_lt {s s' : Service} {id : SessionId} {x : Session}
    (hx : s.sessions[id]? = some x) (h : s.stepSession? id x = some s') : s'.work < s.work := by
  unfold stepSession? at h
  split at h
  · next r hphase =>
    split at h
    · cases h
      have hlt := Session.weight_answered_lt hphase (s.engine.answer s.host r).1
      have := total_map_set Session.weight (x.answered (s.engine.answer s.host r).1) hx
      simp only [serve, work, setSession]
      omega
    · cases h
  · split at h
    · next hadvance =>
      cases h
      rw [work_absorb]
      exact work_setSession_lt hx (Session.weight_advance?_lt hadvance)
    · cases h

theorem stepAnnotator?_work_lt {s s' : Service} {index : Nat} {x : Annotator}
    (hx : s.annotators[index]? = some x) (h : s.stepAnnotator? index x = some s') :
    s'.work < s.work := by
  unfold stepAnnotator? at h
  split at h
  · next deadline stamp hphase =>
    split at h
    · cases h
      have := total_map_set (Annotator.weight s.clock)
        ({ x with phase := .waiting deadline } : Annotator) hx
      have hlt : ({ x with phase := .waiting deadline } : Annotator).weight s.clock
          < x.weight s.clock := by
        simp [Annotator.weight, hphase]
      simp only [annotate, work, setAnnotator]
      omega
    · cases h
  · split at h
    · next y hadvance =>
      have hlt := work_setAnnotator_lt hx (Annotator.weight_advance?_lt hadvance)
      have hs : s'.work = (s.setAnnotator index y).work := by
        simp only [Option.some.injEq] at h
        subst h
        split <;> rfl
      omega
    · cases h

/-- **Every step leaves less work.** -/
theorem step?_work_lt {s s' : Service} {a : Actor} (h : s.step? a = some s') :
    s'.work < s.work := by
  cases a with
  | session id =>
    simp only [step?] at h
    split at h
    · next hx => exact stepSession?_work_lt hx h
    · cases h
  | annotator index =>
    simp only [step?] at h
    split at h
    · next hx => exact stepAnnotator?_work_lt hx h
    · cases h

/-! ### A run until everything rests -/

/-- All actors of a service. -/
def actors (s : Service) : List Actor :=
  (List.range s.sessions.length).map .session ++
    (List.range s.annotators.length).map .annotator

/-- The first of some actors that has a step, with the service after it. -/
def firstMove? (s : Service) : List Actor → Option (Actor × Service)
  | [] => none
  | a :: rest =>
    match s.step? a with
    | some s' => some (a, s')
    | none => firstMove? s rest

theorem work_lt_of_firstMove? {s s' : Service} {a : Actor} {as : List Actor}
    (h : s.firstMove? as = some (a, s')) : s'.work < s.work := by
  induction as with
  | nil => simp [firstMove?] at h
  | cons b rest ih =>
    simp only [firstMove?] at h
    split at h
    · next hstep =>
      cases h
      exact step?_work_lt hstep
    · exact ih h

/-- A run until everything rests. An actor goes on as long as it can; then it is the turn of
whoever has waited longest for the lock, and then of the others in their order. -/
def settleFrom (last : List Actor) (s : Service) : Service :=
  match _h : s.firstMove? (last ++ s.queue.take 1 ++ s.actors) with
  | none => s
  | some (a, s') => settleFrom [a] s'
termination_by s.work
decreasing_by exact work_lt_of_firstMove? _h

/-- **The service at rest.** -/
def settle (s : Service) : Service :=
  settleFrom [] s

end Service

end CommandLog
