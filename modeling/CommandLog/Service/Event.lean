import CommandLog.Service

/-!
# Events from outside

What happens to a service of sessions and annotators without their doing: connections are made,
peers send, stop sending or stop reading, transports break, shutdown is requested, someone else
takes the lock or stores a command, and time goes by.

* `CommandLog.Service.Event` – such an event;
* `CommandLog.Service.handle` – its effect. Nobody moves yet: the steps that it makes possible are
  steps of the actors;
* `CommandLog.Service.Move` – **one move of a run**, an event or the step of an actor;
* `CommandLog.Service.Reachable` – what can be reached by such moves;
* `CommandLog.Service.appendDirectly` and `CommandLog.Service.reap` – two events that have a
  result;
* `CommandLog.Service.sleep` – time that goes by with every timer served in its turn.
-/

namespace CommandLog.Service

/-- Something that happens to a service. -/
inductive Event where
  /-- A connection is made and a session with the given size limit is started on it. -/
  | connect (limit : Nat)
  /-- A piece of input arrives. -/
  | deliver (id : SessionId) (piece : Bytes)
  /-- The peer closes its side, or receiving begins to fail, after the input that has arrived. -/
  | endInput (id : SessionId) (ending : Transport.Ending)
  /-- Sending and shutting down begin to fail. -/
  | breakOutput (id : SessionId)
  /-- The peer is ready to take so many bytes from now on, or everything. -/
  | allow (id : SessionId) (room : Option Nat)
  /-- Shutdown is requested. -/
  | cancel
  /-- Someone outside takes the lock. -/
  | hold
  /-- The lock is given back. -/
  | release
  /-- Someone outside stores a command. -/
  | append (payload : Bytes)
  /-- The sessions that are complete are collected. -/
  | reap
  /-- An annotator is started. -/
  | annotate (period : Nat)
  /-- The clock goes forward. -/
  | tick (ms : Nat)
deriving DecidableEq, Repr

/-- The service with the transport of one session changed. -/
def onTransport (s : Service) (id : SessionId) (f : Transport → Transport) : Service :=
  { s with sessions := s.sessions.modify id fun x => { x with transport := f x.transport } }

/-- A session started on a new connection, with its identifier. -/
def connect (s : Service) (limit : Nat) : SessionId × Service :=
  let (id, registry, metrics) := s.registry.spawn s.host.metrics
  (id,
    { s with
      registry
      host := { s.host with metrics }
      sessions := s.sessions ++ [{ limit }] })

/-- A command stored by someone who has the lock. -/
def appendDirectly (s : Service) (payload : Bytes) : Except Error (Option Entry) × Service :=
  let (result, engine, host) := s.engine.append payload s.host
  (result, { s with engine, host })

/-- Whether the task of a session has ended. -/
def sessionHasEnded (s : Service) (id : SessionId) : Bool :=
  match s.sessions[id]? with
  | some x => x.hasEnded
  | none => true

/-- The sessions that are complete are collected. -/
def reap (s : Service) : Option Nat × Service :=
  let (n, registry, metrics) := s.registry.reap s.sessionHasEnded s.host.metrics
  (n, { s with registry, host := { s.host with metrics } })

/-- **The effect of an event.** A command from outside takes the lock for a moment, so it is only
stored when its turn has come: the lock is held outside anyway, or nobody waits for it. -/
def handle (s : Service) : Event → Service
  | .connect limit => (s.connect limit).2
  | .deliver id piece => s.onTransport id (·.deliver piece)
  | .endInput id ending => s.onTransport id fun t => { t with ending := some ending }
  | .breakOutput id => s.onTransport id fun t => { t with outputBroken := true }
  | .allow id room => s.onTransport id fun t => { t with room }
  | .cancel => { s with cancelled := true }
  | .hold => { s with held := true }
  | .release => { s with held := false }
  | .append payload =>
    if s.held || s.queue.isEmpty then (s.appendDirectly payload).2 else s
  | .reap => s.reap.2
  | .annotate period => { s with annotators := s.annotators ++ [.start period s.clock] }
  | .tick ms => { s with clock := s.clock + ms }

/-- **One move of a run.** -/
inductive Move : Service → Service → Prop where
  /-- Something happens. -/
  | event (s : Service) (e : Event) : Move s (s.handle e)
  /-- An actor takes a step. -/
  | actor {s s' : Service} {a : Actor} (h : s.step? a = some s') : Move s s'

/-- What can be reached from a service by any moves in any order. -/
inductive Reachable (start : Service) : Service → Prop where
  /-- The start itself. -/
  | refl : Reachable start start
  /-- One move further. -/
  | step {s s' : Service} (h : Reachable start s) (m : Move s s') : Reachable start s'

/-! ### Time that goes by -/

/-- The deadline that comes first among the annotators that wait for their timers. -/
def firstDeadline? (s : Service) : Option Nat :=
  (s.annotators.filterMap fun a =>
    match a.phase with
    | .waiting deadline => some deadline
    | _ => none).min?

/-- **Time goes by**, and every timer is served at its deadline: the clock goes to the first
deadline, the service comes to rest, and so on up to the end of the time. -/
def sleep (s : Service) (ms : Nat) : Service :=
  match s.firstDeadline? with
  | some deadline =>
    if s.clock < deadline ∧ deadline ≤ s.clock + ms then
      sleep (s.handle (.tick (deadline - s.clock))).settle (ms - (deadline - s.clock))
    else (s.handle (.tick ms)).settle
  | none => (s.handle (.tick ms)).settle
termination_by ms
decreasing_by omega

end CommandLog.Service
