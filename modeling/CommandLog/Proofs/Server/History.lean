import CommandLog.Proofs.Registry.Accounts
import CommandLog.Proofs.Service.Shutdown
import CommandLog.Server

/-!
# The history of a server

A run of a server is any sequence of moves of its supervisor, of steps of its sessions and
annotators, of events outside and of failures. Notes are taken of what sessions and annotators do,
as for a service alone.

* `CommandLog.Server.Own` – what the supervisor does by itself, stage by stage;
* `CommandLog.Server.Act` – **everything that can happen in one move**, with its notes;
* `CommandLog.Server.Run` – **a run with its notes**. Every state that can be reached is reached by
  a run (`CommandLog.Server.reachable_iff_exists_run`);
* `CommandLog.Service.Signed` – a session is reported complete just when it has ended;
* `CommandLog.Service.Steady` – nobody is started or collected, and whoever has ended stays there;
* `CommandLog.Server.Supervised` – **what the supervisor can rely on**: the registry accounts for
  all sessions, and later stages are reached when those before them are over
  (`CommandLog.Server.Supervised.act`, and `CommandLog.Server.Run.supervised` for every run).

Only the supervisor starts and collects sessions. All other moves are alike for it, which is what
`CommandLog.Service.Steady` says, so what it relies on is looked at stage by stage and not actor by
actor.
-/

namespace CommandLog

/-! ### Whoever has ended -/

/-- A session that has ended does nothing any more. -/
theorem Session.Step.ended {x x' : Session} {ds : List Session.Deed} (h : x.Step ds x')
    (hended : x.phase = .ended) : x'.phase = .ended := by
  cases h with
  | own hadvance =>
    rw [advance?, hended] at hadvance
    cases hadvance
  | served hphase =>
    rw [hended] at hphase
    cases hphase
  | outside => exact hended

/-- **A session ends by reporting its completion**, and at no other time. -/
theorem Session.Act.ended_iff {cancelled : Bool} {x x' : Session} {e : Session.Effect}
    {ds : List Session.Deed} (hact : x.Act cancelled e ds x') :
    x.phase ≠ .ended ∧ (x'.phase = .ended ↔ e = .completed) := by
  cases hact with
  | drop hphase => simp [hphase]
  | @send _ left _ hphase => cases left <;> simp [hphase]
  | ask hphase | giveUp hphase | await hphase | receive hphase | leaveAtEnd hphase
  | leaveBroken hphase | leaveWaiting hphase | leaveBlocked hphase | shutDown hphase
  | signOff hphase => simp [hphase]

theorem Session.hasEnded_iff {x : Session} : x.hasEnded = true ↔ x.phase = .ended :=
  beq_iff_eq

theorem Annotator.hasEnded_iff {a : Annotator} : a.hasEnded = true ↔ a.phase = .ended :=
  beq_iff_eq

namespace Service

variable {s s' : Service} {notes : List Note} {id : SessionId}

theorem sessionHasEnded_of_getElem? {x : Session} (hx : s.sessions[id]? = some x) :
    s.sessionHasEnded id = x.hasEnded := by
  rw [sessionHasEnded, hx]

/-- **A session that has ended stays there.** -/
theorem ended_of_act (hact : s.Act notes s') (hlength : s'.sessions.length = s.sessions.length)
    (hended : s.sessionHasEnded id = true) : s'.sessionHasEnded id = true := by
  rcases hx' : s'.sessions[id]? with _ | x'
  · rw [sessionHasEnded, hx']
  · rw [sessionHasEnded_of_getElem? hx']
    have hlt' := (List.getElem?_eq_some_iff.mp hx').1
    cases turn_of_act hact hx' with
    | step hx hstep =>
      rw [sessionHasEnded_of_getElem? hx, Session.hasEnded_iff] at hended
      exact Session.hasEnded_iff.mpr (hstep.ended hended)
    | start hid => exact absurd (hid.trans hlength.symm) (Nat.ne_of_lt hlt')
    | rest hx => rwa [sessionHasEnded_of_getElem? hx] at hended

/-- **Annotators that have ended stay there.** -/
theorem annotators_of_act (hact : s.Act notes s')
    (hlength : s'.annotators.length = s.annotators.length)
    (hended : ∀ a ∈ s.annotators, a.hasEnded = true) : s'.annotators = s.annotators := by
  cases hact with
  | event e =>
    cases e with
    | annotate period =>
      change (s.annotators ++ [_]).length = _ at hlength
      rw [List.length_append, List.length_singleton] at hlength
      exact absurd hlength (Nat.succ_ne_self _)
    | append payload =>
      simp only [handle]
      split <;> rfl
    | connect | deliver | endInput | breakOutput | allow | cancel | hold | release | reap | tick =>
      rfl
  | serve => rfl
  | session => exact annotators_absorb _ _ _
  | annotate ha hphase =>
    have hdone := Annotator.hasEnded_iff.mp (hended _ (List.mem_of_getElem? ha))
    rw [hphase] at hdone
    cases hdone
  | wake ha hadvance =>
    have hdone := Annotator.hasEnded_iff.mp (hended _ (List.mem_of_getElem? ha))
    rw [Annotator.advance?, hdone] at hadvance
    cases hadvance

/-- **Nobody has a step** when everybody has ended. -/
theorem step?_of_ended (hsessions : ∀ id, s.sessionHasEnded id = true)
    (hannotators : ∀ a ∈ s.annotators, a.hasEnded = true) (a : Actor) : s.step? a = none := by
  cases a with
  | session id =>
    rcases hx : s.sessions[id]? with _ | x
    · simp only [step?, hx]
    · have hended := hsessions id
      rw [sessionHasEnded_of_getElem? hx, Session.hasEnded_iff] at hended
      simp only [step?, hx, stepSession?, Session.advance?, hended]
  | annotator index =>
    rcases ha : s.annotators[index]? with _ | c
    · simp only [step?, ha]
    · have hended := Annotator.hasEnded_iff.mp (hannotators c (List.mem_of_getElem? ha))
      simp only [step?, ha, stepAnnotator?, Annotator.advance?, hended]

/-! ### Whoever is reported complete -/

/-- **A session is reported complete just when it has ended.** -/
def Signed (s : Service) : Prop :=
  ∀ id, id ∈ s.registry.reported ↔ s.sessions[id]?.map Session.phase = some .ended

theorem Signed.lt_of_reported (h : s.Signed) (hid : id ∈ s.registry.reported) :
    id < s.sessions.length := by
  obtain ⟨x, hx, -⟩ := Option.map_eq_some_iff.mp ((h id).mp hid)
  exact (List.getElem?_eq_some_iff.mp hx).1

theorem Signed.hasEnded (h : s.Signed) (hid : id ∈ s.registry.reported) :
    s.sessionHasEnded id = true := by
  obtain ⟨x, hx, hphase⟩ := Option.map_eq_some_iff.mp ((h id).mp hid)
  rw [sessionHasEnded_of_getElem? hx]
  exact Session.hasEnded_iff.mpr hphase

/-- Nobody ends, and nobody is reported. -/
theorem Signed.of_same (h : s.Signed) (hreported : s'.registry.reported = s.registry.reported)
    (hphases : s'.sessions.map Session.phase = s.sessions.map Session.phase) : s'.Signed := by
  intro id
  rw [hreported, h id, ← List.getElem?_map, ← List.getElem?_map, hphases]

/-- One session takes a step, and is reported if it ends by that. -/
theorem Signed.set {x y : Session} (h : s.Signed) (hx : s.sessions[id]? = some x)
    (hsessions : s'.sessions = s.sessions.set id y) (hkept : x.phase = .ended → y.phase = .ended)
    (hreported : ∀ id', id' ∈ s'.registry.reported ↔
      id' ∈ s.registry.reported ∨ id' = id ∧ y.phase = .ended) : s'.Signed := by
  intro id'
  rw [hreported, h id', hsessions]
  by_cases heq : id' = id
  · subst heq
    rw [List.getElem?_set_self', hx]
    simpa using hkept
  · rw [List.getElem?_set_ne (Ne.symm heq)]
    simp [heq]

theorem Signed.connect (h : s.Signed) (limit : Nat) : (s.handle (.connect limit)).Signed := by
  intro id
  refine (h id).trans ?_
  change _ ↔ (s.sessions ++ [({ limit } : Session)])[id]?.map Session.phase = some .ended
  rw [List.getElem?_append]
  split
  · exact Iff.rfl
  · next hge =>
    rw [List.getElem?_eq_none (Nat.le_of_not_lt hge), List.getElem?_singleton]
    split <;> simp

theorem Signed.handle (h : s.Signed) (e : Event) : (s.handle e).Signed := by
  cases e with
  | connect limit => exact h.connect limit
  | deliver id' | endInput id' | breakOutput id' | allow id' =>
    refine h.of_same rfl (List.ext_getElem? fun i => ?_)
    simp only [Service.handle, onTransport, List.getElem?_map, List.getElem?_modify,
      Option.map_eq_map, Option.map_map]
    split <;> rfl
  | append payload =>
    refine h.of_same (reported_handle s _) ?_
    simp only [Service.handle]
    split <;> rfl
  | reap => exact h.of_same (reported_handle s .reap) rfl
  | cancel | hold | release | annotate | tick => exact h.of_same rfl rfl

/-- **Every move keeps this up.** -/
theorem Signed.act (h : s.Signed) (hact : s.Act notes s') : s'.Signed := by
  cases hact with
  | event e => exact h.handle e
  | @serve id x r hx hphase =>
    have hgoing : ∀ answer, (x.answered answer).phase ≠ .ended := by
      intro answer
      cases answer <;> simp [Session.answered]
    refine h.set hx rfl (by simp [hphase]) fun id' => ?_
    simp [hgoing, serve, setSession]
  | @session id x x' e hx hadvance =>
    obtain ⟨hgoing, hended⟩ := (Session.act_of_advance? hadvance).ended_iff
    refine h.set hx (sessions_absorb _ _ _) (fun hphase => absurd hphase hgoing) fun id' => ?_
    rw [registry_absorb, hended]
    by_cases heffect : e = .completed
    · simp [heffect, setSession]
    · simp [heffect, setSession]
  | annotate | wake => exact h.of_same rfl rfl

theorem Signed.crash (h : s.Signed) {id : SessionId} (hid : id < s.sessions.length) :
    (Server.crash s id).Signed := by
  intro id'
  simp only [Server.crash, Registry.mem_reported_complete, List.getElem?_modify,
    Option.map_eq_map, Option.map_map, h id']
  by_cases heq : id' = id
  · subst heq
    simp [List.getElem?_eq_getElem hid]
  · simp [heq, Ne.symm heq]

/-- **Nobody is started or collected**, and whoever has ended stays there. -/
structure Steady (s s' : Service) : Prop where
  /-- No session is started. -/
  length_sessions : s'.sessions.length = s.sessions.length
  /-- No identifier is given out. -/
  spawned : s'.registry.spawned = s.registry.spawned
  /-- Nobody is collected. -/
  registered : s'.registry.registered = s.registry.registered
  /-- No report comes in. -/
  arrived : s'.registry.arrived = s.registry.arrived
  /-- The number of sessions that is published stays as it is. -/
  gauge : s'.host.metrics.sessionsActive = s.host.metrics.sessionsActive
  /-- A report that was made is not taken back. -/
  reported : ∀ id ∈ s.registry.reported, id ∈ s'.registry.reported
  /-- Whoever ends is reported. -/
  signed : s.Signed → s'.Signed
  /-- A session that has ended stays there. -/
  ended : ∀ id, s.sessionHasEnded id = true → s'.sessionHasEnded id = true
  /-- So do the annotators. -/
  annotators : (∀ a ∈ s.annotators, a.hasEnded = true) → s'.annotators = s.annotators

theorem steady_of_step? {a : Actor} (hstep : s.step? a = some s') : Steady s s' where
  length_sessions := (frame_of_step? hstep).length_sessions
  spawned := (frame_of_step? hstep).spawned
  registered := (frame_of_step? hstep).registered
  arrived := (frame_of_step? hstep).arrived
  gauge := (frame_of_step? hstep).gauge
  reported id hid := by
    rcases (frame_of_step? hstep).reported with hsame | ⟨id', hone⟩
    · rwa [hsame]
    · rw [hone]
      exact List.mem_append_left _ hid
  signed h := h.act (act_of_step? hstep)
  ended _ := ended_of_act (act_of_step? hstep) (frame_of_step? hstep).length_sessions
  annotators :=
    annotators_of_act (act_of_step? hstep) (frame_of_step? hstep).length_annotators

theorem steady_of_event {e : Event} (h : Server.isOutside e = true) : Steady s (s.handle e) := by
  have hlength : (s.handle e).sessions.length = s.sessions.length ∧
      (s.handle e).annotators.length = s.annotators.length ∧
      (s.handle e).registry = s.registry ∧ (s.handle e).host = s.host := by
    cases e with
    | deliver | endInput | breakOutput | allow =>
      simp only [handle, onTransport, List.length_modify, and_self]
    | cancel | hold | release | tick => exact ⟨rfl, rfl, rfl, rfl⟩
    | connect | append | reap | annotate => cases h
  obtain ⟨hsessions, hannotators, hregistry, hhost⟩ := hlength
  exact
    { length_sessions := hsessions
      spawned := congrArg Registry.spawned hregistry
      registered := congrArg Registry.registered hregistry
      arrived := congrArg Registry.arrived hregistry
      gauge := by rw [hhost]
      reported := fun _ hid => hregistry ▸ hid
      signed := fun h => h.handle e
      ended := fun _ => ended_of_act (.event e) hsessions
      annotators := annotators_of_act (.event e) hannotators }

/-- A session whose task fails has ended. -/
theorem steady_crash {id : SessionId} (hid : id < s.sessions.length) :
    Steady s (Server.crash s id) where
  length_sessions := List.length_modify ..
  spawned := Registry.spawned_complete ..
  registered := Registry.registered_complete ..
  arrived := Registry.arrived_complete ..
  gauge := rfl
  reported _ h := Registry.mem_reported_complete.mpr (.inl h)
  signed h := h.crash hid
  ended id' hended := by
    simp only [sessionHasEnded, Server.crash, List.getElem?_modify]
    rcases hx : s.sessions[id']? with _ | x
    · rfl
    · rw [sessionHasEnded_of_getElem? hx] at hended
      simp only [Option.map_eq_map, Option.map_some]
      split
      · rfl
      · exact hended
  annotators _ := rfl

end Service

/-! ### Moves -/

namespace Server

open Service (Note Steady)

variable {start s s' : Server} {notes notes' : List Note}

/-- **What the supervisor does by itself**, stage by stage. -/
inductive Own (s : Server) : Server → Prop where
  /-- It finds that shutdown was requested. -/
  | down (hstage : s.stage = .serving) (hcancelled : s.service.cancelled = true) :
    Own s { s with stage := .draining }
  /-- It takes notice of a report. -/
  | notice (hstage : s.stage = .serving) (hcancelled : s.service.cancelled = false)
    (hpending : s.pending ≠ 0) :
    Own s { s with noticed := s.noticed + 1, stage := .collecting }
  /-- It finds the sessions that are complete. -/
  | survey (hstage : s.stage = .collecting) :
    Own s { s with stage := .awaiting s.service.registry.survey }
  /-- It collects the next one of them. -/
  | collect {c c' : Registry.Collection} {id : SessionId} (hstage : s.stage = .awaiting c)
    (hleft : c.left = id :: c'.left) (hfound : c'.found = c.found)
    (hfinished : id ∈ s.finished) :
    Own s
      { s with
        service := { s.service with registry := s.service.registry.without [id] }
        stage := .awaiting c' }
  /-- It has collected all of them. -/
  | conclude {c : Registry.Collection} (hstage : s.stage = .awaiting c) (hleft : c.left = []) :
    Own s
      { s with
        service :=
          { s.service with
            host :=
              { s.service.host with
                metrics := s.service.registry.conclude c s.service.host.metrics } }
        published := s.service.registry.size
        stage := .serving }
  /-- It collects all sessions. -/
  | drain {registry : Registry} {metrics : Metrics} (hstage : s.stage = .draining)
    (hdrain : s.service.registry.drain s.hasFinished s.service.host.metrics =
      (true, registry, metrics)) :
    Own s
      { s with
        service := { s.service with registry, host := { s.service.host with metrics } }
        published := 0
        stage := .joining }
  /-- It finds that the annotators have ended. -/
  | join (hstage : s.stage = .joining) (hended : ∀ a ∈ s.service.annotators, a.hasEnded = true) :
    Own s { s with stage := .closing }
  /-- It has got the lock, and lets go of the journal. -/
  | close {result : Except Error Unit} {engine : Engine} {host : Host}
    (hstage : s.stage = .closing) (hheld : s.service.held = false) (hqueue : s.service.queue = [])
    (hclose : s.service.engine.close s.settings.purgesJournal s.service.host =
      (result, engine, host)) :
    Own s { s with service := { s.service with engine, host }, stage := .stopped result }

theorem own_of_collect? {c : Registry.Collection} (hstage : s.stage = .awaiting c)
    (h : s.collect? c = some s') : s.Own s' := by
  unfold collect? at h
  split at h
  · next hempty =>
    cases h
    exact .conclude hstage (List.isEmpty_iff.mp hempty)
  · split at h
    · cases h
    · next hcollect =>
      obtain ⟨hleft, hfound, hended, rfl⟩ := Registry.collect?_eq_some_iff.mp hcollect
      cases h
      exact .collect hstage hleft hfound (of_decide_eq_true hended)

theorem own_of_advance? (h : s.advance? = some s') : s.Own s' := by
  unfold advance? at h
  split at h
  · next hstage =>
    unfold serve? at h
    split at h
    · next hcancelled =>
      cases h
      exact .down hstage hcancelled
    · next hcancelled =>
      rw [Option.ite_none_right_eq_some] at h
      obtain ⟨hpending, h⟩ := h
      cases h
      exact .notice hstage (Bool.eq_false_iff.mpr hcancelled) hpending
  · next hstage =>
    cases h
    exact .survey hstage
  · next c hstage => exact own_of_collect? hstage h
  · next hstage =>
    unfold drain? at h
    split at h
    · cases h
    · next hdrain =>
      cases h
      exact .drain hstage hdrain
  · next hstage =>
    rw [Option.ite_none_right_eq_some] at h
    obtain ⟨hended, h⟩ := h
    cases h
    exact .join hstage (List.all_eq_true.mp hended)
  · next hstage =>
    unfold close? at h
    rw [Option.ite_none_left_eq_some] at h
    obtain ⟨hlock, h⟩ := h
    cases h
    rw [Bool.or_eq_true, not_or, Bool.not_eq_true, Bool.not_eq_true, Bool.not_eq_false',
      List.isEmpty_iff] at hlock
    exact .close hstage hlock.1 hlock.2 rfl
  · cases h

theorem advance?_of_own (h : s.Own s') : s.advance? = some s' := by
  cases h with
  | down hstage hcancelled => simp [advance?, hstage, serve?, hcancelled]
  | notice hstage hcancelled hpending => simp [advance?, hstage, serve?, hcancelled, hpending]
  | survey hstage => simp [advance?, hstage]
  | @collect c c' id hstage hleft hfound hfinished =>
    have hended : s.hasFinished id = true := decide_eq_true hfinished
    have hcollect : s.service.registry.collect? s.hasFinished c =
        some (id, s.service.registry.without [id], c') :=
      Registry.collect?_eq_some_iff.mpr ⟨hleft, hfound, hended, rfl⟩
    simp [advance?, hstage, collect?, hleft, hcollect]
  | conclude hstage hleft => simp [advance?, hstage, collect?, hleft]
  | drain hstage hdrain => simp [advance?, hstage, drain?, hdrain]
  | join hstage hended =>
    rw [advance?, hstage]
    exact if_pos (List.all_eq_true.mpr hended)
  | close hstage hheld hqueue hclose => simp [advance?, hstage, close?, hheld, hqueue, hclose]

/-- **What can happen to a server in one move**, with the notes of it. -/
inductive Act (s : Server) : List Note → Server → Prop where
  /-- A connection is accepted. -/
  | accept (hstage : s.stage = .serving) (hcancelled : s.service.cancelled = false)
    (hpending : s.pending = 0) :
    Act s []
      { s with
        service := s.service.handle (.connect s.settings.maxCommandBytes)
        stage := .collecting }
  /-- Accepting a connection fails. -/
  | acceptFails (hstage : s.stage = .serving) (hcancelled : s.service.cancelled = false)
    (hpending : s.pending = 0) : Act s [] { s with stage := .collecting }
  /-- The supervisor takes a step. -/
  | own {s' : Server} (hown : s.Own s') : Act s [] s'
  /-- The report of a session comes in. -/
  | arrive {id : SessionId} (hreported : id ∈ s.service.registry.reported)
    (hnew : id ∉ s.service.registry.arrived) :
    Act s [] { s with service := { s.service with registry := s.service.registry.arrive id } }
  /-- The task of a session is over. -/
  | finish {id : SessionId} (harrived : id ∈ s.service.registry.arrived)
    (hreported : id ∈ s.service.registry.reported) (hnew : id ∉ s.finished) :
    Act s [] { s with finished := s.finished ++ [id] }
  /-- A session or an annotator takes a step. -/
  | actor {a : Actor} {service : Service} (hstep : s.service.step? a = some service) :
    Act s (s.service.noted (.actor a)) { s with service }
  /-- Something happens outside. -/
  | event (e : Service.Event) (houtside : isOutside e = true) :
    Act s [] { s with service := s.service.handle e }
  /-- The task of a session that was started fails. -/
  | crash (id : SessionId) (hid : id < s.service.sessions.length) :
    Act s [] { s with service := Server.crash s.service id }

theorem act_of_accept? {id : SessionId} (h : s.accept? = some (id, s')) : s.Act [] s' := by
  unfold accept? at h
  split at h
  · next hstage =>
    rw [Option.ite_none_left_eq_some] at h
    obtain ⟨hready, h⟩ := h
    cases h
    rw [Bool.or_eq_true, not_or, Bool.not_eq_true, decide_eq_true_eq, not_not] at hready
    exact .accept hstage hready.1 hready.2
  · cases h

theorem act_of_acceptFails? (h : s.acceptFails? = some s') : s.Act [] s' := by
  unfold acceptFails? at h
  split at h
  · next hstage =>
    rw [Option.ite_none_left_eq_some] at h
    obtain ⟨hready, h⟩ := h
    cases h
    rw [Bool.or_eq_true, not_or, Bool.not_eq_true, decide_eq_true_eq, not_not] at hready
    exact .acceptFails hstage hready.1 hready.2
  · cases h

/-- **A task comes to its end**: the report comes in, and then the task is over. -/
theorem signOff?_eq_some_iff {id : SessionId} :
    s.signOff? id = some s' ↔ id ∈ s.service.registry.reported ∧
      (id ∉ s.service.registry.arrived ∧
          s' = { s with service := { s.service with registry := s.service.registry.arrive id } } ∨
        id ∈ s.service.registry.arrived ∧ id ∉ s.finished ∧
          s' = { s with finished := s.finished ++ [id] }) := by
  by_cases hreported : id ∈ s.service.registry.reported
  · by_cases harrived : id ∈ s.service.registry.arrived
    · simp [signOff?, hreported, harrived, eq_comm]
    · simp [signOff?, hreported, harrived, eq_comm]
  · simp [signOff?, hreported]

theorem act_of_signOff? {id : SessionId} (h : s.signOff? id = some s') : s.Act [] s' := by
  obtain ⟨hreported, ⟨hnew, rfl⟩ | ⟨harrived, hnew, rfl⟩⟩ := signOff?_eq_some_iff.mp h
  · exact .arrive hreported hnew
  · exact .finish harrived hreported hnew

/-- **Every move is one of these.** -/
theorem act_of_move (m : Move s s') : ∃ notes, s.Act notes s' := by
  cases m with
  | accept h => exact ⟨_, act_of_accept? h⟩
  | acceptFails h => exact ⟨_, act_of_acceptFails? h⟩
  | supervisor h => exact ⟨_, .own (own_of_advance? h)⟩
  | signOff h => exact ⟨_, act_of_signOff? h⟩
  | actor h => exact ⟨_, .actor h⟩
  | event e h => exact ⟨_, .event e h⟩
  | crash id h => exact ⟨_, .crash id h⟩

/-- **Each of these is a move.** -/
theorem move_of_act (hact : s.Act notes s') : Move s s' := by
  cases hact with
  | accept hstage hcancelled hpending =>
    refine @Move.accept s _ s.service.registry.spawned ?_
    simp [accept?, hstage, hcancelled, hpending, Service.connect, Service.handle, Registry.spawn]
  | acceptFails hstage hcancelled hpending =>
    exact .acceptFails (by simp [acceptFails?, hstage, hcancelled, hpending])
  | own hown => exact .supervisor (advance?_of_own hown)
  | arrive hreported hnew =>
    exact .signOff (signOff?_eq_some_iff.mpr ⟨hreported, .inl ⟨hnew, rfl⟩⟩)
  | finish harrived hreported hnew =>
    exact .signOff (signOff?_eq_some_iff.mpr ⟨hreported, .inr ⟨harrived, hnew, rfl⟩⟩)
  | actor hstep => exact .actor hstep
  | event e houtside => exact .event s e houtside
  | crash id hid => exact .crash s id hid

/-- **A run with its notes**, from a given server on. -/
inductive Run (start : Server) : List Note → Server → Prop where
  /-- Nothing has happened yet. -/
  | refl : Run start [] start
  /-- One move further. -/
  | move {notes notes' : List Note} {s s' : Server} (h : Run start notes s)
    (hact : s.Act notes' s') : Run start (notes ++ notes') s'

/-- A move without notes. -/
theorem Run.quiet (h : Run start notes s) (hact : s.Act [] s') : Run start notes s' := by
  simpa using h.move hact

/-- **Every state that can be reached is reached by a run.** -/
theorem reachable_iff_exists_run : Reachable start s ↔ ∃ notes, Run start notes s := by
  constructor
  · intro h
    induction h with
    | refl => exact ⟨[], .refl⟩
    | step _ m ih =>
      obtain ⟨notes, hrun⟩ := ih
      obtain ⟨notes', hact⟩ := act_of_move m
      exact ⟨_, hrun.move hact⟩
  · rintro ⟨notes, hrun⟩
    induction hrun with
    | refl => exact .refl
    | move _ hact ih => exact ih.step (move_of_act hact)

theorem settings_of_act (hact : s.Act notes s') : s'.settings = s.settings := by
  cases hact with
  | own hown => cases hown <;> rfl
  | accept | acceptFails | arrive | finish | actor | event | crash => rfl

theorem Run.settings_eq (hrun : Run start notes s) : s.settings = start.settings := by
  induction hrun with
  | refl => rfl
  | move _ hact ih => exact (settings_of_act hact).trans ih

/-! ### What the supervisor relies on -/

/-- Whether all sessions have been waited for. -/
def Stage.isDrained : Stage → Bool
  | .joining | .closing | .stopped _ => true
  | .serving | .collecting | .awaiting _ | .draining => false

/-- Whether the annotators have been waited for as well. -/
def Stage.isJoined : Stage → Bool
  | .closing | .stopped _ => true
  | .serving | .collecting | .awaiting _ | .draining | .joining => false

/-- **What the supervisor can rely on.** -/
structure Supervised (s : Server) : Prop where
  /-- There are as many sessions as identifiers were given out. -/
  spawned : s.service.registry.spawned = s.service.sessions.length
  /-- The sessions that have ended are those that are reported complete. -/
  signed : s.service.Signed
  /-- The registry accounts for all sessions. -/
  accounts : s.service.registry.Accounts s.hasFinished
  /-- The report of a session comes in before its task is over. -/
  finished : ∀ id ∈ s.finished, id ∈ s.service.registry.arrived
  /-- Whoever is about to be collected is reported complete. -/
  awaited : ∀ c, s.stage = .awaiting c → ∀ id ∈ c.left, id ∈ s.service.registry.reported
  /-- All sessions that have been waited for have ended. -/
  drained : s.stage.isDrained = true → ∀ id, s.service.sessionHasEnded id = true
  /-- So have the annotators. -/
  joined : s.stage.isJoined = true → ∀ a ∈ s.service.annotators, a.hasEnded = true

theorem isDrained_of_isJoined {stage : Stage} (h : stage.isJoined = true) :
    stage.isDrained = true := by
  cases stage with
  | closing | stopped => rfl
  | serving | collecting | awaiting | draining | joining => cases h

/-- **A server on settings and an engine.** -/
theorem eq_of_start {settings : Settings} {listening : Except Fault Unit} {engine : Engine}
    {host : Host} {epoch : Nat} (h : Server.start settings listening engine host epoch = .ok s) :
    s =
      { settings
        service :=
          { engine, host, epoch
            annotators := settings.timestampPeriod.toList.map (Annotator.start · 0) } } := by
  unfold Server.start at h
  rcases hcheck : settings.check with err | ⟨⟩
  · rw [hcheck] at h
    cases h
  · rw [hcheck] at h
    rcases hlistening : listening.mapError Error.io with err | ⟨⟩
    · rw [hlistening] at h
      cases h
    · rw [hlistening] at h
      cases h
      rfl

theorem supervised_start {settings : Settings} {listening : Except Fault Unit} {engine : Engine}
    {host : Host} {epoch : Nat} (h : Server.start settings listening engine host epoch = .ok s) :
    Supervised s := by
  rw [eq_of_start h]
  exact ⟨rfl, fun id => by simp, Registry.accounts_empty _, nofun, nofun, nofun, nofun⟩

/-- **A session whose task is over has ended.** -/
theorem Supervised.ended_of_finished (h : Supervised s) {id : SessionId}
    (hlt : id < s.service.registry.spawned) (hfinished : s.hasFinished id = true) :
    s.service.sessionHasEnded id = true :=
  h.signed.hasEnded (h.accounts.arrived id (h.accounts.gone id hlt hfinished))

/-- **All sessions have ended** when the tasks of those that are registered are over. -/
theorem Supervised.ended_of_registered (h : Supervised s)
    (hall : ∀ id ∈ s.service.registry.registered, s.hasFinished id = true) (id : SessionId) :
    s.service.sessionHasEnded id = true := by
  rcases Nat.lt_or_ge id s.service.registry.spawned with hlt | hge
  · refine h.ended_of_finished hlt ?_
    by_cases hregistered : id ∈ s.service.registry.registered
    · exact hall id hregistered
    · exact h.accounts.collected id hlt hregistered
  · rw [h.spawned] at hge
    rw [Service.sessionHasEnded, List.getElem?_eq_none hge]

/-- Moves that start and collect nobody. -/
theorem Supervised.steady {service : Service} (h : Supervised s)
    (hsteady : Steady s.service service) :
    Supervised { s with service } where
  spawned := hsteady.spawned.trans (h.spawned.trans hsteady.length_sessions.symm)
  signed := hsteady.signed h.signed
  accounts := by
    refine h.accounts.report hsteady.spawned hsteady.registered hsteady.arrived hsteady.reported
      fun id hid => ?_
    rw [hsteady.spawned, h.spawned, ← hsteady.length_sessions]
    exact (hsteady.signed h.signed).lt_of_reported hid
  finished := by
    rw [hsteady.arrived]
    exact h.finished
  awaited c hstage id hid := hsteady.reported id (h.awaited c hstage id hid)
  drained hstage id := hsteady.ended id (h.drained hstage id)
  joined hstage := by
    rw [hsteady.annotators (h.joined hstage)]
    exact h.joined hstage

/-- A new session is registered. -/
theorem Supervised.accept (h : Supervised s) (limit : Nat) :
    Supervised
      { s with service := s.service.handle (.connect limit), stage := .collecting } where
  spawned := by
    change s.service.registry.spawned + 1 = (s.service.sessions ++ [_]).length
    rw [h.spawned, List.length_append, List.length_singleton]
  signed := h.signed.connect limit
  accounts := by
    refine h.accounts.spawn s.service.host.metrics ?_ fun _ _ => rfl
    -- nobody has had this identifier yet
    refine decide_eq_false fun hfinished => ?_
    have hreported := h.accounts.arrived _ (h.finished _ hfinished)
    exact absurd (h.accounts.reported _ hreported) (Nat.lt_irrefl _)
  finished := h.finished
  awaited := nofun
  drained := nofun
  joined := nofun

/-- Every stage hands over what it has seen to. -/
theorem Supervised.own (h : Supervised s) (hown : s.Own s') : Supervised s' := by
  cases hown with
  | down | notice | conclude =>
    exact ⟨h.spawned, h.signed, h.accounts, h.finished, nofun, nofun, nofun⟩
  | survey =>
    refine ⟨h.spawned, h.signed, h.accounts, h.finished, ?_, nofun, nofun⟩
    rintro c ⟨⟩ id hid
    exact of_decide_eq_true (List.mem_filter.mp hid).2
  | @collect c c' id hstage hleft _ hfinished =>
    have hended : ∀ id' ∈ [id], s.hasFinished id' = true := by
      simpa [hasFinished] using hfinished
    refine ⟨h.spawned, h.signed, h.accounts.without hended, h.finished, ?_, nofun, nofun⟩
    rintro c ⟨⟩ id' hid'
    exact h.awaited _ hstage id' (hleft ▸ List.mem_cons_of_mem _ hid')
  | drain hstage hdrain =>
    have haccounts := h.accounts.drain hdrain
    obtain ⟨hall, rfl, -⟩ := Registry.drain_eq_true_iff.mp hdrain
    exact ⟨h.spawned, h.signed, haccounts, h.finished, nofun,
      fun _ => h.ended_of_registered hall, nofun⟩
  | join hstage hended =>
    exact ⟨h.spawned, h.signed, h.accounts, h.finished, nofun,
      fun _ => h.drained (by rw [hstage]; rfl), fun _ => hended⟩
  | close hstage =>
    exact ⟨h.spawned, h.signed, h.accounts, h.finished, nofun,
      fun _ => h.drained (by rw [hstage]; rfl), fun _ => h.joined (by rw [hstage]; rfl)⟩

/-- The report of a session comes in. -/
theorem Supervised.arrive (h : Supervised s) {id : SessionId}
    (hreported : id ∈ s.service.registry.reported) :
    Supervised
      { s with service := { s.service with registry := s.service.registry.arrive id } } where
  spawned := (Registry.spawned_arrive ..).trans h.spawned
  signed id' := by
    rw [Registry.reported_arrive]
    exact h.signed id'
  accounts := h.accounts.arrive hreported
  finished id' hid' := (Registry.mem_arrived_arrive hreported).mpr (.inl (h.finished id' hid'))
  awaited := by simpa using h.awaited
  drained := h.drained
  joined := h.joined

/-- The task of a session is over. -/
theorem Supervised.finish (h : Supervised s) {id : SessionId}
    (harrived : id ∈ s.service.registry.arrived) :
    Supervised { s with finished := s.finished ++ [id] } where
  spawned := h.spawned
  signed := h.signed
  accounts := by
    refine h.accounts.progress (fun id' hid' => ?_) fun id' hlt hid' => ?_
    · exact decide_eq_true (List.mem_append_left _ (of_decide_eq_true hid'))
    · rcases List.mem_append.mp (of_decide_eq_true hid') with hold | hnew
      · exact h.finished id' hold
      · exact List.mem_singleton.mp hnew ▸ harrived
  finished id' hid' := by
    rcases List.mem_append.mp hid' with hold | hnew
    · exact h.finished id' hold
    · exact List.mem_singleton.mp hnew ▸ harrived
  awaited := h.awaited
  drained := h.drained
  joined := h.joined

/-- **Every move keeps what the supervisor relies on.** -/
theorem Supervised.act (h : Supervised s) (hact : s.Act notes s') : Supervised s' := by
  cases hact with
  | accept => exact h.accept _
  | acceptFails => exact ⟨h.spawned, h.signed, h.accounts, h.finished, nofun, nofun, nofun⟩
  | own hown => exact h.own hown
  | arrive hreported => exact h.arrive hreported
  | finish harrived => exact h.finish harrived
  | actor hstep => exact h.steady (Service.steady_of_step? hstep)
  | event e houtside => exact h.steady (Service.steady_of_event houtside)
  | crash id hid => exact h.steady (Service.steady_crash hid)

theorem Run.supervised (hstart : Supervised start) (hrun : Run start notes s) : Supervised s := by
  induction hrun with
  | refl => exact hstart
  | move _ hact ih => exact ih.act hact

end Server

end CommandLog
