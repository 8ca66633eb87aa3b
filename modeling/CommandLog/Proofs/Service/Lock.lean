import CommandLog.Proofs.Engine.Append
import CommandLog.Proofs.Service.History
import CommandLog.Proofs.Session.Shutdown

/-!
# Everybody's turn comes

Those who wait for the lock stand in a queue, and the first of them gets the lock as soon as nobody
outside holds it. So somebody can always go on until nobody has anything to do.

* `CommandLog.Service.Lined` – **the queue holds just those who wait for the lock**, each of them
  once (`CommandLog.Service.Lined.act`, and `CommandLog.Service.Run.lined` for every run);
* `CommandLog.Service.Frame` – what the steps of actors leave alone
  (`CommandLog.Service.frame_of_step?`);
* `CommandLog.Service.Alone` – some steps of the actors one after the other, with nothing happening
  outside, and `CommandLog.Service.Alone.length_add_work_le`, which bounds their number;
* `CommandLog.Service.Lined.ended_of_rest` – **once shutdown was requested nobody rests before his
  end**, unless someone outside holds the lock.
-/

namespace CommandLog

/-- **A session asks for the lock just when it has a request.** -/
theorem Session.Act.asks_iff {cancelled : Bool} {x x' : Session} {e : Session.Effect}
    {ds : List Session.Deed} (hact : x.Act cancelled e ds x') :
    (e = .lockRequested → ∃ r, x'.phase = .queued r) ∧
      (e ≠ .lockRequested → ¬∃ r, x'.phase = .queued r) := by
  cases hact with
  | ask => exact ⟨fun _ => ⟨_, rfl⟩, fun h => absurd rfl h⟩
  | drop hphase => simp [hphase]
  | @send _ left => cases left <;> simp
  | _ => simp

/-- A request that has been carried out does not wait any more. -/
theorem Session.phase_answered_ne_queued (x : Session) (answer : Option Bytes) (r : Request) :
    (x.answered answer).phase ≠ .queued r := by
  cases answer <;> simp [Session.answered]

/-- An annotator that looks at its timer ends, or asks for the lock. -/
theorem Annotator.phase_of_advance? {cancelled : Bool} {now : Nat} {time : Instant}
    {c c' : Annotator} (h : c.advance? cancelled now time = some c') :
    c'.phase = .ended ∨ ∃ deadline stamp, c'.phase = .queued deadline stamp := by
  unfold advance? at h
  split at h
  · split at h
    · cases h
      exact .inl rfl
    · split at h
      · cases h
        exact .inr ⟨_, _, rfl⟩
      · cases h
  · cases h
  · cases h

namespace Service

variable {start s s' : Service} {notes : List Note} {id : SessionId} {index : Nat} {x y : Session}
  {a b : Actor}

/-! ### Who waits -/

/-- An actor waits for the lock. -/
def Waits (s : Service) : Actor → Prop
  | .session id => ∃ r, s.sessions[id]?.map Session.phase = some (.queued r)
  | .annotator index =>
    ∃ deadline stamp, s.annotators[index]?.map Annotator.phase = some (.queued deadline stamp)

/-- **The queue holds just those who wait for the lock**, each of them once. -/
structure Lined (s : Service) : Prop where
  /-- Nobody stands in it twice. -/
  nodup : s.queue.Nodup
  /-- Whoever stands in it waits, and whoever waits stands in it. -/
  mem_iff : ∀ a, a ∈ s.queue ↔ s.Waits a

/-- Nobody begins to wait, or gives up waiting. -/
theorem Lined.stay (h : Lined s) (hqueue : s'.queue = s.queue)
    (hsame : ∀ a, s'.Waits a ↔ s.Waits a) : Lined s' where
  nodup := hqueue ▸ h.nodup
  mem_iff a := by rw [hqueue, h.mem_iff, hsame]

/-- Somebody begins to wait. -/
theorem Lined.enter (h : Lined s) (hbefore : ¬s.Waits b) (hafter : s'.Waits b)
    (hqueue : s'.queue = s.queue ++ [b]) (hothers : ∀ a, a ≠ b → (s'.Waits a ↔ s.Waits a)) :
    Lined s' where
  nodup := by
    rw [hqueue, List.nodup_append]
    refine ⟨h.nodup, List.nodup_cons.mpr ⟨List.not_mem_nil, List.nodup_nil⟩, ?_⟩
    rintro a ha c hc rfl
    rw [List.mem_singleton.mp hc, h.mem_iff] at ha
    exact hbefore ha
  mem_iff a := by
    rw [hqueue, List.mem_append, List.mem_singleton, h.mem_iff]
    by_cases hab : a = b
    · subst hab
      simp [hafter]
    · simp [hab, hothers a hab]

/-- The first one gets the lock, and does not wait any more. -/
theorem Lined.leave (h : Lined s) (hhead : s.queue.head? = some b) (hafter : ¬s'.Waits b)
    (hqueue : s'.queue = s.queue.drop 1) (hothers : ∀ a, a ≠ b → (s'.Waits a ↔ s.Waits a)) :
    Lined s' := by
  obtain ⟨rest, hrest⟩ := List.head?_eq_some_iff.mp hhead
  have hnodup := h.nodup
  rw [hrest, List.nodup_cons] at hnodup
  rw [hrest, List.drop_one, List.tail_cons] at hqueue
  refine ⟨hqueue ▸ hnodup.2, fun a => ?_⟩
  by_cases hab : a = b
  · subst hab
    rw [hqueue]
    exact iff_of_false hnodup.1 hafter
  · rw [hothers a hab, ← h.mem_iff, hqueue, hrest, List.mem_cons, or_iff_right hab]

/-! ### Who waits after a move -/

theorem waits_of_same (hsessions : s'.sessions = s.sessions)
    (hannotators : s'.annotators = s.annotators) (a : Actor) : s'.Waits a ↔ s.Waits a := by
  cases a with
  | session id => rw [Waits, Waits, hsessions]
  | annotator index => rw [Waits, Waits, hannotators]

theorem waits_set_session_of_ne (hsessions : s'.sessions = s.sessions.set id y)
    (hannotators : s'.annotators = s.annotators) (hne : a ≠ .session id) :
    s'.Waits a ↔ s.Waits a := by
  cases a with
  | session id' =>
    rw [Waits, Waits, hsessions, List.getElem?_set_ne]
    rintro rfl
    exact hne rfl
  | annotator index => rw [Waits, Waits, hannotators]

theorem waits_set_session (hsessions : s'.sessions = s.sessions.set id y)
    (hx : s.sessions[id]? = some x) : s'.Waits (.session id) ↔ ∃ r, y.phase = .queued r := by
  rw [Waits, hsessions, List.getElem?_set_self', hx]
  simp

theorem waits_set_annotator_of_ne {c : Annotator} (hsessions : s'.sessions = s.sessions)
    (hannotators : s'.annotators = s.annotators.set index c) (hne : a ≠ .annotator index) :
    s'.Waits a ↔ s.Waits a := by
  cases a with
  | session id => rw [Waits, Waits, hsessions]
  | annotator index' =>
    rw [Waits, Waits, hannotators, List.getElem?_set_ne]
    rintro rfl
    exact hne rfl

theorem waits_set_annotator {b c : Annotator}
    (hannotators : s'.annotators = s.annotators.set index c) (hb : s.annotators[index]? = some b) :
    s'.Waits (.annotator index) ↔ ∃ deadline stamp, c.phase = .queued deadline stamp := by
  rw [Waits, hannotators, List.getElem?_set_self', hb]
  simp

/-- Nothing that happens outside makes anybody wait. -/
theorem waits_handle (s : Service) (e : Event) (a : Actor) : (s.handle e).Waits a ↔ s.Waits a := by
  cases e with
  | connect limit =>
    cases a with
    | annotator index => exact Iff.rfl
    | session id =>
      change (∃ r, (s.sessions ++ [({ limit } : Session)])[id]?.map Session.phase = _) ↔ _
      rw [Waits, List.getElem?_append]
      split
      · exact Iff.rfl
      · next hge =>
        rw [List.getElem?_eq_none (Nat.le_of_not_lt hge), List.getElem?_singleton]
        split <;> simp
  | annotate period =>
    cases a with
    | session id => exact Iff.rfl
    | annotator index =>
      change (∃ deadline stamp,
        (s.annotators ++ [Annotator.start period s.clock])[index]?.map _ = _) ↔ _
      rw [Waits, List.getElem?_append]
      split
      · exact Iff.rfl
      · next hge =>
        rw [List.getElem?_eq_none (Nat.le_of_not_lt hge), List.getElem?_singleton]
        split <;> simp [Annotator.start]
  | deliver id' | endInput id' | breakOutput id' | allow id' =>
    cases a with
    | annotator index => exact Iff.rfl
    | session id =>
      simp only [Waits, handle, onTransport, List.getElem?_modify, Option.map_eq_map,
        Option.map_map]
      split <;> exact Iff.rfl
  | append payload =>
    simp only [handle]
    split <;> exact waits_of_same rfl rfl a
  | cancel | hold | release | reap | tick => exact waits_of_same rfl rfl a

theorem queue_handle (s : Service) (e : Event) : (s.handle e).queue = s.queue := by
  cases e with
  | append payload =>
    simp only [handle]
    split <;> rfl
  | _ => rfl

/-! ### Every move -/

@[simp] theorem annotators_absorb (s : Service) (id : SessionId) (e : Session.Effect) :
    (s.absorb id e).annotators = s.annotators := by
  cases e <;> rfl

theorem queue_absorb (s : Service) (id : SessionId) (e : Session.Effect) :
    (s.absorb id e).queue = if e = .lockRequested then s.queue ++ [.session id] else s.queue := by
  cases e <;> rfl

/-- Whoever may have the lock is the first in the queue. -/
theorem head?_of_grants (hgrants : s.grants a = true) : s.queue.head? = some a := by
  simp only [grants, Bool.and_eq_true, beq_iff_eq] at hgrants
  exact hgrants.2

/-- A session gets the lock, and its request is carried out. -/
theorem Lined.serve (h : Lined s) (hx : s.sessions[id]? = some x)
    (hgrants : s.grants (.session id) = true) (r : Request) : Lined (s.serve id x r) := by
  refine h.leave (head?_of_grants hgrants) ?_ rfl fun a hne => waits_set_session_of_ne rfl rfl hne
  rw [waits_set_session rfl hx]
  rintro ⟨r', hphase⟩
  exact Session.phase_answered_ne_queued x _ r' hphase

/-- A session that takes a step by itself asks for the lock, or nothing changes for the queue. -/
theorem Lined.advance (h : Lined s) {e : Session.Effect} (hx : s.sessions[id]? = some x)
    (hadvance : x.advance? s.cancelled = some (e, y)) :
    Lined ((s.setSession id y).absorb id e) := by
  have hsessions : ((s.setSession id y).absorb id e).sessions = s.sessions.set id y :=
    sessions_absorb _ _ _
  have hothers : ∀ a, a ≠ .session id →
      (((s.setSession id y).absorb id e).Waits a ↔ s.Waits a) :=
    fun a hne => waits_set_session_of_ne hsessions (annotators_absorb _ _ _) hne
  have hqueue := queue_absorb (s.setSession id y) id e
  have hbefore : ¬s.Waits (.session id) := by
    rintro ⟨r, hr⟩
    rw [hx] at hr
    rw [Session.advance?, Option.some.inj hr] at hadvance
    cases hadvance
  obtain ⟨hasks, hsame⟩ := (Session.act_of_advance? hadvance).asks_iff
  by_cases heffect : e = .lockRequested
  · rw [if_pos heffect] at hqueue
    exact h.enter hbefore ((waits_set_session hsessions hx).mpr (hasks heffect)) hqueue hothers
  · rw [if_neg heffect] at hqueue
    refine h.stay hqueue fun a => ?_
    by_cases ha : a = .session id
    · subst ha
      refine iff_of_false ?_ hbefore
      intro hwaits
      exact hsame heffect ((waits_set_session hsessions hx).mp hwaits)
    · exact hothers a ha

/-- An annotator gets the lock, and its timestamp is stored. -/
theorem Lined.annotate (h : Lined s) {c : Annotator} (hc : s.annotators[index]? = some c)
    (hgrants : s.grants (.annotator index) = true) (deadline : Nat) (stamp : Timestamp) :
    Lined (s.annotate index c deadline stamp) := by
  refine h.leave (head?_of_grants hgrants) ?_ rfl fun a hne => waits_set_annotator_of_ne rfl rfl hne
  rw [waits_set_annotator rfl hc]
  rintro ⟨deadline', stamp', hphase⟩
  cases hphase

/-- An annotator that looks at its timer asks for the lock, or ends. -/
theorem Lined.wake (h : Lined s) {c c' : Annotator} {queue : List Actor}
    (hc : s.annotators[index]? = some c) (hadvance : c.advance? s.cancelled s.clock s.now = some c')
    (hqueue : queue = if c'.hasEnded then s.queue else s.queue ++ [.annotator index]) :
    Lined { s.setAnnotator index c' with queue } := by
  have hothers : ∀ a, a ≠ .annotator index →
      (({ s.setAnnotator index c' with queue } : Service).Waits a ↔ s.Waits a) :=
    fun a hne => waits_set_annotator_of_ne rfl rfl hne
  have hbefore : ¬s.Waits (.annotator index) := by
    rintro ⟨deadline, stamp, hqueued⟩
    rw [hc] at hqueued
    rw [Annotator.advance?, Option.some.inj hqueued] at hadvance
    cases hadvance
  have hwaits : ({ s.setAnnotator index c' with queue } : Service).Waits (.annotator index) ↔
      ∃ deadline stamp, c'.phase = .queued deadline stamp := waits_set_annotator rfl hc
  obtain hended | ⟨deadline, stamp, hqueued⟩ := Annotator.phase_of_advance? hadvance
  · have hdone : c'.hasEnded = true := by
      rw [Annotator.hasEnded, hended]
      rfl
    rw [hdone, if_pos rfl] at hqueue
    refine h.stay hqueue fun a => ?_
    by_cases ha : a = .annotator index
    · subst ha
      refine iff_of_false ?_ hbefore
      rw [hwaits, hended]
      rintro ⟨deadline, stamp, hqueued⟩
      cases hqueued
    · exact hothers a ha
  · have hgoing : c'.hasEnded = false := by
      rw [Annotator.hasEnded, hqueued]
      rfl
    rw [hgoing, if_neg Bool.false_ne_true] at hqueue
    exact h.enter hbefore (hwaits.mpr ⟨deadline, stamp, hqueued⟩) hqueue hothers

/-- **Every move keeps the queue.** -/
theorem Lined.act (h : Lined s) (hact : s.Act notes s') : Lined s' := by
  cases hact with
  | event e => exact h.stay (queue_handle s e) (waits_handle s e)
  | serve hx _ hgrants => exact h.serve hx hgrants _
  | session hx hadvance => exact h.advance hx hadvance
  | annotate hc _ hgrants => exact h.annotate hc hgrants _ _
  | wake hc hadvance hqueue => exact h.wake hc hadvance hqueue

/-- The start of a service: nobody is there. -/
structure Fresh (start : Service) : Prop where
  /-- There are no sessions. -/
  sessions : start.sessions = []
  /-- There are no annotators. -/
  annotators : start.annotators = []
  /-- Nobody waits for the lock. -/
  queue : start.queue = []
  /-- Nobody has reported his completion. -/
  reported : start.registry.reported = []

theorem Fresh.lined (h : Fresh start) : Lined start where
  nodup := by
    rw [h.queue]
    exact List.nodup_nil
  mem_iff a := by
    rw [h.queue]
    cases a with
    | session id => simp [Waits, h.sessions]
    | annotator index => simp [Waits, h.annotators]

theorem Run.lined (hstart : Lined start) (hrun : Run start notes s) : Lined s := by
  induction hrun with
  | refl => exact hstart
  | move _ c hnext ih => exact ih.act (act_of_next? hnext)

/-! ### Nobody is left behind -/

/-- **Some steps of the actors**, one after the other, while nothing happens outside. -/
inductive Alone (start : Service) : Nat → Service → Prop where
  /-- No step. -/
  | refl : Alone start 0 start
  /-- One step more. -/
  | step {n : Nat} {s s' : Service} (h : Alone start n s) {a : Actor}
    (hstep : s.step? a = some s') : Alone start (n + 1) s'

/-- **There are only so many steps**, whoever takes them. -/
theorem Alone.length_add_work_le {n : Nat} (h : Alone start n s) : n + s.work ≤ start.work := by
  induction h with
  | refl => exact Nat.le_of_eq (Nat.zero_add _)
  | step _ hstep ih =>
    have hlt := step?_work_lt hstep
    omega

theorem Alone.run {n : Nat} (h : Alone start n s) : ∃ notes, Run start notes s := by
  induction h with
  | refl => exact ⟨[], .refl⟩
  | @step _ _ _ _ a hstep ih =>
    obtain ⟨notes, hrun⟩ := ih
    exact ⟨_, hrun.move (.actor a) hstep⟩

/-- **What actors leave alone**: none of them holds the lock between two steps or takes it from
outside, and none starts or collects another one. -/
structure Frame (s s' : Service) : Prop where
  /-- Whoever holds the lock outside goes on holding it. -/
  held : s'.held = s.held
  /-- Nobody requests shutdown, or takes such a request back. -/
  cancelled : s'.cancelled = s.cancelled
  /-- The clock stands still. -/
  clock : s'.clock = s.clock
  /-- No session is started. -/
  length_sessions : s'.sessions.length = s.sessions.length
  /-- No annotator is started. -/
  length_annotators : s'.annotators.length = s.annotators.length
  /-- No identifier is given out. -/
  spawned : s'.registry.spawned = s.registry.spawned
  /-- Nobody is collected. -/
  registered : s'.registry.registered = s.registry.registered
  /-- No report comes in. -/
  arrived : s'.registry.arrived = s.registry.arrived
  /-- The number of sessions that is published stays as it is. -/
  gauge : s'.host.metrics.sessionsActive = s.host.metrics.sessionsActive
  /-- One completion is reported at most. -/
  reported : s'.registry.reported = s.registry.reported ∨
    ∃ id, s'.registry.reported = s.registry.reported ++ [id]

theorem frame_absorb (s : Service) (id : SessionId) (e : Session.Effect) :
    Frame s (s.absorb id e) := by
  cases e with
  | completed =>
    exact
      { held := rfl
        cancelled := rfl
        clock := rfl
        length_sessions := rfl
        length_annotators := rfl
        spawned := Registry.spawned_complete ..
        registered := Registry.registered_complete ..
        arrived := Registry.arrived_complete ..
        gauge := rfl
        reported := Registry.reported_complete .. }
  | _ => exact ⟨rfl, rfl, rfl, rfl, rfl, rfl, rfl, rfl, rfl, .inl rfl⟩

/-- **A step of an actor** leaves everything else alone. -/
theorem frame_of_step? {a : Actor} (hstep : s.step? a = some s') : Frame s s' := by
  cases a with
  | session id =>
    simp only [step?] at hstep
    split at hstep
    · unfold stepSession? at hstep
      split at hstep
      · rw [Option.ite_none_right_eq_some] at hstep
        obtain ⟨-, hstep⟩ := hstep
        cases hstep
        exact ⟨rfl, rfl, rfl, List.length_set, rfl, rfl, rfl, rfl,
          Engine.sessionsActive_answer s.engine s.host _, .inl rfl⟩
      · split at hstep
        · next e x' _ =>
          cases hstep
          have hframe := frame_absorb (s.setSession id x') id e
          exact ⟨hframe.held, hframe.cancelled, hframe.clock,
            hframe.length_sessions.trans List.length_set, hframe.length_annotators, hframe.spawned,
            hframe.registered, hframe.arrived, hframe.gauge, hframe.reported⟩
        · cases hstep
    · cases hstep
  | annotator index =>
    simp only [step?] at hstep
    split at hstep
    · unfold stepAnnotator? at hstep
      split at hstep
      · rw [Option.ite_none_right_eq_some] at hstep
        obtain ⟨-, hstep⟩ := hstep
        cases hstep
        exact ⟨rfl, rfl, rfl, rfl, List.length_set, rfl, rfl, rfl,
          Engine.sessionsActive_append s.engine _ s.host, .inl rfl⟩
      · split at hstep
        · cases hstep
          split <;> exact ⟨rfl, rfl, rfl, rfl, List.length_set, rfl, rfl, rfl, rfl, .inl rfl⟩
        · cases hstep
    · cases hstep

theorem Alone.held_eq {n : Nat} (h : Alone start n s) : s.held = start.held := by
  induction h with
  | refl => rfl
  | step _ hstep ih => exact (frame_of_step? hstep).held.trans ih

/-- The first of those who wait gets the lock when nobody outside holds it. -/
theorem Lined.exists_step_of_queue (h : Lined s) (hheld : s.held = false) (hqueue : s.queue ≠ []) :
    ∃ a, (s.step? a).isSome = true := by
  obtain ⟨a, rest, hrest⟩ := List.exists_cons_of_ne_nil hqueue
  have hgrants : s.grants a = true := by simp [grants, hheld, hrest]
  have hwaits := (h.mem_iff a).mp (by rw [hrest]; exact List.mem_cons_self)
  refine ⟨a, ?_⟩
  cases a with
  | session id =>
    obtain ⟨r, hr⟩ := hwaits
    obtain ⟨x, hx, hphase⟩ := Option.map_eq_some_iff.mp hr
    simp [step?, hx, stepSession?, hphase, hgrants]
  | annotator index =>
    obtain ⟨deadline, stamp, hqueued⟩ := hwaits
    obtain ⟨c, hc, hphase⟩ := Option.map_eq_some_iff.mp hqueued
    simp [step?, hc, stepAnnotator?, hphase, hgrants]

/-- **At rest nobody waits for the lock**, unless someone outside holds it. -/
theorem Lined.not_waits_of_rest (h : Lined s) (hheld : s.held = false)
    (hrest : ∀ a, s.step? a = none) (a : Actor) : ¬s.Waits a := by
  intro hwaits
  have hne : s.queue ≠ [] := List.ne_nil_of_mem ((h.mem_iff a).mpr hwaits)
  obtain ⟨b, hb⟩ := h.exists_step_of_queue hheld hne
  rw [hrest b] at hb
  cases hb

/-- A session without a request takes the steps that it has by itself. -/
theorem advance?_of_rest (hrest : s.step? (.session id) = none) (hx : s.sessions[id]? = some x)
    (hqueued : ∀ r, x.phase ≠ .queued r) : x.advance? s.cancelled = none := by
  rw [Option.eq_none_iff_forall_ne_some]
  rintro ⟨e, x'⟩ hadvance
  simp only [step?, hx, stepSession?_of_advance? hqueued hadvance] at hrest
  cases hrest

/-- So does an annotator. -/
theorem advance?_annotator_of_rest {c : Annotator} (hrest : ∀ a, s.step? a = none)
    (hc : s.annotators[index]? = some c)
    (hqueued : ∀ deadline stamp, c.phase ≠ .queued deadline stamp) :
    c.advance? s.cancelled s.clock s.now = none := by
  rw [Option.eq_none_iff_forall_ne_some]
  intro c' hadvance
  have hstep := hrest (.annotator index)
  cases hphase : c.phase with
  | queued deadline stamp => exact hqueued deadline stamp hphase
  | waiting | ended =>
    simp only [step?, hc, stepAnnotator?, hphase, hadvance] at hstep
    cases hstep

/-- **Once shutdown was requested nobody rests before his end**: while a session or an annotator
has not ended, somebody can take a step, unless someone outside holds the lock. -/
theorem Lined.ended_of_rest (h : Lined s) (hcancelled : s.cancelled = true) (hheld : s.held = false)
    (hrest : ∀ a, s.step? a = none) :
    (∀ (id : SessionId) (x : Session), s.sessions[id]? = some x → x.phase = .ended) ∧
      ∀ (index : Nat) (c : Annotator), s.annotators[index]? = some c → c.phase = .ended := by
  have hnobody := h.not_waits_of_rest hheld hrest
  constructor
  · intro id x hx
    by_contra hended
    have hqueued : ∀ r, x.phase ≠ .queued r := by
      intro r hphase
      exact hnobody (.session id) ⟨r, by rw [hx, Option.map_some, hphase]⟩
    obtain ⟨r, hadvance⟩ := Session.exists_advance? hqueued hended
    rw [← hcancelled, advance?_of_rest (hrest _) hx hqueued] at hadvance
    cases hadvance
  · intro index c hc
    rcases hphase : c.phase with deadline | ⟨deadline, stamp⟩ | _
    · -- it looks for a shutdown before it looks at its timer
      have hadvance := advance?_annotator_of_rest hrest hc (by simp [hphase])
      simp [Annotator.advance?, hphase, hcancelled] at hadvance
    · exact absurd ⟨deadline, stamp, by rw [hc, Option.map_some, hphase]⟩
        (hnobody (.annotator index))
    · rfl

end Service

end CommandLog
