import CommandLog.Proofs.Service.Shutdown

/-!
# Nobody is stuck because of a peer

A service rests when none of its sessions and annotators has a step. Then, unless someone outside
holds the engine's lock, nobody waits for it: what a session or an annotator still waits for is its
own input, its own peer or its own timer.

* `CommandLog.Session.Resting` and `CommandLog.Annotator.Resting` – **where a session and an
  annotator can stand still** without having asked for the lock;
* `CommandLog.Service.rest_of_firstMove?` – only so many actors have to be looked at to see that
  nobody has a step, and `CommandLog.Service.step?_settle`, by which a service that is left alone
  gets there;
* `CommandLog.Service.Run.free_at_rest` – **the lock is free at rest**, in every run, and whoever is
  not held up by his own peer has had everything carried out that he received.

A session asks for the lock and has its request carried out in two moves, and what it sends it
sends after the second one. So a peer that stops reading holds up the one session that it is the
peer of, and this session does not hold the lock meanwhile.
-/

namespace CommandLog

/-! ### Where one can stand still -/

namespace Transport

variable {t t' : Transport}

/-- There is nothing to receive when nothing has arrived and the input goes on. -/
theorem idle_of_receive_nothing (h : t.receive = (.nothing, t')) :
    t.inbound = [] ∧ t.ending = none := by
  unfold receive at h
  split at h
  · split at h <;> cases h
  · next hinbound =>
    rcases hending : t.ending with _ | ending
    · exact ⟨hinbound, rfl⟩
    · simp [hending] at h

/-- Sending is held up when the peer takes nothing. -/
theorem room_of_send_blocked {output : Bytes} (h : t.send output = (.blocked, t')) :
    t.room = some 0 := by
  unfold send at h
  split at h
  · cases h
  · split at h
    · cases h
    · split at h
      · cases h
      · next hroom => exact hroom
      · cases h

end Transport

/-- **Where a session can stand still** without having asked for the lock. -/
inductive Session.Resting (x : Session) : Prop where
  /-- It waits for input, and all input that has arrived was received. -/
  | waiting (hphase : x.phase = .receiving) (hinbound : x.transport.inbound = [])
    (hending : x.transport.ending = none)
  /-- It has something to send, and its peer takes nothing. -/
  | blocked {left : Bytes} (hphase : x.phase = .sending left) (hroom : x.transport.room = some 0)
  /-- It is done. -/
  | ended (hphase : x.phase = .ended)

/-- **Where an annotator can stand still** without having asked for the lock. -/
inductive Annotator.Resting (now : Nat) (c : Annotator) : Prop where
  /-- It waits for its timer. -/
  | waiting {deadline : Nat} (hphase : c.phase = .waiting deadline) (hearly : now < deadline)
  /-- It is done. -/
  | ended (hphase : c.phase = .ended)

theorem Session.resting_of_advance? {x : Session} {cancelled : Bool}
    (hqueued : ∀ r, x.phase ≠ .queued r) (h : x.advance? cancelled = none) : x.Resting := by
  rcases hphase : x.phase with _ | _ | r | output | _ | _ | _
  all_goals rw [advance?, hphase] at h
  case framing | leaving | signingOff => cases h
  case queued => exact absurd hphase (hqueued r)
  case ended => exact .ended hphase
  case receiving =>
    rcases hreceive : x.transport.receive with ⟨piece | _ | _, t⟩
    · cases cancelled <;> simp [receive?, hreceive] at h
    · cases cancelled <;> simp [receive?, hreceive] at h
    · obtain ⟨hinbound, hending⟩ := Transport.idle_of_receive_nothing hreceive
      exact .waiting hphase hinbound hending
  case sending =>
    simp only [send?] at h
    rcases hsend : x.transport.send output with ⟨left | _ | _, t⟩
    · rw [hsend] at h
      cases left <;> cases h
    · exact .blocked hphase (Transport.room_of_send_blocked hsend)
    · rw [hsend] at h
      cases h

theorem Annotator.resting_of_advance? {c : Annotator} {cancelled : Bool} {now : Nat}
    {time : Instant} (hqueued : ∀ deadline stamp, c.phase ≠ .queued deadline stamp)
    (h : c.advance? cancelled now time = none) : c.Resting now := by
  rcases hphase : c.phase with deadline | ⟨deadline, stamp⟩ | _
  · rw [advance?, hphase] at h
    simp only at h
    split at h
    · cases h
    · rw [ite_eq_right_iff] at h
      refine .waiting hphase (Nat.lt_of_not_le fun hdue => ?_)
      cases h hdue
  · exact absurd hphase (hqueued deadline stamp)
  · exact .ended hphase

namespace Service

variable {start s s' : Service} {notes : List Note} {as : List Actor} {a : Actor}

/-! ### Services at rest -/

/-- Only sessions and annotators that were started take steps. -/
theorem mem_actors_of_step? (h : s.step? a = some s') : a ∈ s.actors := by
  simp only [actors, List.mem_append, List.mem_map, List.mem_range]
  cases a with
  | session id =>
    simp only [step?] at h
    split at h
    · next hx => exact .inl ⟨id, (List.getElem?_eq_some_iff.mp hx).1, rfl⟩
    · cases h
  | annotator index =>
    simp only [step?] at h
    split at h
    · next hc => exact .inr ⟨index, (List.getElem?_eq_some_iff.mp hc).1, rfl⟩
    · cases h

theorem step?_of_firstMove? (h : s.firstMove? as = none) (ha : a ∈ as) : s.step? a = none := by
  induction as with
  | nil => cases ha
  | cons b rest ih =>
    simp only [firstMove?] at h
    split at h
    · cases h
    · next hstep =>
      rcases List.mem_cons.mp ha with rfl | hrest
      · exact hstep
      · exact ih h hrest

/-- **A service rests** when none of those who were started has a step. -/
theorem rest_of_firstMove? (h : s.firstMove? as = none) (hall : s.actors ⊆ as) (a : Actor) :
    s.step? a = none := by
  rw [Option.eq_none_iff_forall_ne_some]
  intro s' hstep
  rw [step?_of_firstMove? h (hall (mem_actors_of_step? hstep))] at hstep
  cases hstep

theorem step?_settleFrom (last : List Actor) (s : Service) (a : Actor) :
    (settleFrom last s).step? a = none := by
  fun_induction settleFrom last s with
  | case1 last s hnone => exact rest_of_firstMove? hnone (List.subset_append_right _ _) a
  | case2 last s b s' hfirst ih => exact ih

/-- **A service that is left alone comes to rest.** -/
theorem step?_settle (s : Service) (a : Actor) : s.settle.step? a = none :=
  step?_settleFrom [] s a

/-! ### The lock at rest -/

/-- Who asks for the lock when it is free has it next. -/
theorem grants_of_free (hheld : s.held = false) (hqueue : s.queue = []) (a : Actor) :
    grants { s with queue := s.queue ++ [a] } a = true := by
  simp [grants, hheld, hqueue]

theorem Lined.queue_of_rest (h : Lined s) (hheld : s.held = false)
    (hrest : ∀ a, s.step? a = none) : s.queue = [] := by
  rw [List.eq_nil_iff_forall_not_mem]
  intro a ha
  exact h.not_waits_of_rest hheld hrest a ((h.mem_iff a).mp ha)

theorem Lined.session_of_rest (h : Lined s) (hheld : s.held = false)
    (hrest : ∀ a, s.step? a = none) {id : SessionId} {x : Session}
    (hx : s.sessions[id]? = some x) : x.Resting := by
  have hqueued : ∀ r, x.phase ≠ .queued r := by
    intro r hphase
    exact h.not_waits_of_rest hheld hrest (.session id) ⟨r, by rw [hx, Option.map_some, hphase]⟩
  exact Session.resting_of_advance? hqueued (advance?_of_rest (hrest _) hx hqueued)

theorem Lined.annotator_of_rest (h : Lined s) (hheld : s.held = false)
    (hrest : ∀ a, s.step? a = none) {index : Nat} {c : Annotator}
    (hc : s.annotators[index]? = some c) : c.Resting s.clock := by
  have hqueued : ∀ deadline stamp, c.phase ≠ .queued deadline stamp := by
    intro deadline stamp hphase
    exact h.not_waits_of_rest hheld hrest (.annotator index)
      ⟨deadline, stamp, by rw [hc, Option.map_some, hphase]⟩
  exact Annotator.resting_of_advance? hqueued (advance?_annotator_of_rest hrest hc hqueued)

/-- **Nobody is stuck because of a peer.** In every state that can be reached in which nobody has a
step, and in which nobody outside holds the lock,

* nobody waits for the lock, and whoever asks for it next has it at once;
* every session waits for input and has received all that has arrived, or is held up by its own
  peer, which takes nothing, or has ended;
* every annotator waits for its timer, or has ended;
* a session that is neither held up by its own peer nor has ended has had every line carried out
  that it received and that is not longer than its limit, each once and in order, whatever the peers
  of the other sessions do. -/
theorem Run.free_at_rest (hfresh : Fresh start) (hrun : Run start notes s) (hheld : s.held = false)
    (hrest : ∀ a, s.step? a = none) :
    (∀ a, a ∉ s.queue ∧ ¬s.Waits a ∧ grants { s with queue := s.queue ++ [a] } a = true) ∧
    (∀ (id : SessionId) (x : Session), s.sessions[id]? = some x → x.Resting) ∧
    (∀ (index : Nat) (c : Annotator), s.annotators[index]? = some c → c.Resting s.clock) ∧
    ∀ (id : SessionId) (x : Session), s.sessions[id]? = some x →
      (∀ left, x.phase ≠ .sending left) → x.phase ≠ .ended →
      Session.requests (deedsOf id notes) =
        (Session.accepted x.limit (Session.received (deedsOf id notes))).map Request.ofLine := by
  have hlined := hrun.lined hfresh.lined
  have hqueue := hlined.queue_of_rest hheld hrest
  have hsessions : ∀ (id : SessionId) (x : Session), s.sessions[id]? = some x → x.Resting :=
    fun id x hx => hlined.session_of_rest hheld hrest hx
  refine ⟨fun a => ⟨?_, hlined.not_waits_of_rest hheld hrest a, grants_of_free hheld hqueue a⟩,
    hsessions, fun index c hc => hlined.annotator_of_rest hheld hrest hc, ?_⟩
  · rw [hqueue]
    exact List.not_mem_nil
  · intro id x hx hsending hended
    obtain ⟨limit, hpast⟩ := hrun.past hfresh.sessions hx
    obtain ⟨done, pending, hframed⟩ := hpast.framed
    cases hsessions id x hx with
    | waiting hphase => exact (hframed.quiescent (.inl hphase)).1
    | blocked hphase => exact absurd hphase (hsending _)
    | ended hphase => exact absurd hphase hended

/-- Two sessions get a line each while someone outside holds the lock. The peer of the first one
takes one byte and no more, and there is an annotator, whose time has not come. -/
def silentPeer : List Choice :=
  [.event (.connect 9), .event (.connect 9), .event (.annotate 100), .event (.allow 0 (some 1)),
    .event .hold, .event (.deliver 0 [0x61, 0x0a]), .event (.deliver 1 [0x62, 0x0a])] ++
    List.replicate 4 (.actor (.session 0)) ++ List.replicate 4 (.actor (.session 1)) ++
  [.event .release] ++ List.replicate 3 (.actor (.session 0)) ++
    List.replicate 4 (.actor (.session 1))

/-- The line of the other session is carried out although the peer of the first one reads no
more. -/
theorem free_at_rest_of_silentPeer :
    ∃ notes s, Run { engine := .inMemory, host := {} } notes s ∧ s.held = false ∧
      (∀ a, s.step? a = none) ∧ s.sessions[0]?.map Session.phase = some (.sending [0x0a]) ∧
      Session.requests (deedsOf 1 notes) = [.append [0x62, 0x0a]] := by
  have hfresh : Fresh { engine := .inMemory, host := {} } := ⟨rfl, rfl, rfl, rfl⟩
  have hrun := Run.play (.refl : Run { engine := .inMemory, host := {} } [] _) silentPeer
  have hheld : (play { engine := .inMemory, host := {} } silentPeer).2.held = false := by
    decide +kernel
  have hrest : ∀ a, (play { engine := .inMemory, host := {} } silentPeer).2.step? a = none := by
    have hnone : ((play { engine := .inMemory, host := {} } silentPeer).2.firstMove?
        (play { engine := .inMemory, host := {} } silentPeer).2.actors).isNone = true := by
      decide +kernel
    exact rest_of_firstMove? (Option.isNone_iff_eq_none.mp hnone) (List.Subset.refl _)
  have hwaiting : (play { engine := .inMemory, host := {} } silentPeer).2.sessions[1]?.any
      (fun x => x.phase = .receiving ∧ x.limit = 9) := by decide +kernel
  obtain ⟨x, hx, hx'⟩ := (Option.any_eq_true _ _).mp hwaiting
  obtain ⟨hphase, hlimit⟩ := of_decide_eq_true hx'
  obtain ⟨-, -, -, hdone⟩ := Run.free_at_rest hfresh hrun hheld hrest
  have hrequests := hdone 1 x hx (by simp [hphase]) (by simp [hphase])
  rw [hlimit] at hrequests
  exact ⟨_, _, hrun, hheld, hrest, by decide +kernel, hrequests.trans (by decide +kernel)⟩

end Service

end CommandLog
