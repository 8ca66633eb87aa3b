import CommandLog.Proofs.Service.Rest
import CommandLog.Proofs.Session.Idle

/-!
# Exchanges

A peer sends some input and takes the answers, and nobody else has to do with the engine meanwhile.
The others may do what they like otherwise, and the session may come to its steps between any two
pieces of the input.

* `CommandLog.Service.Undisturbed` – **a session that nobody holds up**: shutdown was not
  requested, and the lock is free for it;
* `CommandLog.Service.Exchange` – **an exchange**: pieces of input arrive for one session, the
  session takes its steps, and others take theirs, in any order;
* `CommandLog.Service.Exchange.undisturbed` – **every exchange leaves a session undisturbed**, with
  as many steps left, at most, as there is input left;
* `CommandLog.Service.Exchange.attended_of_ready` – **at its end the input has been attended to**,
  and `CommandLog.Service.exists_exchange` – every input has an exchange that comes to an end;
* `CommandLog.Service.Exchange.carried` – **what is carried out meanwhile** are the requests of the
  session, one after the other, and nothing else.

A session that is undisturbed either has a step or waits for input. It never waits for the lock,
since nobody else asks for it.
-/

namespace CommandLog.Service

open Session (Deed received requests replies)

variable {start s s' : Service} {id : SessionId} {x x' : Session} {notes : List Note}
  {ps : List Bytes} {n : Nat}

/-- **A session that nobody holds up.** -/
structure Undisturbed (id : SessionId) (s : Service) (x : Session) : Prop where
  /-- It is the one with this identifier. -/
  find : s.sessions[id]? = some x
  /-- Shutdown was not requested. -/
  cancelled : s.cancelled = false
  /-- Nobody outside holds the lock. -/
  held : s.held = false
  /-- Nobody else has asked for the lock. -/
  queue : s.queue = x.phase.waiting.map fun _ => .session id
  /-- It goes on. -/
  goesOn : x.Open

/-- **A move that has nothing to do with the engine**, nor with one session. -/
structure Aside (id : SessionId) (s s' : Service) : Prop where
  /-- The session stays as it is. -/
  session : s'.sessions[id]? = s.sessions[id]?
  /-- The ring and the journal stay as they are. -/
  engine : s'.engine = s.engine
  /-- So does the disk. -/
  disk : s'.host.disk = s.host.disk
  /-- Nobody asks for the lock. -/
  queue : s'.queue = s.queue
  /-- Nobody takes it from outside. -/
  held : s'.held = s.held
  /-- Nobody requests shutdown. -/
  cancelled : s'.cancelled = s.cancelled

/-- **An exchange** with one session: the number of its steps, the pieces of input that have arrived
for it, and the notes. -/
inductive Exchange (id : SessionId) (start : Service) :
    Nat → List Bytes → List Note → Service → Prop where
  /-- Nothing has happened yet. -/
  | refl : Exchange id start 0 [] [] start
  /-- A piece of input arrives. -/
  | deliver {n : Nat} {ps : List Bytes} {notes : List Note} {s : Service}
    (h : Exchange id start n ps notes s) (piece : Bytes) :
    Exchange id start n (ps ++ [piece]) notes (s.handle (.deliver id piece))
  /-- The session takes a step. -/
  | own {n : Nat} {ps : List Bytes} {notes : List Note} {s s' : Service}
    (h : Exchange id start n ps notes s) (hstep : s.step? (.session id) = some s') :
    Exchange id start (n + 1) ps (notes ++ s.noted (.actor (.session id))) s'
  /-- Somebody else makes a move. -/
  | aside {n : Nat} {ps : List Bytes} {notes : List Note} {s s' : Service}
    (h : Exchange id start n ps notes s) {c : Choice} (hother : c ≠ .actor (.session id))
    (hnext : s.next? c = some s') (haside : Aside id s s') :
    Exchange id start n ps (notes ++ s.noted c) s'

theorem Exchange.run (h : Exchange id start n ps notes s) : Run start notes s := by
  induction h with
  | refl => exact .refl
  | @deliver _ _ _ s _ piece ih =>
    have hrun := ih.move (.event (.deliver id piece)) rfl
    rwa [show s.noted (.event (.deliver id piece)) = [] from rfl, List.append_nil] at hrun
  | own _ hstep ih => exact ih.move (.actor (.session id)) hstep
  | aside _ _ hnext _ ih => exact ih.move _ hnext

/-- The moves of others are not noted about the session. -/
theorem deedsOf_noted_of_ne {c : Choice} (hother : c ≠ .actor (.session id)) (s : Service) :
    deedsOf id (s.noted c) = [] := by
  rcases c with e | id' | index
  · exact deedsOf_noted_event id s e
  · have hne : id' ≠ id := fun heq => hother (heq ▸ rfl)
    simp only [noted]
    split
    · rw [deedsOf_map_session, if_neg hne]
    · rfl
  · simp only [noted]
    split <;> rfl

namespace Undisturbed

theorem deedsOf_noted (h : Undisturbed id s x) :
    deedsOf id (s.noted (.actor (.session id))) = s.deeds x := by
  simp only [noted, h.find, deedsOf_map_session, if_true]

/-! ### Single moves -/

theorem aside (h : Undisturbed id s x) (haside : Aside id s s') : Undisturbed id s' x where
  find := haside.session.trans h.find
  cancelled := haside.cancelled.trans h.cancelled
  held := haside.held.trans h.held
  queue := haside.queue.trans h.queue
  goesOn := h.goesOn

theorem deliver (h : Undisturbed id s x) (piece : Bytes) :
    Undisturbed id (s.handle (.deliver id piece))
      { x with transport := x.transport.deliver piece } where
  find := by
    change (s.sessions.modify id _)[id]? = _
    rw [List.getElem?_modify_eq, h.find]
    rfl
  cancelled := h.cancelled
  held := h.held
  queue := h.queue
  goesOn := ⟨h.goesOn.active, h.goesOn.transport.deliver piece⟩

/-- **The step of an undisturbed session** is to have its request carried out or to go on by
itself. -/
theorem own_cases (h : Undisturbed id s x) (hstep : s.step? (.session id) = some s') :
    (∃ r, x.phase = .queued r ∧ s' = s.serve id x r) ∨
      (x.phase.waiting = [] ∧ ∃ e x', x.advance? false = some (e, x') ∧
        s.deeds x = x.deeds false ∧ s' = (s.setSession id x').absorb id e) := by
  simp only [step?, h.find, stepSession?] at hstep
  split at hstep
  · next r hphase =>
    rw [Option.ite_none_right_eq_some] at hstep
    exact .inl ⟨r, hphase, (Option.some.inj hstep.2).symm⟩
  · next hqueued =>
    have hwaiting : x.phase.waiting = [] := by
      cases hphase : x.phase with
      | queued r => exact absurd hphase (hqueued r)
      | _ => rfl
    rw [h.cancelled] at hstep
    split at hstep
    · next e x' hadvance =>
      refine .inr ⟨hwaiting, e, x', hadvance, ?_, (Option.some.inj hstep).symm⟩
      rw [deeds_of_not_queued hqueued, h.cancelled]
    · cases hstep

theorem serve (h : Undisturbed id s x) {r : Request} (hphase : x.phase = .queued r) :
    Undisturbed id (s.serve id x r) (x.answered (s.engine.answer s.host r).1) where
  find := by
    change (s.sessions.set id _)[id]? = _
    rw [List.getElem?_set_self', h.find]
    rfl
  cancelled := h.cancelled
  held := h.held
  queue := by
    change s.queue.drop 1 = _
    rw [h.queue, hphase]
    cases (s.engine.answer s.host r).1 <;> rfl
  goesOn := h.goesOn.answered _

theorem advance (h : Undisturbed id s x) (hwaiting : x.phase.waiting = []) {e : Session.Effect}
    (hopen : x'.Open) (hasks : x'.phase.waiting.length = if e = .lockRequested then 1 else 0) :
    Undisturbed id ((s.setSession id x').absorb id e) x' where
  find := by
    rw [sessions_absorb]
    change (s.sessions.set id x')[id]? = _
    rw [List.getElem?_set_self', h.find]
    rfl
  cancelled := by cases e <;> exact h.cancelled
  held := by cases e <;> exact h.held
  queue := by
    have hempty : s.queue = [] := by
      rw [h.queue, hwaiting]
      rfl
    rw [List.map_const', hasks]
    cases e <;> simp [absorb, setSession, hempty]
  goesOn := hopen

/-- **A step of its own** leaves a session undisturbed and closer to its rest. What it receives is
what has arrived. -/
theorem own (h : Undisturbed id s x) (hstep : s.step? (.session id) = some s') :
    ∃ x', Undisturbed id s' x' ∧ x'.weight < x.weight ∧
      received (s.deeds x) ++ x'.transport.inbound.flatten = x.transport.inbound.flatten := by
  rcases h.own_cases hstep with ⟨r, hphase, rfl⟩ | ⟨hwaiting, e, x', hadvance, hdeeds, rfl⟩
  · refine ⟨_, h.serve hphase, Session.weight_answered_lt hphase _, ?_⟩
    rw [deeds_of_queued hphase]
    cases (s.engine.answer s.host r).1 <;> rfl
  · obtain ⟨hopen, hasks, hstream⟩ := (Session.act_of_advance? hadvance).of_open h.goesOn
    rw [hdeeds]
    exact ⟨x', h.advance hwaiting hopen hasks, Session.weight_advance?_lt hadvance, hstream⟩

/-- **An undisturbed session that has no step waits for input**, and has received all that has
arrived. -/
theorem of_rest (h : Undisturbed id s x) (hrest : s.step? (.session id) = none) :
    x.phase = .receiving ∧ x.transport.inbound = [] := by
  have hqueued : ∀ r, x.phase ≠ .queued r := by
    intro r hphase
    have hqueue := h.queue
    rw [hphase] at hqueue
    have hgrants : s.grants (.session id) = true := by
      rw [grants, h.held, hqueue]
      simp [Session.Phase.waiting]
    simp only [step?, h.find, stepSession?, hphase, hgrants, if_true] at hrest
    cases hrest
  cases Session.resting_of_advance? hqueued (advance?_of_rest hrest h.find hqueued) with
  | waiting hphase hinbound => exact ⟨hphase, hinbound⟩
  | blocked _ hroom =>
    rw [h.goesOn.transport.room] at hroom
    cases hroom
  | ended hphase =>
    have hactive := h.goesOn.active
    rw [hphase] at hactive
    cases hactive

/-- **What a step of its own does to the engine and to the disk** is to carry out a request, or
nothing. -/
theorem carried_of_own (h : Undisturbed id s x) (hstep : s.step? (.session id) = some s') :
    (replies (s.deeds x), s'.engine, s'.host.disk) =
      s.engine.carryOut s.host.disk (requests (s.deeds x)) := by
  rcases h.own_cases hstep with ⟨r, hphase, rfl⟩ | ⟨-, e, x', hadvance, hdeeds, rfl⟩
  · have hreplies : replies [.served r (s.engine.answer s.host r).1] =
        (s.engine.answer s.host r).1.toList := by
      cases hanswer : (s.engine.answer s.host r).1 <;> simp [replies]
    rw [deeds_of_queued hphase, hreplies]
    exact (Engine.carryOut_singleton _ _ _).symm
  · have hnone : requests (s.deeds x) = [] ∧ replies (s.deeds x) = [] := by
      have hact := Session.act_of_advance? hadvance
      rw [hdeeds]
      generalize x.deeds false = ds at hact ⊢
      cases hact <;> exact ⟨rfl, rfl⟩
    rw [hnone.1, hnone.2]
    cases e <;> rfl

end Undisturbed

/-! ### Whole exchanges -/

/-- **Every exchange leaves a session undisturbed.** It has received a part of the input and the
rest has arrived for it, and every step of it has been paid for by the input. -/
theorem Exchange.undisturbed (h : Exchange id start n ps notes s) (hx : Undisturbed id start x) :
    ∃ y, Undisturbed id s y ∧ n + y.weight ≤ x.weight + 8 * ps.flatten.length ∧
      received (deedsOf id notes) ++ y.transport.inbound.flatten =
        x.transport.inbound.flatten ++ ps.flatten := by
  induction h with
  | refl => exact ⟨x, hx, by simp, by simp⟩
  | deliver _ piece ih =>
    obtain ⟨y, hy, hweight, hstream⟩ := ih
    refine ⟨_, hy.deliver piece, ?_, ?_⟩
    · simp only [Session.weight, Transport.backlogSize_eq, Transport.flatten_deliver,
        List.flatten_append, List.flatten_singleton, List.length_append] at hweight ⊢
      simp only [Session.phaseWeight, Transport.room_deliver] at hweight ⊢
      omega
    · rw [Transport.flatten_deliver, List.flatten_append, List.flatten_singleton,
        ← List.append_assoc, hstream, List.append_assoc]
  | own _ hstep ih =>
    obtain ⟨y, hy, hweight, hstream⟩ := ih
    obtain ⟨y', hy', hlt, hstream'⟩ := hy.own hstep
    refine ⟨y', hy', by omega, ?_⟩
    rw [deedsOf_append, hy.deedsOf_noted, Session.received_append, List.append_assoc, hstream',
      hstream]
  | @aside _ _ _ s _ _ c hother _ haside ih =>
    obtain ⟨y, hy, hweight, hstream⟩ := ih
    refine ⟨y, hy.aside haside, hweight, ?_⟩
    rw [deedsOf_append, deedsOf_noted_of_ne hother, List.append_nil, hstream]

/-- **What an exchange does to the engine and to the disk** is to carry out the requests, one after
the other and nothing else, and the answers are those that this gives. -/
theorem Exchange.carried (h : Exchange id start n ps notes s) (hx : Undisturbed id start x) :
    (replies (deedsOf id notes), s.engine, s.host.disk) =
      start.engine.carryOut start.host.disk (requests (deedsOf id notes)) := by
  induction h with
  | refl => rfl
  | deliver _ piece ih => exact ih
  | own h hstep ih =>
    obtain ⟨y, hy, -⟩ := h.undisturbed hx
    have hown := hy.carried_of_own hstep
    rw [deedsOf_append, hy.deedsOf_noted, Session.requests_append, Session.replies_append,
      Engine.carryOut_append, ← ih, ← hown]
  | @aside _ _ _ s _ _ c hother _ haside ih =>
    rw [deedsOf_append, deedsOf_noted_of_ne hother, List.append_nil, haside.engine, haside.disk, ih]

/-! ### The end of an exchange -/

/-- **An exchange comes to an end**, whatever has arrived so far. -/
theorem Exchange.exists_rest (h : Exchange id start n ps notes s) (hx : Undisturbed id s x) :
    ∃ n' notes' s', Exchange id start n' ps notes' s' ∧ s'.step? (.session id) = none := by
  -- on the weight of the session, which every step lowers
  induction hweight : x.weight using Nat.strongRecOn generalizing n notes s x with
  | ind w ih =>
    cases hstep : s.step? (.session id) with
    | none => exact ⟨n, notes, s, h, hstep⟩
    | some s' =>
      obtain ⟨x', hx', hlt, -⟩ := hx.own hstep
      exact ih x'.weight (hweight ▸ hlt) (h.own hstep) hx' rfl

/-- **Every input has an exchange that comes to an end**, whatever pieces it comes in. -/
theorem exists_exchange (hx : Undisturbed id start x) (ps : List Bytes) :
    ∃ n notes s, Exchange id start n ps notes s ∧ s.step? (.session id) = none := by
  have harrived : ∃ s, Exchange id start 0 ps [] s := by
    induction ps using List.reverseRecOn with
    | nil => exact ⟨start, .refl⟩
    | append_singleton ps piece ih =>
      obtain ⟨s, h⟩ := ih
      exact ⟨_, h.deliver piece⟩
  obtain ⟨s, h⟩ := harrived
  obtain ⟨y, hy, -⟩ := h.undisturbed hx
  exact h.exists_rest hy

/-- **At the end of an exchange the input has been attended to**: every line of it that is not too
long was carried out, once and in order, and the answers were sent. Behind whole lines the session
waits for more and holds nothing. -/
theorem Exchange.attended_of_ready (h : Exchange id start n ps notes s)
    (hx : Undisturbed id start x) (hready : x.Ready) (hrest : s.step? (.session id) = none) :
    ∃ y, Undisturbed id s y ∧ y.phase = .receiving ∧ y.limit = x.limit ∧
      requests (deedsOf id notes) = (Session.accepted x.limit ps.flatten).map Request.ofLine ∧
      y.transport.output = x.transport.output ++ (replies (deedsOf id notes)).flatten ∧
      (Bytes.unterminated ps.flatten = [] → y.Idle) := by
  obtain ⟨y, hy, -, hstream⟩ := h.undisturbed hx
  obtain ⟨hphase, hinbound⟩ := hy.of_rest hrest
  obtain ⟨y', hy', hsteps⟩ := h.run.steps hx.find
  rw [hy.find] at hy'
  cases hy'
  rw [hinbound, hready.inbound, List.flatten_nil, List.append_nil, List.nil_append] at hstream
  obtain ⟨hrequests, houtput, hheld⟩ := hready.of_steps hsteps hphase
  rw [hstream] at hrequests hheld
  refine ⟨y, hy, hphase, hsteps.limit_eq, hrequests, houtput, fun hwhole => ?_⟩
  obtain ⟨hempty, hkeeps⟩ := hheld hwhole
  exact ⟨hphase, hempty, hkeeps, hinbound, hy.goesOn.transport⟩

theorem Exchange.attended (h : Exchange id start n ps notes s) (hx : Undisturbed id start x)
    (hidle : x.Idle) (hrest : s.step? (.session id) = none) :
    ∃ y, Undisturbed id s y ∧ y.phase = .receiving ∧ y.limit = x.limit ∧
      requests (deedsOf id notes) = (Session.accepted x.limit ps.flatten).map Request.ofLine ∧
      y.transport.output = x.transport.output ++ (replies (deedsOf id notes)).flatten ∧
      (Bytes.unterminated ps.flatten = [] → y.Idle) :=
  h.attended_of_ready hx hidle.ready hrest

end CommandLog.Service
