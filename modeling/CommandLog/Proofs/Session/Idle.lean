import CommandLog.Proofs.Session.Output
import CommandLog.Proofs.Session.Shutdown

/-!
# Sessions that wait for input

A session that has dealt with all its input waits for more, and nothing of the earlier input has any
influence on what it does next. It is then like a session that has just been started, except that
there is some output on its transport already.

* `CommandLog.Transport.Open` – a transport that holds nobody up: the peer takes everything and
  goes on with its input;
* `CommandLog.Session.Act.of_open` – **a session on such a transport goes on by itself**, and what
  it receives is what has arrived;
* `CommandLog.Session.Idle` – **a session that waits for input** and holds none, and
  `CommandLog.Session.Ready`, which one that has just been started is as well;
* `CommandLog.Session.Ready.of_steps` – **what it has done as soon as it waits again** is read off
  the input received meanwhile, and its output is what it had sent before and the answers.
-/

namespace CommandLog

namespace Transport

variable {t t' : Transport} {bytes : Bytes}

/-- **A transport that holds nobody up.** -/
structure Open (t : Transport) : Prop where
  /-- The input goes on behind what has arrived. -/
  ending : t.ending = none
  /-- What has arrived are no empty pieces, which would be taken for the end of the input. -/
  pieces : [] ∉ t.inbound
  /-- The peer takes everything. -/
  room : t.room = none
  /-- Sending works. -/
  works : t.outputBroken = false

theorem backlogSize_eq (t : Transport) : t.backlogSize = t.inbound.flatten.length := by
  rw [backlogSize, List.length_flatten]
  induction t.inbound with
  | nil => rfl
  | cons p ps ih => rw [List.map_cons, total_cons, ih, List.sum_cons]

theorem Open.inbound_eq_nil (h : t.Open) (hnone : t.inbound.flatten = []) : t.inbound = [] := by
  rw [List.eq_nil_iff_forall_not_mem]
  intro piece hpiece
  have hempty : piece = [] := List.flatten_eq_nil_iff.mp hnone piece hpiece
  exact h.pieces (hempty ▸ hpiece)

/-! ### What arrives -/

theorem flatten_deliver (t : Transport) (piece : Bytes) :
    (t.deliver piece).inbound.flatten = t.inbound.flatten ++ piece := by
  unfold deliver
  split
  · next hempty => rw [List.isEmpty_iff.mp hempty, List.append_nil]
  · rw [List.flatten_append, List.flatten_singleton]

theorem room_deliver (t : Transport) (piece : Bytes) : (t.deliver piece).room = t.room := by
  unfold deliver
  split <;> rfl

theorem Open.deliver (h : t.Open) (piece : Bytes) : (t.deliver piece).Open := by
  unfold Transport.deliver
  split
  · exact h
  · next hne =>
    refine ⟨h.ending, ?_, h.room, h.works⟩
    rw [List.mem_append, not_or, List.mem_singleton]
    exact ⟨h.pieces, fun hnil => hne (List.isEmpty_iff.mpr hnil.symm)⟩

/-! ### What is received and sent -/

/-- **A receive takes from the front of what has arrived.** -/
theorem Open.receive (h : t.Open) (hreceive : t.receive = (.piece bytes, t')) :
    t'.Open ∧ bytes ++ t'.inbound.flatten = t.inbound.flatten := by
  unfold Transport.receive at hreceive
  split at hreceive
  · next p rest hinbound =>
    have hpieces := h.pieces
    rw [hinbound, List.mem_cons, not_or] at hpieces
    split at hreceive
    · cases hreceive
    · cases hreceive
      refine ⟨⟨h.ending, ?_, h.room, h.works⟩, ?_⟩
      · -- what is left of the piece is only put back if there is something left
        unfold requeue
        split
        · exact hpieces.2
        · next hleft =>
          rw [List.mem_cons, not_or]
          exact ⟨fun hnil => hleft (List.isEmpty_iff.mpr hnil.symm), hpieces.2⟩
      · rw [hinbound, List.flatten_cons]
        unfold requeue
        split
        · next hleft =>
          rw [List.isEmpty_iff, List.drop_eq_nil_iff] at hleft
          rw [List.take_of_length_le hleft]
        · rw [List.flatten_cons, ← List.append_assoc, List.take_append_drop]
  · split at hreceive <;> cases hreceive

/-- The input is never found at an end. -/
theorem Open.receive_ne_over (h : t.Open) : t.receive ≠ (.over, t') := by
  unfold Transport.receive
  split
  · next p rest hinbound =>
    have hpieces := h.pieces
    rw [hinbound, List.mem_cons, not_or] at hpieces
    rw [if_neg fun hempty => hpieces.1 (List.isEmpty_iff.mp hempty).symm]
    exact fun heq => nomatch (Prod.mk.inj heq).1
  · rw [h.ending]
    exact fun heq => nomatch (Prod.mk.inj heq).1

/-- **All output is sent at once.** -/
theorem Open.send (h : t.Open) {output : Bytes} {r : Sent} (hsend : t.send output = (r, t')) :
    r = .progress [] ∧ t'.Open ∧ t'.inbound = t.inbound := by
  unfold Transport.send at hsend
  split at hsend
  · cases hsend
    exact ⟨rfl, h, rfl⟩
  · rw [h.works, h.room] at hsend
    cases hsend
    exact ⟨rfl, ⟨h.ending, h.pieces, rfl, rfl⟩, rfl⟩

end Transport

namespace Session

variable {x x' y : Session} {ds ds' : List Deed}

/-! ### Sessions that go on -/

/-- **A session that goes on**: it has not left, and its transport does not hold it up. -/
structure Open (x : Session) : Prop where
  /-- It has not left. -/
  active : x.phase.isOver = false
  /-- Its transport does not hold it up. -/
  transport : x.transport.Open

/-- **Whatever a session that goes on does by itself**, it goes on after it. It has a request only
when it has just asked for the lock, and what it has received was at the front of what had
arrived. -/
theorem Act.of_open {e : Effect} (hact : x.Act false e ds x') (h : x.Open) :
    x'.Open ∧ x'.phase.waiting.length = (if e = .lockRequested then 1 else 0) ∧
      received ds ++ x'.transport.inbound.flatten = x.transport.inbound.flatten := by
  obtain ⟨hactive, htransport⟩ := h
  cases hact with
  | drop hphase => exact ⟨⟨hactive, htransport⟩, by rw [hphase]; rfl, rfl⟩
  | ask | giveUp | await => exact ⟨⟨rfl, htransport⟩, rfl, rfl⟩
  | receive _ hreceive =>
    obtain ⟨hopen, hstream⟩ := htransport.receive hreceive
    exact ⟨⟨rfl, hopen⟩, rfl, by simpa [received] using hstream⟩
  | send _ hsend =>
    obtain ⟨hall, hopen, hinbound⟩ := htransport.send hsend
    cases hall
    exact ⟨⟨rfl, hopen⟩, rfl, by rw [hinbound]; rfl⟩
  | leaveAtEnd _ hreceive => exact absurd hreceive htransport.receive_ne_over
  | leaveBroken _ hsend | leaveBlocked _ hsend => cases (htransport.send hsend).1
  | leaveWaiting _ hcancelled => cases hcancelled
  | shutDown hphase | signOff hphase =>
    rw [hphase] at hactive
    cases hactive

/-- So does a session whose request is carried out. -/
theorem Open.answered (h : x.Open) (answer : Option Bytes) : (x.answered answer).Open := by
  cases answer <;> exact ⟨rfl, h.transport⟩

/-! ### Sessions that wait for input -/

/-- **A session that waits for input** on a transport that holds nobody up, and holds none. -/
structure Idle (x : Session) : Prop where
  /-- It waits for input. -/
  phase : x.phase = .receiving
  /-- It holds no input. -/
  empty : x.backlog.bytes = []
  /-- It skips none. -/
  keeps : x.backlog.discarding = false
  /-- None has arrived. -/
  inbound : x.transport.inbound = []
  /-- Its transport does not hold it up. -/
  transport : x.transport.Open

/-- It has one step only, as soon as there is input. -/
theorem Idle.weight_eq (h : x.Idle) : x.weight = 3 := by
  rw [weight, Transport.backlogSize_eq, h.inbound, Backlog.size_eq_length_bytes, h.empty,
    phaseWeight, h.phase]
  rfl

/-- **A session that holds no input**, and waits for some or is about to. -/
structure Ready (x : Session) : Prop where
  /-- It waits for input, or is about to find that it must. -/
  phase : x.phase = .framing ∨ x.phase = .receiving
  /-- It holds no input. -/
  empty : x.backlog.bytes = []
  /-- It skips none. -/
  keeps : x.backlog.discarding = false
  /-- None has arrived. -/
  inbound : x.transport.inbound = []
  /-- Its transport does not hold it up. -/
  transport : x.transport.Open

theorem Idle.ready (h : x.Idle) : x.Ready :=
  ⟨.inr h.phase, h.empty, h.keeps, h.inbound, h.transport⟩

/-- A session that has just been started is ready. -/
theorem ready_start (limit : Nat) : Ready { limit } :=
  ⟨.inl rfl, rfl, rfl, rfl, rfl, List.not_mem_nil, rfl, rfl⟩

/-- It has one step more at most. -/
theorem Ready.weight_le (h : x.Ready) : x.weight ≤ 4 := by
  rw [weight, Transport.backlogSize_eq, h.inbound, Backlog.size_eq_length_bytes, h.empty]
  rcases h.phase with hphase | hphase <;> simp [phaseWeight, hphase]

/-- **It is like a session without a past**, as far as its input is concerned. -/
theorem Ready.framed (h : x.Ready) : Framed x [] [] [] where
  stream := rfl
  isLine _ hl := nomatch hl
  dispatched := by rcases h.phase with hphase | hphase <;> rw [hphase] <;> rfl
  dropped := by rw [h.keeps]; rfl
  clean := by
    have hscanned := (List.append_eq_nil_iff.mp h.empty).1
    rw [Backlog.Clean, List.reverse_eq_nil_iff.mp hscanned]
    exact List.not_mem_nil
  kept _ := h.empty
  skipped hskips := by
    rw [h.keeps] at hskips
    cases hskips
  quiet _ := by
    rw [h.empty]
    exact ⟨List.not_mem_nil, Nat.zero_le _⟩
  ended hmem := nomatch hmem

/-- **What is on its transport** may count as one answer that was given before. -/
theorem Ready.replied (h : x.Ready) :
    Replied x [.served .rejected (some x.transport.output)] where
  isFront := List.prefix_append _ _
  missing _ := by
    rcases h.phase with hphase | hphase <;> rw [hphase] <;> rfl

/-- **What a session has done when it waits for input again**: it has dispatched what the input
received meanwhile asks for, it has sent the answers, and behind whole lines it holds nothing. -/
theorem Ready.of_steps (h : x.Ready) (hsteps : Steps x ds y) (hphase : y.phase = .receiving) :
    requests ds = (accepted x.limit (received ds)).map Request.ofLine ∧
      y.transport.output = x.transport.output ++ (replies ds).flatten ∧
      ((received ds).unterminated = [] → y.backlog.bytes = [] ∧ y.backlog.discarding = false) := by
  obtain ⟨done, pending, hframed⟩ := hsteps.framed h.framed
  rw [List.nil_append] at hframed
  have hmissing := (hsteps.replied h.replied).missing (by rw [hphase]; rfl)
  rw [hphase, replies_append] at hmissing
  refine ⟨?_, ?_, hframed.nothing_held hphase⟩
  · rw [(hframed.quiescent (.inl hphase)).1, hsteps.limit_eq]
  · simpa [Phase.unsent, replies] using hmissing

end Session

end CommandLog
