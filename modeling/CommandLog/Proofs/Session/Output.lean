import CommandLog.Proofs.Session.Framing

/-!
# Output

A session sends its answers one after the other, each of them in as many parts as the peer takes.
So what is on its transport is always the beginning of all answers, put together, and what is
missing is what the session is sending: `CommandLog.Session.Replied`. An answer is only given up
by a session that leaves, and nothing is sent after that.

* `CommandLog.Transport.output_send` – what a send puts on the transport, and what it leaves;
* `CommandLog.Session.Replied.step` – **every step keeps the invariant**
  (`CommandLog.Session.Past.replied` for a whole life).
-/

namespace CommandLog

namespace Transport

/-- **A send splits the output**: what was taken is on the transport, and the rest is left. -/
theorem output_send {t t' : Transport} {bytes left : Bytes}
    (h : t.send bytes = (.progress left, t')) : t'.output ++ left = t.output ++ bytes := by
  unfold send at h
  split at h
  · next hempty =>
    cases h
    rw [List.isEmpty_iff.mp hempty]
  · split at h
    · cases h
    · split at h
      · cases h
        simp [output]
      · cases h
      · cases h
        simp [output]

theorem output_eq_of_delivered {t t' : Transport} (h : t'.delivered = t.delivered) :
    t'.output = t.output := by
  rw [output, h, output]

theorem delivered_send_failed {t t' : Transport} {bytes : Bytes}
    (h : t.send bytes = (.failed, t')) : t'.delivered = t.delivered := by
  unfold send at h
  split at h
  · cases h
  · split at h
    · cases h
      rfl
    · split at h <;> cases h

theorem delivered_receive (t : Transport) : t.receive.2.delivered = t.delivered := by
  unfold receive
  split
  · split <;> rfl
  · rfl

theorem Outside.delivered_eq {t t' : Transport} (h : t.Outside t') :
    t'.delivered = t.delivered := by
  cases h with
  | deliver piece =>
    unfold Transport.deliver
    split <;> rfl
  | endInput | breakOutput | allow => rfl

end Transport

namespace Session

/-- The part of an answer that is still to be sent. -/
def Phase.unsent : Phase → Bytes
  | .sending left => left
  | _ => []

/-- **What a session has put on its transport**, compared with the answers to its requests. -/
structure Replied (x : Session) (ds : List Deed) : Prop where
  /-- It is the beginning of the answers. -/
  isFront : x.transport.output <+: (replies ds).flatten
  /-- Only the answer that is being sent is missing from it. -/
  missing : x.phase.isOver = false →
    x.transport.output ++ x.phase.unsent = (replies ds).flatten

variable {x x' : Session} {ds ds' : List Deed}

theorem replied_start (limit : Nat) : Replied { limit } [] where
  isFront := List.prefix_refl _
  missing _ := rfl

/-- A step that gives no answer keeps the invariant when it only moves bytes from the answer that
is being sent to the transport. -/
theorem Replied.of_moved (h : Replied x ds) (hover : x.phase.isOver = false)
    (hreplies : replies ds' = [])
    (hmoved : x'.transport.output ++ x'.phase.unsent = x.transport.output ++ x.phase.unsent) :
    Replied x' (ds ++ ds') := by
  have hall : x'.transport.output ++ x'.phase.unsent = (replies (ds ++ ds')).flatten := by
    rw [hmoved, h.missing hover, replies_append, hreplies, List.append_nil]
  exact ⟨hall ▸ List.prefix_append _ _, fun _ => hall⟩

/-- A step that gives no answer and sends nothing keeps the invariant when the session leaves, or
has left, by it. -/
theorem Replied.of_over (h : Replied x ds) (hreplies : replies ds' = [])
    (hdelivered : x'.transport.delivered = x.transport.delivered) (hover : x'.phase.isOver) :
    Replied x' (ds ++ ds') where
  isFront := by
    rw [Transport.output_eq_of_delivered hdelivered, replies_append, hreplies, List.append_nil]
    exact h.isFront
  missing hnot := by
    rw [hover] at hnot
    cases hnot

/-! ### Each step -/

/-- **Whatever a session does by itself** keeps the invariant. -/
theorem Replied.act (h : Replied x ds) {cancelled : Bool} {e : Effect}
    (hact : x.Act cancelled e ds' x') : Replied x' (ds ++ ds') := by
  cases hact with
  | drop hphase => exact h.of_moved (by rw [hphase]; rfl) rfl rfl
  | ask hphase | giveUp hphase | await hphase =>
    exact h.of_moved (by rw [hphase]; rfl) rfl (by rw [hphase]; rfl)
  | receive hphase hreceive =>
    have hdelivered := Transport.delivered_receive x.transport
    rw [hreceive] at hdelivered
    refine h.of_moved (by rw [hphase]; rfl) rfl ?_
    rw [hphase, Transport.output_eq_of_delivered hdelivered]
    rfl
  | @send output left t hphase hsend =>
    refine h.of_moved (by rw [hphase]; rfl) rfl ?_
    -- what was taken has moved from the answer to the transport
    have houtput := Transport.output_send hsend
    rw [hphase]
    cases left with
    | nil => exact houtput
    | cons b left => exact houtput
  | leaveAtEnd hphase hreceive =>
    have hdelivered := Transport.delivered_receive x.transport
    rw [hreceive] at hdelivered
    exact h.of_over rfl hdelivered rfl
  | leaveBroken hphase hsend => exact h.of_over rfl (Transport.delivered_send_failed hsend) rfl
  | leaveWaiting | leaveBlocked | shutDown | signOff => exact h.of_over rfl rfl rfl

/-- An answer is to be sent as a whole when the request has been carried out. -/
theorem Replied.served (h : Replied x ds) {r : Request} (hphase : x.phase = .queued r)
    (answer : Option Bytes) : Replied (x.answered answer) (ds ++ [.served r answer]) := by
  -- nothing is being sent while a request waits
  have hbefore : x.transport.output = (replies ds).flatten := by
    have hmissing := h.missing (by rw [hphase]; rfl)
    rwa [hphase, Phase.unsent, List.append_nil] at hmissing
    simp
  cases answer with
  | none =>
    refine h.of_moved (by rw [hphase]; rfl) rfl ?_
    rw [hphase]
    rfl
  | some bytes =>
    have hall : (x.answered (some bytes)).transport.output ++ bytes =
        (replies (ds ++ [.served r (some bytes)])).flatten := by
      rw [replies_append, List.flatten_append, ← hbefore]
      simp [replies, answered]
    exact ⟨hall ▸ List.prefix_append _ _, fun _ => hall⟩

/-- **Every step keeps the invariant.** -/
theorem Replied.step (h : Replied x ds) (hstep : Step x ds' x') : Replied x' (ds ++ ds') := by
  cases hstep with
  | own hadvance => exact h.act (act_of_advance? hadvance)
  | served hphase answer => exact h.served hphase answer
  | outside houtside =>
    have houtput := Transport.output_eq_of_delivered houtside.delivered_eq
    refine ⟨?_, ?_⟩
    · rw [List.append_nil, houtput]
      exact h.isFront
    · intro hover
      rw [List.append_nil, houtput]
      exact h.missing hover

theorem Steps.replied (hsteps : Steps x ds' x') (h : Replied x ds) : Replied x' (ds ++ ds') := by
  induction hsteps with
  | refl =>
    rw [List.append_nil]
    exact h
  | step _ hstep ih =>
    rw [← List.append_assoc]
    exact ih.step hstep

theorem Past.replied {limit : Nat} (h : Past limit ds x) : Replied x ds :=
  h.steps.replied (replied_start limit)

end Session

end CommandLog
