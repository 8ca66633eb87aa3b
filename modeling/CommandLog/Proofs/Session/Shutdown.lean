import CommandLog.Proofs.Session.Output

/-!
# The end of a session

A session ends once, whatever has made it leave. It shuts its transport down and then reports its
completion, and does nothing else any more from the moment at which it leaves.

* `CommandLog.Session.Phase.finale` and `CommandLog.Session.EndsOnce` – **what a session does at
  the end** stands behind everything else that it did, and is done once
  (`CommandLog.Session.Past.endsOnce` for a whole life);
* `CommandLog.Session.CutOff` – a session that left with an answer that its peer did not take. All
  answers before that one were sent, and of that one the beginning;
* `CommandLog.Session.Past.cases_of_over` – **a session leaves with everything done**, all its
  input dispatched and all its answers sent, **or it was cut off**;
* `CommandLog.Session.owed` – what a session has still to dispatch, read off what it holds: the
  request that waits for the lock, and the complete lines of the backlog;
* `CommandLog.Session.Past.requests_later` – **without a receive a session dispatches just what it
  owes**, in this order.

That a session which notices a shutdown receives nothing any more is seen from a single step,
`CommandLog.Session.received_notMem_deeds`. All the rest is then said by what holds of every
session at every moment: what it has dispatched is the beginning of what its stream asks for.
-/

namespace CommandLog

open Bytes (IsLine terminator)

namespace Transport

variable {t t' : Transport} {output : Bytes}

/-- Whether some output can not be sent now, because sending fails or the peer takes nothing. -/
def refuses (t : Transport) (output : Bytes) : Bool :=
  match (t.send output).1 with
  | .progress _ => false
  | .blocked | .failed => true

@[simp] theorem shutdowns_send (t : Transport) (output : Bytes) :
    (t.send output).2.shutdowns = t.shutdowns := by
  unfold send
  split
  · rfl
  · split
    · rfl
    · split <;> rfl

@[simp] theorem shutdowns_receive (t : Transport) : t.receive.2.shutdowns = t.shutdowns := by
  unfold receive
  split
  · split <;> rfl
  · rfl

/-- What a send leaves is the end of what was to be sent. -/
theorem suffix_of_send {left : Bytes} (h : t.send output = (.progress left, t')) :
    left <:+ output := by
  unfold send at h
  split at h
  · cases h
    exact List.nil_suffix
  · split at h
    · cases h
    · split at h
      · cases h
        exact List.nil_suffix
      · cases h
      · cases h
        exact List.drop_suffix _ _

theorem Outside.shutdowns_eq (h : t.Outside t') : t'.shutdowns = t.shutdowns := by
  cases h with
  | deliver piece =>
    unfold Transport.deliver
    split <;> rfl
  | endInput | breakOutput | allow => rfl

end Transport

namespace Session

variable {x x' : Session} {ds ds' : List Deed} {limit : Nat}

/-! ### The end is reached once -/

/-- **What a session has done at the end**, as far as it has come. -/
def Phase.finale : Phase → List Deed
  | .signingOff => [.shutDown]
  | .ended => [.shutDown, .completed]
  | _ => []

/-- **A session ends once**: the shutdown of its transport and the report of its completion come
last, in this order, and not earlier as well. -/
structure EndsOnce (x : Session) (ds : List Deed) : Prop where
  /-- The end stands behind everything else. -/
  finale : ∃ before, ds = before ++ x.phase.finale ∧ .shutDown ∉ before ∧ .completed ∉ before
  /-- The transport is shut down as often as the session says. -/
  shutdowns : x.transport.shutdowns = ds.count .shutDown

theorem endsOnce_start (limit : Nat) : EndsOnce { limit } [] :=
  ⟨⟨[], rfl, List.not_mem_nil, List.not_mem_nil⟩, rfl⟩

/-- A step that is neither a shutdown nor a report keeps the end where it is: ahead. -/
theorem EndsOnce.of_going (h : EndsOnce x ds) (hphase : x.phase.finale = [])
    (hphase' : x'.phase.finale = []) (hshutDown : .shutDown ∉ ds') (hcompleted : .completed ∉ ds')
    (hsame : x'.transport.shutdowns = x.transport.shutdowns) : EndsOnce x' (ds ++ ds') := by
  obtain ⟨before, hds, hbefore, hbefore'⟩ := h.finale
  rw [hphase, List.append_nil] at hds
  subst hds
  refine ⟨⟨ds ++ ds', ?_, ?_, ?_⟩, ?_⟩
  · rw [hphase', List.append_nil]
  · rw [List.mem_append, not_or]
    exact ⟨hbefore, hshutDown⟩
  · rw [List.mem_append, not_or]
    exact ⟨hbefore', hcompleted⟩
  · rw [hsame, h.shutdowns, List.count_append, List.count_eq_zero.mpr hshutDown, Nat.add_zero]

/-- **Whatever a session does by itself**, it ends once. -/
theorem EndsOnce.act (h : EndsOnce x ds) {cancelled : Bool} {e : Effect}
    (hact : x.Act cancelled e ds' x') : EndsOnce x' (ds ++ ds') := by
  cases hact with
  | drop hphase =>
    exact h.of_going (by rw [hphase]; rfl) (by simp only [hphase]; rfl) (by simp) (by simp) rfl
  | ask hphase | giveUp hphase | await hphase | leaveWaiting hphase | leaveBlocked hphase =>
    exact h.of_going (by rw [hphase]; rfl) rfl (by simp) (by simp) rfl
  | receive hphase hreceive | leaveAtEnd hphase hreceive =>
    have hsame := Transport.shutdowns_receive x.transport
    rw [hreceive] at hsame
    exact h.of_going (by rw [hphase]; rfl) rfl (by simp) (by simp) hsame
  | @send output left t hphase hsend =>
    have hsame := Transport.shutdowns_send x.transport output
    rw [hsend] at hsame
    refine h.of_going (by rw [hphase]; rfl) ?_ (by simp) (by simp) hsame
    cases left <;> rfl
  | @leaveBroken output t hphase hsend =>
    have hsame := Transport.shutdowns_send x.transport output
    rw [hsend] at hsame
    exact h.of_going (by rw [hphase]; rfl) rfl (by simp) (by simp) hsame
  | shutDown hphase =>
    obtain ⟨before, rfl, hbefore⟩ := h.finale
    refine ⟨⟨before, ?_, hbefore⟩, ?_⟩
    · rw [hphase]
      exact congrArg (· ++ [.shutDown]) (List.append_nil before)
    · rw [List.count_append, ← h.shutdowns]
      rfl
  | signOff hphase =>
    obtain ⟨before, rfl, hbefore⟩ := h.finale
    refine ⟨⟨before, ?_, hbefore⟩, ?_⟩
    · rw [hphase, List.append_assoc]
      rfl
    · rw [List.count_append, ← h.shutdowns]
      rfl

theorem EndsOnce.step (h : EndsOnce x ds) (hstep : Step x ds' x') : EndsOnce x' (ds ++ ds') := by
  cases hstep with
  | own hadvance => exact h.act (act_of_advance? hadvance)
  | served hphase answer =>
    refine h.of_going (by rw [hphase]; rfl) ?_ (by simp) (by simp) ?_ <;> cases answer <;> rfl
  | outside houtside =>
    rw [List.append_nil]
    exact ⟨h.finale, houtside.shutdowns_eq.trans h.shutdowns⟩

theorem Past.endsOnce (h : Past limit ds x) : EndsOnce x ds := by
  induction h with
  | start => exact endsOnce_start limit
  | step _ hstep ih => exact ih.step hstep

/-- **A session that has ended** has shut its transport down once and reported once. -/
theorem EndsOnce.count_completed (h : EndsOnce x ds) :
    ds.count .completed = if x.phase = .ended then 1 else 0 := by
  obtain ⟨before, rfl, -, hbefore⟩ := h.finale
  rw [List.count_append, List.count_eq_zero.mpr hbefore, Nat.zero_add]
  cases x.phase <;> simp [Phase.finale]

/-! ### Sessions that are cut off -/

/-- The limit of a session stays the one that it was started with. -/
theorem Act.limit_eq {cancelled : Bool} {e : Effect} (hact : x.Act cancelled e ds x') :
    x'.limit = x.limit := by
  cases hact <;> rfl

theorem Step.limit_eq (hstep : Step x ds x') : x'.limit = x.limit := by
  cases hstep with
  | own hadvance => exact (act_of_advance? hadvance).limit_eq
  | served _ answer => cases answer <;> rfl
  | outside _ => rfl

theorem Steps.limit_eq (hsteps : Steps x ds x') : x'.limit = x.limit := by
  induction hsteps with
  | refl => rfl
  | step _ hstep ih => rw [hstep.limit_eq, ih]

theorem Past.limit_eq (h : Past limit ds x) : x.limit = limit :=
  h.steps.limit_eq

/-- **What a session is sending is the end of its last answer.** -/
def Answers (x : Session) (ds : List Deed) : Prop :=
  ∀ left, x.phase = .sending left → ∃ front sent, replies ds = front ++ [sent ++ left]

theorem Answers.act (h : Answers x ds) {cancelled : Bool} {e : Effect}
    (hact : x.Act cancelled e ds' x') : Answers x' (ds ++ ds') := by
  intro left hphase'
  rw [replies_append]
  cases hact with
  | drop hphase =>
    rw [show x.phase = _ from hphase'] at hphase
    cases hphase
  | @send output rest t hphase hsend =>
    obtain ⟨front, sent, hreplies⟩ := h output hphase
    obtain ⟨more, rfl⟩ := Transport.suffix_of_send hsend
    obtain rfl : rest = left := by
      cases rest with
      | nil => cases hphase'
      | cons b rest => exact Phase.sending.inj hphase'
    refine ⟨front, sent ++ more, ?_⟩
    rw [hreplies, List.append_assoc sent]
    exact List.append_nil _
  | _ => cases hphase'

theorem Answers.step (h : Answers x ds) (hstep : Step x ds' x') : Answers x' (ds ++ ds') := by
  cases hstep with
  | own hadvance => exact h.act (act_of_advance? hadvance)
  | served _ answer =>
    intro left hphase'
    cases answer with
    | none => cases hphase'
    | some bytes =>
      obtain rfl := Phase.sending.inj hphase'
      exact ⟨replies ds, [], replies_append _ _⟩
  | outside _ =>
    rw [List.append_nil]
    exact h

theorem Past.answers (h : Past limit ds x) : Answers x ds := by
  induction h with
  | start => intro left hphase; cases hphase
  | step _ hstep ih => exact ih.step hstep

/-- **A session that its peer has cut off.** At some moment it had the end of an answer to send,
and sending failed, or the peer took nothing. It left, and has done nothing since but to end.
Everything before that answer has been sent, and of it the beginning. -/
def CutOff (limit : Nat) (ds : List Deed) (x : Session) : Prop :=
  ∃ before y front sent left, Past limit before y ∧ y.phase = .sending left ∧
    y.transport.refuses left = true ∧ ds = before ++ x.phase.finale ∧
    replies ds = front ++ [sent ++ left] ∧ x.transport.output = front.flatten ++ sent

/-- A session that leaves in the middle of an answer is cut off. -/
theorem Past.cutOff (h : Past limit ds x) {left : Bytes} (hphase : x.phase = .sending left)
    (hrefuses : x.transport.refuses left = true)
    (hdelivered : x'.transport.delivered = x.transport.delivered)
    (hphase' : x'.phase = .leaving) : CutOff limit ds x' := by
  obtain ⟨front, sent, hreplies⟩ := h.answers left hphase
  have hmissing := h.replied.missing (by rw [hphase]; rfl)
  refine ⟨ds, x, front, sent, left, h, hphase, hrefuses, ?_, hreplies, ?_⟩
  · rw [hphase']
    exact (List.append_nil ds).symm
  · rw [Transport.output_eq_of_delivered hdelivered]
    rw [hphase, Phase.unsent, hreplies, List.flatten_append, List.flatten_singleton,
      ← List.append_assoc] at hmissing
    exact List.append_cancel_right hmissing

/-- **A session that leaves has done everything, or was cut off**: all that its stream asks for
was carried out, and all answers were sent. -/
def Finished (limit : Nat) (ds : List Deed) (x : Session) : Prop :=
  (requests ds = (accepted limit (received ds)).map Request.ofLine ∧
    x.transport.output = (replies ds).flatten) ∨ CutOff limit ds x

/-- What a session does that has left is to end. -/
theorem Act.of_over {cancelled : Bool} {e : Effect} (hact : x.Act cancelled e ds' x')
    (hover : x.phase.isOver = true) :
    x.phase.finale ++ ds' = x'.phase.finale ∧ x'.transport.delivered = x.transport.delivered ∧
      received ds' = [] ∧ requests ds' = [] ∧ replies ds' = [] := by
  cases hact with
  | shutDown hphase | signOff hphase =>
    rw [hphase]
    exact ⟨rfl, rfl, rfl, rfl, rfl⟩
  | drop hphase | ask hphase | giveUp hphase | await hphase | receive hphase | send hphase
  | leaveAtEnd hphase | leaveBroken hphase | leaveWaiting hphase | leaveBlocked hphase =>
    rw [hphase] at hover
    cases hover

theorem Finished.later (h : Finished limit ds x) (hfinale : x.phase.finale ++ ds' = x'.phase.finale)
    (hdelivered : x'.transport.delivered = x.transport.delivered) (hreceived : received ds' = [])
    (hrequests : requests ds' = []) (hreplies : replies ds' = []) :
    Finished limit (ds ++ ds') x' := by
  have houtput := Transport.output_eq_of_delivered hdelivered
  rw [Finished, CutOff, houtput, received_append, requests_append, replies_append, hreceived,
    hrequests, hreplies, List.append_nil, List.append_nil, List.append_nil]
  refine h.imp_right ?_
  rintro ⟨before, y, front, sent, left, hpast, hphase, hrefuses, hds, hsent⟩
  refine ⟨before, y, front, sent, left, hpast, hphase, hrefuses, ?_, hsent⟩
  rw [← hfinale, ← List.append_assoc, ← hds]

/-- **Whatever makes a session leave**, it is finished. -/
theorem Past.finished_of_act (h : Past limit ds x) (hover : x.phase.isOver = false)
    {cancelled : Bool} {e : Effect} (hact : x.Act cancelled e ds' x')
    (h' : Past limit (ds ++ ds') x') (hover' : x'.phase.isOver = true) :
    Finished limit (ds ++ ds') x' := by
  have hlimit := h'.limit_eq
  obtain ⟨done, pending, hframed⟩ := h.framed
  obtain ⟨done', pending', hframed'⟩ := h'.framed
  have hmissing := h.replied.missing hover
  cases hact with
  | leaveAtEnd hphase hreceive =>
    have hdelivered := Transport.delivered_receive x.transport
    rw [hreceive] at hdelivered
    refine .inl ⟨hlimit ▸ (hframed'.quiescent (.inr (by simp))).1, ?_⟩
    rw [hphase, Phase.unsent, List.append_nil] at hmissing
    · rw [Transport.output_eq_of_delivered hdelivered, hmissing, replies_append]
      exact congrArg List.flatten (List.append_nil _).symm
    · simp
  | leaveWaiting hphase =>
    rw [List.append_nil]
    refine .inl ⟨hlimit ▸ (hframed.quiescent (.inl hphase)).1, ?_⟩
    rw [hphase, Phase.unsent, List.append_nil] at hmissing
    · exact hmissing
    · simp
  | leaveBroken hphase hsend =>
    rw [List.append_nil]
    refine .inr (h.cutOff hphase ?_ (Transport.delivered_send_failed hsend) rfl)
    rw [Transport.refuses, hsend]
  | leaveBlocked hphase hsend =>
    rw [List.append_nil]
    refine .inr (h.cutOff hphase ?_ rfl rfl)
    rw [Transport.refuses, hsend]
  | drop hphase =>
    rw [show x.phase.isOver = _ from hover'] at hover
    cases hover
  | @send output left t =>
    cases left <;> cases hover'
  | ask | giveUp | await | receive => cases hover'
  | shutDown hphase | signOff hphase =>
    rw [hphase] at hover
    cases hover

/-- **A session leaves with everything done, or it was cut off.** -/
theorem Past.cases_of_over (h : Past limit ds x) (hover : x.phase.isOver = true) :
    Finished limit ds x := by
  induction h with
  | start => cases hover
  | @step ds ds' x x' hpast hstep ih =>
    have hpast' := hpast.step hstep
    cases hstep with
    | own hadvance =>
      have hact := act_of_advance? hadvance
      cases hover' : x.phase.isOver with
      | true =>
        obtain ⟨hfinale, hdelivered, hreceived, hrequests, hreplies⟩ := hact.of_over hover'
        exact (ih hover').later hfinale hdelivered hreceived hrequests hreplies
      | false => exact hpast.finished_of_act hover' hact hpast' hover
    | served hphase answer => cases answer <;> cases hover
    | outside houtside =>
      exact (ih hover).later (List.append_nil _) houtside.delivered_eq rfl rfl rfl

/-! ### What a session has still to do -/

/-- **What a session owes**: the request that it has made and the complete lines that it holds. -/
def owed (x : Session) : List Request :=
  x.phase.waiting ++ (accepted x.limit x.backlog.bytes).map Request.ofLine

/-- Bytes without a terminator ask for nothing. -/
theorem accepted_of_notMem {bs : Bytes} (h : terminator ∉ bs) : accepted limit bs = [] := by
  have hcut : bs = ([] : List Bytes).flatten ++ bs := rfl
  obtain ⟨hlines, -⟩ := Bytes.lines_eq hcut (by simp) h
  rw [accepted, hlines]
  rfl

/-- **What was carried out and what is owed** are together what the stream asks for. -/
theorem Framed.requests_append_owed {done : List Bytes} {pending : Bytes}
    (h : Framed x ds done pending) :
    requests ds ++ x.owed = (accepted x.limit (received ds)).map Request.ofLine := by
  have hpending : accepted x.limit x.backlog.bytes = accepted x.limit pending := by
    cases hdiscarding : x.backlog.discarding with
    | false => rw [h.kept hdiscarding]
    | true =>
      -- of a line that is skipped nothing is held
      obtain ⟨hempty, hnone, -⟩ := h.skipped hdiscarding
      rw [hempty, accepted_of_notMem hnone, accepted_of_notMem List.not_mem_nil]
  rw [owed, ← List.append_assoc, h.dispatched, hpending, accepted, accepted, h.stream,
    Bytes.lines_flatten_append h.isLine, List.filter_append, List.map_append]

/-- **Without a receive a session dispatches what it owes**, in this order: the beginning of it at
every moment, and all of it when it leaves without being cut off. -/
theorem Past.requests_later (h : Past limit ds x) (h' : Past limit (ds ++ ds') x')
    (hnone : received ds' = []) :
    requests ds' <+: x.owed ∧
      (x'.phase.isOver = true →
        requests ds' = x.owed ∧ x'.transport.output = (replies (ds ++ ds')).flatten ∨
          CutOff limit (ds ++ ds') x') := by
  obtain ⟨done, pending, hframed⟩ := h.framed
  obtain ⟨done', pending', hframed'⟩ := h'.framed
  have howed := hframed.requests_append_owed
  rw [h.limit_eq] at howed
  constructor
  · have hfront := hframed'.requests_prefix_accepted
    rw [h'.limit_eq, received_append, hnone, List.append_nil, requests_append, ← howed] at hfront
    exact (List.prefix_append_right_inj _).mp hfront
  · intro hover
    refine (h'.cases_of_over hover).imp_left ?_
    rintro ⟨hall, houtput⟩
    rw [received_append, hnone, List.append_nil, requests_append, ← howed] at hall
    exact ⟨List.append_cancel_left hall, houtput⟩

/-- **Every request is a complete line** that is not longer than the limit. -/
theorem Past.isLine_of_mem_requests (h : Past limit ds x) {r : Request} (hr : r ∈ requests ds) :
    ∃ l, IsLine l ∧ l.length ≤ limit ∧ r = .ofLine l := by
  obtain ⟨done, pending, hframed⟩ := h.framed
  have hmem : r ∈ (done.filter (·.length ≤ x.limit)).map Request.ofLine := by
    rw [← hframed.dispatched]
    exact List.mem_append_left _ hr
  obtain ⟨l, hl, rfl⟩ := List.mem_map.mp hmem
  obtain ⟨hdone, hshort⟩ := List.mem_filter.mp hl
  rw [h.limit_eq] at hshort
  exact ⟨l, hframed.isLine l hdone, of_decide_eq_true hshort, rfl⟩

/-! ### Once shutdown was requested -/

/-- **A session that looks for a shutdown before it receives** receives nothing any more. -/
theorem received_notMem_deeds (x : Session) :
    (∀ piece, .received piece ∉ x.deeds true) ∧ .inputEnded ∉ x.deeds true := by
  unfold deeds
  split
  · split <;> simp
  · simp
  · next left _ => cases (x.transport.send left).1 <;> simp [sendDeeds]
  all_goals simp

/-- **A session that has not ended can go on**, unless it waits for the lock. -/
theorem exists_advance? (hqueued : ∀ r, x.phase ≠ .queued r) (hended : x.phase ≠ .ended) :
    ∃ r, x.advance? true = some r := by
  unfold advance?
  split
  · exact ⟨_, rfl⟩
  · exact ⟨_, rfl⟩
  · next r hphase => exact absurd hphase (hqueued r)
  · next left _ =>
    unfold send?
    split <;> exact ⟨_, rfl⟩
  · exact ⟨_, rfl⟩
  · exact ⟨_, rfl⟩
  · next hphase => exact absurd hphase hended

end Session

end CommandLog
