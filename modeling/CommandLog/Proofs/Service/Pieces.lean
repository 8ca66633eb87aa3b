import CommandLog.Proofs.Service.Exchange

/-!
# Any pieces can be received

A session does not choose the pieces that its input comes in. Whatever pieces a stream is cut into,
there is a run in which a session receives just these, deals with them and waits for more.

* `CommandLog.Service.pieces` – the pieces that a session has received;
* `CommandLog.Service.Undisturbed.comes_to_receive` – a session that nobody holds up and for which
  nothing has arrived comes to wait for input;
* `CommandLog.Service.Undisturbed.receive` – it then receives a piece as it arrives;
* `CommandLog.Service.exists_run_of_pieces` – **a run for any pieces**, none of them empty or longer
  than one receive gives.

What is dispatched on the way need not be looked at: it is what every run dispatches.
-/

namespace CommandLog.Service

open Session (Deed received)

variable {start s s' : Service} {id : SessionId} {notes notes' : List Note} {x y : Session}
  {ds : List Deed}

/-- The pieces of input received, in order. -/
def pieces (ds : List Deed) : List Bytes :=
  ds.filterMap fun | .received piece => some piece | _ => none

@[simp] theorem pieces_append (ds ds' : List Deed) :
    pieces (ds ++ ds') = pieces ds ++ pieces ds' := by
  simp [pieces]

/-! ### What is received -/

/-- No piece that is received is empty. -/
theorem nil_notMem_pieces_of_act {cancelled : Bool} {e : Session.Effect}
    (hact : x.Act cancelled e ds y) : [] ∉ pieces ds := by
  cases hact with
  | receive _ hreceive =>
    obtain ⟨hpos, -⟩ := Transport.backlogSize_receive_piece hreceive
    exact fun hmem => List.ne_nil_of_length_pos hpos (List.mem_singleton.mp hmem).symm
  | _ => exact List.not_mem_nil

theorem nil_notMem_pieces (hsteps : Session.Steps x ds y) : [] ∉ pieces ds := by
  induction hsteps with
  | refl => exact List.not_mem_nil
  | step _ hstep ih =>
    rw [pieces_append, List.mem_append, not_or]
    refine ⟨ih, ?_⟩
    cases hstep with
    | own hadvance => exact nil_notMem_pieces_of_act (Session.act_of_advance? hadvance)
    | served | outside => exact List.not_mem_nil

/-- So nothing is received in no pieces. -/
theorem pieces_eq_nil (hsteps : Session.Steps x ds y) (hnone : received ds = []) :
    pieces ds = [] := by
  rw [List.eq_nil_iff_forall_not_mem]
  intro piece hpiece
  have hempty : piece = [] := List.flatten_eq_nil_iff.mp hnone piece hpiece
  exact nil_notMem_pieces hsteps (hempty ▸ hpiece)

/-- **A session that nobody holds up comes to wait for input**, and receives nothing before if
nothing has arrived. -/
theorem Undisturbed.comes_to_receive (h : Undisturbed id s x)
    (hinbound : x.transport.inbound = []) :
    ∃ notes s' y, Run s notes s' ∧ Undisturbed id s' y ∧ y.phase = .receiving ∧
      y.transport.inbound = [] ∧ y.limit = x.limit ∧ pieces (deedsOf id notes) = [] := by
  obtain ⟨n, notes, s', hexchange, hrest⟩ := exists_exchange h []
  obtain ⟨y, hy, -, hstream⟩ := hexchange.undisturbed h
  obtain ⟨hphase, hinbound'⟩ := hy.of_rest hrest
  obtain ⟨y', hy', hsteps⟩ := hexchange.run.steps h.find
  rw [hy.find] at hy'
  cases hy'
  rw [hinbound', hinbound] at hstream
  have hnone : received (deedsOf id notes) = [] := by simpa using hstream
  exact ⟨notes, s', y, hexchange.run, hy, hphase, hinbound', hsteps.limit_eq,
    pieces_eq_nil hsteps hnone⟩

/-- **A piece that arrives is received.** -/
theorem Undisturbed.receive (h : Undisturbed id s x) (hphase : x.phase = .receiving)
    (hinbound : x.transport.inbound = []) {piece : Bytes} (hne : piece ≠ [])
    (hshort : piece.length ≤ Transport.receiveLimit) :
    ∃ notes s' y, Run s notes s' ∧ Undisturbed id s' y ∧ y.transport.inbound = [] ∧
      y.limit = x.limit ∧ pieces (deedsOf id notes) = [piece] := by
  have hempty : piece.isEmpty = false := List.isEmpty_eq_false_iff.mpr hne
  have hdeliver : x.transport.deliver piece = { x.transport with inbound := [piece] } := by
    rw [Transport.deliver, hempty, hinbound]
    rfl
  have harrived := h.deliver piece
  have hdeeds : (s.handle (.deliver id piece)).deeds
      { x with transport := x.transport.deliver piece } = [.received piece] := by
    rw [deeds_of_not_queued (by simp [hphase]), harrived.cancelled, Session.deeds, hdeliver]
    simp [hphase, Transport.receive, hempty, List.take_of_length_le hshort, Session.receiptDeeds]
  cases hstep : (s.handle (.deliver id piece)).step? (.session id) with
  | none =>
    -- it would have received what has arrived
    have hnone := (harrived.of_rest hstep).2
    rw [hdeliver] at hnone
    cases hnone
  | some s' =>
    obtain ⟨y, hy, -, hstream⟩ := harrived.own hstep
    have hrun := (run_of_event s (.deliver id piece)).trans
      (run_of_next? (c := .actor (.session id)) hstep)
    obtain ⟨y', hy', hsteps⟩ := hrun.steps h.find
    rw [hy.find] at hy'
    cases hy'
    rw [hdeeds, Transport.flatten_deliver, hinbound] at hstream
    have hleft : y.transport.inbound.flatten = [] := by simpa [received] using hstream
    refine ⟨_, s', y, hrun, hy, hy.goesOn.transport.inbound_eq_nil hleft, hsteps.limit_eq, ?_⟩
    rw [deedsOf_append, deedsOf_noted_event, harrived.deedsOf_noted, hdeeds]
    rfl

/-! ### A run for any pieces -/

/-- Pieces that arrive one after the other are received one after the other. -/
theorem Undisturbed.receives (h : Undisturbed id s x) (hinbound : x.transport.inbound = [])
    {ps : List Bytes} (hps : ∀ p ∈ ps, p ≠ [] ∧ p.length ≤ Transport.receiveLimit) :
    ∃ notes s' y, Run s notes s' ∧ Undisturbed id s' y ∧ y.phase = .receiving ∧
      y.limit = x.limit ∧ pieces (deedsOf id notes) = ps := by
  induction ps generalizing s x with
  | nil =>
    obtain ⟨notes, s', y, hrun, hy, hphase, -, hlimit, hnone⟩ := h.comes_to_receive hinbound
    exact ⟨notes, s', y, hrun, hy, hphase, hlimit, hnone⟩
  | cons p ps ih =>
    obtain ⟨hne, hshort⟩ := hps p List.mem_cons_self
    obtain ⟨notes₁, s₁, x₁, hrun₁, hx₁, hphase₁, hinbound₁, hlimit₁, hnone⟩ :=
      h.comes_to_receive hinbound
    obtain ⟨notes₂, s₂, x₂, hrun₂, hx₂, hinbound₂, hlimit₂, hpiece⟩ :=
      hx₁.receive hphase₁ hinbound₁ hne hshort
    obtain ⟨notes₃, s', y, hrun₃, hy, hphase, hlimit, hlater⟩ :=
      ih hx₂ hinbound₂ fun p' hp' => hps p' (List.mem_cons_of_mem p hp')
    refine ⟨_, s', y, hrun₁.trans (hrun₂.trans hrun₃), hy, hphase,
      hlimit.trans (hlimit₂.trans hlimit₁), ?_⟩
    simp only [deedsOf_append, pieces_append, hnone, hpiece, hlater]
    rfl

/-- **Any pieces can be received.** For any limit and any pieces that receives can give, there is a
run in which a session with this limit receives just these and waits for more. By then it has
dispatched what the stream asks for, whatever the pieces. -/
theorem exists_run_of_pieces (limit : Nat) {ps : List Bytes}
    (hps : ∀ p ∈ ps, p ≠ [] ∧ p.length ≤ Transport.receiveLimit) (hnew : start.sessions = [])
    (hheld : start.held = false) (hcancelled : start.cancelled = false) (hqueue : start.queue = []) :
    ∃ notes s x, Run start notes s ∧ s.sessions[0]? = some x ∧ x.limit = limit ∧
      x.phase = .receiving ∧ pieces (deedsOf 0 notes) = ps ∧
      Session.requests (deedsOf 0 notes) =
        (Session.accepted limit ps.flatten).map Request.ofLine ∧
      Session.aborts (deedsOf 0 notes) = Session.overlong limit ps.flatten := by
  have hstart : Undisturbed 0 (start.handle (.connect limit)) { limit } := by
    refine ⟨?_, hcancelled, hheld, hqueue, rfl, rfl, List.not_mem_nil, rfl, rfl⟩
    change (start.sessions ++ [({ limit } : Session)])[0]? = _
    rw [hnew]
    rfl
  obtain ⟨notes, s, x, hlater, hx, hphase, hlimit, hpieces⟩ := hstart.receives rfl hps
  have hrun := (run_of_event start (.connect limit)).trans hlater
  have hsame : pieces (deedsOf 0 (start.noted (.event (.connect limit)) ++ notes)) = ps := by
    rw [deedsOf_append, deedsOf_noted_event, List.nil_append, hpieces]
  obtain ⟨_, hpast⟩ := hrun.past hnew hx.find
  obtain ⟨_, _, hframed⟩ := hpast.framed
  obtain ⟨hrequests, haborts⟩ := hframed.quiescent (.inl hphase)
  rw [hlimit, received] at hrequests haborts
  refine ⟨_, s, x, hrun, hx.find, hlimit, hphase, hsame, ?_, ?_⟩
  · rw [hrequests, ← hsame]
    rfl
  · rw [haborts, ← hsame]
    rfl

end CommandLog.Service
