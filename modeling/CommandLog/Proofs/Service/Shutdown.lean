import CommandLog.Proofs.Service.Lock

/-!
# Shutdown

Once shutdown was requested, every session comes to its end: it carries out what it owes, sends the
answers, shuts its transport down and reports its completion, all of this once and in this order.

* `CommandLog.Service.Run.steps` – **a session goes on in the rest of a run**, with what is noted
  about it, which `CommandLog.Service.Run.goes_on` adds to its past;
* `CommandLog.Service.Run.no_receive` – after the request nobody receives anything any more;
* `CommandLog.Service.Run.reported_eq` – the registry has as many reports of a session as the
  session has made;
* `CommandLog.Service.Run.shutdown` – **the whole protocol**, for every session in every run.

The events after the request may be any events at all. Only to reach the end takes more: nobody
outside may hold the lock, since a request that waits for it would wait forever.
-/

namespace CommandLog

/-- **A session reports its completion by its last step**, and at no other time. -/
theorem Session.Act.completed_iff {cancelled : Bool} {x x' : Session} {e : Session.Effect}
    {ds : List Session.Deed} (hact : x.Act cancelled e ds x') :
    ds.count .completed = (if e = .completed then 1 else 0) ∧
      (e = .completed → x.phase = .signingOff) := by
  cases hact with
  | signOff hphase => exact ⟨rfl, fun _ => hphase⟩
  | _ => exact ⟨rfl, nofun⟩

namespace Service

open Session (CutOff Deed)
open Bytes (IsLine)

variable {start s s' : Service} {notes notes' : List Note} {id : SessionId} {x x' : Session}
  {limit : Nat} {ds : List Deed}

/-! ### Sessions that go on -/

/-- A session is still there after a move, with one more step or as it was. -/
theorem goes_on_of_act {y : Session} (hact : s.Act notes s') (hy : s.sessions[id]? = some y)
    (hsteps : Session.Steps x ds y) :
    ∃ y', s'.sessions[id]? = some y' ∧ Session.Steps x (ds ++ deedsOf id notes) y' := by
  have hlt : id < s.sessions.length := (List.getElem?_eq_some_iff.mp hy).1
  have hlt' := Nat.lt_of_lt_of_le hlt (length_sessions_le_of_act hact)
  refine ⟨s'.sessions[id], List.getElem?_eq_getElem hlt', ?_⟩
  cases turn_of_act hact (List.getElem?_eq_getElem hlt') with
  | step hy' hstep =>
    rw [hy] at hy'
    cases hy'
    exact hsteps.step hstep
  | start hid => exact absurd hlt (Nat.not_lt.mpr (Nat.le_of_eq hid.symm))
  | rest hy' hds =>
    rw [hy] at hy'
    rw [← Option.some.inj hy', hds, List.append_nil]
    exact hsteps

/-- **A session goes on in the rest of a run.** -/
theorem Run.steps (hrun : Run s notes s') (hx : s.sessions[id]? = some x) :
    ∃ x', s'.sessions[id]? = some x' ∧ Session.Steps x (deedsOf id notes) x' := by
  induction hrun with
  | refl => exact ⟨x, hx, .refl⟩
  | move _ c hnext ih =>
    obtain ⟨y, hy, hsteps⟩ := ih
    rw [deedsOf_append]
    exact goes_on_of_act (act_of_next? hnext) hy hsteps

theorem Run.goes_on (hrun : Run s notes s') (hx : s.sessions[id]? = some x)
    (hpast : Session.Past limit ds x) :
    ∃ x', s'.sessions[id]? = some x' ∧ Session.Past limit (ds ++ deedsOf id notes) x' := by
  obtain ⟨x', hx', hsteps⟩ := hrun.steps hx
  exact ⟨x', hx', hpast.trans hsteps⟩

/-! ### No receive after the request -/

/-- A request for shutdown is not taken back. -/
theorem cancelled_of_act (hact : s.Act notes s') (hcancelled : s.cancelled = true) :
    s'.cancelled = true := by
  cases hact with
  | event e =>
    cases e with
    | append payload =>
      simp only [handle]
      split <;> exact hcancelled
    | cancel => rfl
    | connect | deliver | endInput | breakOutput | allow | hold | release | reap | annotate
    | tick => exact hcancelled
  | @session _ _ _ e => cases e <;> exact hcancelled
  | serve | annotate | wake => exact hcancelled

theorem no_receive_of_act (id : SessionId) (hact : s.Act notes s')
    (hcancelled : s.cancelled = true) :
    (∀ piece, .received piece ∉ deedsOf id notes) ∧ .inputEnded ∉ deedsOf id notes := by
  cases hact with
  | event e => simp [deedsOf_noted_event]
  | @serve id' =>
    rw [← List.map_singleton, deedsOf_map_session]
    split <;> simp
  | @session id' x =>
    rw [deedsOf_map_session, hcancelled]
    split
    · exact x.received_notMem_deeds
    · simp
  | annotate | wake => simp [deedsOf]

/-- **Nobody receives anything** once shutdown was requested. -/
theorem Run.no_receive (hrun : Run s notes s') (id : SessionId)
    (hcancelled : s.cancelled = true) :
    s'.cancelled = true ∧ (∀ piece, .received piece ∉ deedsOf id notes) ∧
      .inputEnded ∉ deedsOf id notes := by
  induction hrun with
  | refl => simp [hcancelled]
  | move _ c hnext ih =>
    obtain ⟨hcancelled', hpieces, hended⟩ := ih
    have hact := act_of_next? hnext
    obtain ⟨hpieces', hended'⟩ := no_receive_of_act id hact hcancelled'
    refine ⟨cancelled_of_act hact hcancelled', fun piece => ?_, ?_⟩
    · rw [deedsOf_append, List.mem_append, not_or]
      exact ⟨hpieces piece, hpieces' piece⟩
    · rw [deedsOf_append, List.mem_append, not_or]
      exact ⟨hended, hended'⟩

theorem received_eq_nil (h : ∀ piece, .received piece ∉ ds) : Session.received ds = [] := by
  rw [Session.received, List.flatten_eq_nil_iff]
  intro piece hpiece
  obtain ⟨deed, hdeed, hsome⟩ := List.mem_filterMap.mp hpiece
  cases deed with
  | received piece' => exact absurd hdeed (h piece')
  | _ => cases hsome

/-! ### Reports of completion -/

/-- What happens outside reports nobody's completion. -/
theorem reported_handle (s : Service) (e : Event) :
    (s.handle e).registry.reported = s.registry.reported := by
  cases e with
  | append payload =>
    simp only [handle]
    split <;> rfl
  | reap =>
    simp only [handle, reap, Registry.reap]
    split <;> rfl
  | _ => rfl

theorem registry_absorb (s : Service) (id : SessionId) (e : Session.Effect) :
    (s.absorb id e).registry = if e = .completed then s.registry.complete id else s.registry := by
  cases e <;> rfl

/-- A report that is the first one of its session is one more. -/
theorem count_complete (r : Registry) (id' : SessionId) (hfirst : id' = id → id ∉ r.reported) :
    (r.complete id').reported.count id = r.reported.count id + if id' = id then 1 else 0 := by
  unfold Registry.complete
  split
  · next hmem =>
    rw [if_neg, Nat.add_zero]
    intro heq
    exact hfirst heq (heq ▸ hmem)
  · rw [List.count_append, List.count_singleton]
    simp

theorem reported_of_act (hact : s.Act notes s')
    (hfirst : ∀ x, s.sessions[id]? = some x → x.phase = .signingOff →
      id ∉ s.registry.reported) :
    s'.registry.reported.count id =
      s.registry.reported.count id + (deedsOf id notes).count .completed := by
  cases hact with
  | event e => rw [reported_handle, deedsOf_noted_event, List.count_nil, Nat.add_zero]
  | @serve id' =>
    rw [← List.map_singleton, deedsOf_map_session]
    split <;> rfl
  | @session id' x x' e hx hadvance =>
    obtain ⟨hcount, hphase⟩ := (Session.act_of_advance? hadvance).completed_iff
    rw [registry_absorb, deedsOf_map_session]
    by_cases heffect : e = .completed
    · rw [if_pos heffect, count_complete]
      · split
        · rw [hcount, if_pos heffect]
          rfl
        · rfl
      · rintro rfl
        exact hfirst x hx (hphase heffect)
    · rw [if_neg heffect]
      split
      · rw [hcount, if_neg heffect]
        rfl
      · rfl
  | annotate | wake => rfl

/-- **The registry has the reports that the session has made.** -/
theorem Run.reported_eq (hfresh : Fresh start) (hrun : Run start notes s) (id : SessionId) :
    s.registry.reported.count id = (deedsOf id notes).count .completed := by
  induction hrun with
  | refl => rw [hfresh.reported]; rfl
  | move hrun c hnext ih =>
    rw [deedsOf_append, List.count_append, ← ih]
    refine reported_of_act (act_of_next? hnext) fun x hx hphase => ?_
    -- a session that is about to report has not done so before
    obtain ⟨limit, hpast⟩ := hrun.past hfresh.sessions hx
    rw [← List.count_eq_zero, ih, hpast.endsOnce.count_completed, hphase]
    rfl

/-! ### The whole protocol -/

/-- **Shutdown.** In every run, requested or not, a session shuts its transport down and reports
its completion once at most, in this order and behind everything else that it does; one that has
ended has done both, and a completion that is reported again counts for nothing. It leaves with
everything done, or because its peer has cut it off.

Once shutdown was requested and nobody outside holds the lock, every order of steps comes to an
end, and as long as the session has not ended there is one more step. Whatever happens meanwhile,
the session receives nothing any more. It carries out what it owed, in order and as far as it comes:
the request that it had made and the complete lines that it held. Of these it leaves out some only
if it is cut off, and then the answer at which it was is the only one that is not sent whole. It
carries out nothing but complete lines. -/
theorem Run.shutdown (hfresh : Fresh start) (hrun : Run start notes s)
    (hx : s.sessions[id]? = some x) :
    (∃ before, deedsOf id notes = before ++ x.phase.finale ∧
      .shutDown ∉ before ∧ .completed ∉ before) ∧
    x.transport.shutdowns = (deedsOf id notes).count .shutDown ∧
    s.registry.reported.count id = (deedsOf id notes).count .completed ∧
    (x.phase = .ended → s.registry.complete id = s.registry) ∧
    (x.phase.isOver = true → Session.Finished x.limit (deedsOf id notes) x) ∧
    (s.cancelled = true →
      (s.held = false → ∀ n s', Alone s n s' → n ≤ s.work ∧
        ((∃ a, (s'.step? a).isSome = true) ∨
          ∃ x', s'.sessions[id]? = some x' ∧ x'.phase = .ended)) ∧
      ∀ notes' s', Run s notes' s' → ∃ x', s'.sessions[id]? = some x' ∧
        (∀ piece, .received piece ∉ deedsOf id notes') ∧ .inputEnded ∉ deedsOf id notes' ∧
        Session.requests (deedsOf id notes') <+: x.owed ∧
        (∀ r ∈ Session.requests (deedsOf id notes'), ∃ l, IsLine l ∧ l.length ≤ x.limit ∧
          r = .ofLine l) ∧
        (x'.phase.isOver = true →
          Session.requests (deedsOf id notes') = x.owed ∧
              x'.transport.output = (Session.replies (deedsOf id (notes ++ notes'))).flatten ∨
            CutOff x.limit (deedsOf id (notes ++ notes')) x')) := by
  obtain ⟨limit, hpast⟩ := hrun.past hfresh.sessions hx
  obtain rfl := hpast.limit_eq
  have honce := hpast.endsOnce
  have hreported := hrun.reported_eq hfresh id
  refine ⟨honce.finale, honce.shutdowns, hreported, fun hended => ?_,
    fun hover => hpast.cases_of_over hover, fun hcancelled => ⟨fun hheld n s' halone => ?_,
      fun notes' s' hlater => ?_⟩⟩
  · rw [honce.count_completed, if_pos hended] at hreported
    have hmem : id ∈ s.registry.reported := by
      rw [← List.count_pos_iff, hreported]
      exact Nat.one_pos
    rw [Registry.complete, if_pos hmem]
  · refine ⟨Nat.le_trans (Nat.le_add_right n _) halone.length_add_work_le, ?_⟩
    obtain ⟨notes', hlater⟩ := halone.run
    obtain ⟨x', hx', -⟩ := hlater.goes_on hx hpast
    by_cases hrest : ∃ a, (s'.step? a).isSome = true
    · exact .inl hrest
    · have hlined := (hrun.trans hlater).lined hfresh.lined
      have hnone : ∀ a, s'.step? a = none := by
        intro a
        rw [← Option.not_isSome_iff_eq_none]
        exact fun ha => hrest ⟨a, ha⟩
      obtain ⟨hended, -⟩ := hlined.ended_of_rest (hlater.no_receive id hcancelled).1
        (halone.held_eq.trans hheld) hnone
      exact .inr ⟨x', hx', hended id x' hx'⟩
  · obtain ⟨x', hx', hpast'⟩ := hlater.goes_on hx hpast
    obtain ⟨-, hpieces, hinput⟩ := hlater.no_receive id hcancelled
    obtain ⟨hfront, hall⟩ := hpast.requests_later hpast' (received_eq_nil hpieces)
    refine ⟨x', hx', hpieces, hinput, hfront, fun r hr => ?_, ?_⟩
    · refine hpast'.isLine_of_mem_requests ?_
      rw [Session.requests_append]
      exact List.mem_append_right _ hr
    · rw [deedsOf_append]
      exact hall

/-- A session gets one line and the beginning of another, and has made a request when shutdown is
requested. -/
def lastRequest : List Choice :=
  [.event (.connect 4), .event (.deliver 0 [0x61, 0x0a, 0x62])] ++
    List.replicate 3 (.actor (.session 0)) ++ [.event .cancel]

/-- The request is carried out, and the beginning of the other line is not. -/
theorem shutdown_of_lastRequest :
    ∃ notes s notes' s', Fresh { engine := .inMemory, host := {} } ∧
      Run { engine := .inMemory, host := {} } notes s ∧ s.cancelled = true ∧ Run s notes' s' ∧
      s'.sessions[0]?.any (fun x' => x'.phase = .ended) = true ∧
      (∀ piece, .received piece ∉ deedsOf 0 notes') ∧
      Session.requests (deedsOf 0 notes') <+: [.append [0x61, 0x0a]] ∧
      Session.requests (deedsOf 0 notes') ≠ [] := by
  have hfresh : Fresh { engine := .inMemory, host := {} } := ⟨rfl, rfl, rfl, rfl⟩
  have hrun := Run.play (.refl : Run { engine := .inMemory, host := {} } [] _) lastRequest
  have hcancelled : (play { engine := .inMemory, host := {} } lastRequest).2.cancelled = true := by
    decide +kernel
  have howed : (play { engine := .inMemory, host := {} } lastRequest).2.sessions[0]?.map
      Session.owed = some [.append [0x61, 0x0a]] := by decide +kernel
  obtain ⟨x, hx, hx'⟩ := Option.map_eq_some_iff.mp howed
  have hlater := Run.play
    (.refl : Run _ [] (play { engine := .inMemory, host := {} } lastRequest).2)
    (List.replicate 9 (.actor (.session 0)))
  obtain ⟨-, -, -, -, -, hprotocol⟩ := Run.shutdown hfresh hrun hx
  obtain ⟨x', -, hpieces, -, hfront, -⟩ := (hprotocol hcancelled).2 _ _ hlater
  rw [hx'] at hfront
  exact ⟨_, _, _, _, hfresh, hrun, hcancelled, hlater, by decide +kernel, hpieces, hfront,
    by decide +kernel⟩

end Service

end CommandLog
