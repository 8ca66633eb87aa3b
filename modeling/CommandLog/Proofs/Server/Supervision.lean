import CommandLog.Proofs.Server.History

/-!
# No session is leaked

Reports of completion come in one by one, and the supervisor collects whomever it finds reported. So
one report can stand for many sessions, and the session of a report may be gone by the time that the
supervisor takes notice of it. Nobody is overlooked all the same: whoever is still registered when
the supervisor has nothing to do has not reported.

* `CommandLog.Server.known` – the sessions whose reports the supervisor has taken notice of;
* `CommandLog.Server.Stage.Upkeep` – **what each stage has seen to**, kept by every move
  (`CommandLog.Server.Upkeep.act`);
* `CommandLog.Server.Supervised.registered_eq` – with no report left to take notice of, the
  registered sessions are those that have not reported;
* `CommandLog.Server.Supervised.departs_of_awaited` – **a collection waits for nobody who waits**;
* `CommandLog.Server.Run.leaks_nothing` – both of these in every run, and what is left at its end.

The argument goes around the loop of the supervisor once. It takes notice of a report before it
looks for complete sessions, and a report comes in only after its session is marked. So what it
looks for includes whatever it knows of, and by the end of the collection that is gone.
-/

namespace CommandLog.Server

open Service (Note Steady)

variable {start s s' : Server} {notes : List Note} {id : SessionId} {c : Registry.Collection}

/-! ### What each stage has seen to -/

/-- The sessions whose reports the supervisor has taken notice of. -/
def known (s : Server) : List SessionId :=
  s.service.registry.arrived.take s.noticed

/-- **What a stage has seen to**, with the sessions that are registered and those whose reports were
taken notice of, and the number of sessions as it was published for the server and in the metrics.
Only the second of the two is up to date before a collection, and none is during one that has found
somebody. -/
def Stage.Upkeep (registered known : List SessionId) (published gauge : Nat) : Stage → Prop
  | .serving =>
    (∀ id ∈ known, id ∉ registered) ∧ published = registered.length ∧ gauge = registered.length
  | .collecting => gauge = registered.length
  | .awaiting c =>
    (∀ id ∈ known, id ∈ registered → id ∈ c.left) ∧
      (c.found = 0 → c.left = [] ∧ gauge = registered.length)
  | .draining => True
  | .joining | .closing | .stopped _ => registered = [] ∧ published = 0 ∧ gauge = 0

/-- **A server that is kept up**, whatever its stage. -/
structure Upkeep (s : Server) : Prop where
  /-- Only reports that have come in are taken notice of. -/
  noticed : s.noticed ≤ s.service.registry.arrived.length
  /-- The stage has seen to what it has to. -/
  stage : s.stage.Upkeep s.service.registry.registered s.known s.published
    s.service.host.metrics.sessionsActive

theorem upkeep_start {settings : Settings} {listening : Except Fault Unit} {engine : Engine}
    {host : Host} {epoch : Nat} (h : Server.start settings listening engine host epoch = .ok s)
    (hgauge : host.metrics.sessionsActive = 0) : Upkeep s := by
  rw [eq_of_start h]
  exact ⟨Nat.le_refl _, fun _ _ => List.not_mem_nil, rfl, hgauge⟩

/-- Moves that start and collect nobody. -/
theorem Upkeep.steady {service : Service} (h : s.Upkeep) (hsteady : Steady s.service service) :
    Upkeep { s with service } where
  noticed := by
    rw [hsteady.arrived]
    exact h.noticed
  stage := by
    rw [known, hsteady.arrived, hsteady.registered, hsteady.gauge]
    exact h.stage

/-- A report that comes in is not taken notice of at once. -/
theorem Upkeep.arrive (h : s.Upkeep) (id : SessionId) :
    Upkeep { s with service := { s.service with registry := s.service.registry.arrive id } } := by
  unfold Registry.arrive
  split
  · refine ⟨?_, ?_⟩
    · exact Nat.le_trans h.noticed (List.length_append ▸ Nat.le_add_right ..)
    · rw [known, List.take_append_of_le_length h.noticed]
      exact h.stage
  · exact ⟨h.noticed, h.stage⟩

/-- **Each stage hands over** to the next what that needs. -/
theorem Upkeep.own (h : s.Upkeep) (hsupervised : Supervised s) (hown : s.Own s') : s'.Upkeep := by
  have hstage := h.stage
  cases hown with
  | down => exact ⟨h.noticed, trivial⟩
  | notice hserving _ hpending =>
    rw [hserving] at hstage
    exact ⟨Nat.add_one_le_iff.mpr (Nat.lt_of_sub_ne_zero hpending), hstage.2.2⟩
  | survey hcollecting =>
    rw [hcollecting] at hstage
    refine ⟨h.noticed, fun id hknown hregistered => ?_, fun hnone => ?_⟩
    · -- whoever is known of is reported, and so it is found
      have hreported := hsupervised.accounts.arrived id (List.mem_of_mem_take hknown)
      exact List.mem_filter.mpr ⟨hregistered, decide_eq_true hreported⟩
    · exact ⟨List.length_eq_zero_iff.mp hnone, hstage⟩
  | @collect c c' id hawaiting hleft hfound =>
    rw [hawaiting] at hstage
    obtain ⟨hfinds, hnone⟩ := hstage
    refine ⟨h.noticed, fun id' hknown hregistered => ?_, fun hzero => ?_⟩
    · obtain ⟨hregistered, hne⟩ := List.mem_filter.mp hregistered
      have hmem := hfinds id' hknown hregistered
      rw [hleft] at hmem
      exact (List.mem_cons.mp hmem).resolve_left (by simpa using hne)
    · -- with nobody found there would be nobody to collect
      rw [(hnone (hfound ▸ hzero)).1] at hleft
      cases hleft
  | @conclude c hawaiting hleft =>
    rw [hawaiting] at hstage
    obtain ⟨hfinds, hnone⟩ := hstage
    refine ⟨h.noticed, fun id hknown hregistered => ?_, rfl, ?_⟩
    · have hmem := hfinds id hknown hregistered
      rw [hleft] at hmem
      exact absurd hmem List.not_mem_nil
    · change (s.service.registry.conclude c s.service.host.metrics).sessionsActive = _
      rw [Registry.conclude]
      split
      · next hzero => exact (hnone hzero).2
      · rfl
  | drain _ hdrain =>
    obtain ⟨-, rfl, rfl⟩ := Registry.drain_eq_true_iff.mp hdrain
    exact ⟨h.noticed, rfl, rfl, rfl⟩
  | join hjoining =>
    rw [hjoining] at hstage
    exact ⟨h.noticed, hstage⟩
  | close hclosing _ _ hclose =>
    have hmetrics := Engine.metrics_close s.service.engine s.settings.purgesJournal s.service.host
    rw [hclose] at hmetrics
    rw [hclosing, ← hmetrics] at hstage
    exact ⟨h.noticed, hstage⟩

/-- **Every move keeps the server up.** -/
theorem Upkeep.act (h : s.Upkeep) (hsupervised : Supervised s) (hact : s.Act notes s') :
    s'.Upkeep := by
  cases hact with
  | accept => exact ⟨h.noticed, rfl⟩
  | acceptFails hserving =>
    have hstage := h.stage
    rw [hserving] at hstage
    exact ⟨h.noticed, hstage.2.2⟩
  | own hown => exact h.own hsupervised hown
  | arrive => exact h.arrive _
  | finish => exact ⟨h.noticed, h.stage⟩
  | actor hstep => exact h.steady (Service.steady_of_step? hstep)
  | event e houtside => exact h.steady (Service.steady_of_event houtside)
  | crash id hid => exact h.steady (Service.steady_crash hid)

theorem Run.upkeep (hstart : Upkeep start) (hsupervised : Supervised start)
    (hrun : Run start notes s) : s.Upkeep := by
  induction hrun with
  | refl => exact hstart
  | move hrun hact ih => exact ih.act (hrun.supervised hsupervised) hact

/-! ### Nobody is overlooked -/

/-- **With no report left to take notice of**, the registered sessions are those that have not
reported. -/
theorem Supervised.registered_eq (h : Supervised s) (hupkeep : s.Upkeep)
    (hserving : s.stage = .serving) (hpending : s.pending = 0) :
    s.service.registry.registered =
      (List.range s.service.sessions.length).filter (· ∉ s.service.registry.arrived) := by
  have hknown : s.known = s.service.registry.arrived :=
    List.take_of_length_le (Nat.le_of_sub_eq_zero hpending)
  have hstage := hupkeep.stage
  rw [hserving, hknown] at hstage
  rw [h.accounts.registered, h.spawned]
  refine List.filter_congr fun id hid => ?_
  rw [List.mem_range, ← h.spawned] at hid
  rw [decide_eq_decide]
  constructor
  · exact fun hregistered harrived => hstage.1 id harrived hregistered
  · intro hnew
    -- whoever is not registered has ended, and not before its report had come in
    exact not_not.mp fun hnot => hnew (h.accounts.gone id hid (h.accounts.collected id hid hnot))

/-- **A collection waits for nobody who waits.** Whoever is about to be collected has ended, and its
task is over or is about to be. -/
theorem Supervised.departs_of_awaited (h : Supervised s) (hawaiting : s.stage = .awaiting c)
    (hid : id ∈ c.left) :
    (∃ x, s.service.sessions[id]? = some x ∧ x.phase = .ended) ∧
      (id ∈ s.finished ∨ ∃ s', s.signOff? id = some s') := by
  have hreported := h.awaited c hawaiting id hid
  refine ⟨Option.map_eq_some_iff.mp ((h.signed id).mp hreported), ?_⟩
  by_cases harrived : id ∈ s.service.registry.arrived
  · by_cases hfinished : id ∈ s.finished
    · exact .inl hfinished
    · exact .inr ⟨_, signOff?_eq_some_iff.mpr ⟨hreported, .inr ⟨harrived, hfinished, rfl⟩⟩⟩
  · exact .inr ⟨_, signOff?_eq_some_iff.mpr ⟨hreported, .inl ⟨harrived, rfl⟩⟩⟩

/-- A collection goes on with whomever is next, once its task is over. -/
theorem isSome_advance?_of_finished {left : List SessionId} (hawaiting : s.stage = .awaiting c)
    (hleft : c.left = id :: left) (hfinished : id ∈ s.finished) : s.advance?.isSome = true := by
  have hown := @Own.collect s c { c with left } id hawaiting hleft rfl hfinished
  rw [advance?_of_own hown]
  rfl

/-- **The supervisor leaks no session.** A server is started, and anything happens in any order.
Then

* whenever the supervisor waits and no report is left to take notice of, the registered sessions
  are just those that were accepted and have not reported, and their number is the one that is
  published, for the server and in the metrics;
* whoever a collection has still to wait for has ended, so he waits neither for his peer nor for
  the lock nor for a write, and his task is over or has a step by itself; when the task of the next
  one is over the collection goes on;
* when the server has stopped no session is registered, and it has published that. -/
theorem Run.leaks_nothing {settings : Settings} {listening : Except Fault Unit} {engine : Engine}
    {host : Host} {epoch : Nat}
    (hstart : Server.start settings listening engine host epoch = .ok start)
    (hgauge : host.metrics.sessionsActive = 0) (hrun : Run start notes s) :
    (s.stage = .serving → s.pending = 0 →
      s.service.registry.registered =
        (List.range s.service.sessions.length).filter (· ∉ s.service.registry.arrived) ∧
      s.published = s.service.registry.size ∧
      s.service.host.metrics.sessionsActive = s.service.registry.size) ∧
    (∀ c, s.stage = .awaiting c →
      (∀ id ∈ c.left, (∃ x, s.service.sessions[id]? = some x ∧ x.phase = .ended) ∧
        (id ∈ s.finished ∨ ∃ s', s.signOff? id = some s')) ∧
      ∀ id left, c.left = id :: left → id ∈ s.finished → s.advance?.isSome = true) ∧
    ∀ result, s.stage = .stopped result →
      s.service.registry.registered = [] ∧ s.published = 0 ∧
        s.service.host.metrics.sessionsActive = 0 := by
  have hsupervised := supervised_start hstart
  have hs := hrun.supervised hsupervised
  have hupkeep := hrun.upkeep (upkeep_start hstart hgauge) hsupervised
  refine ⟨?_, ?_, ?_⟩
  · intro hserving hpending
    have hstage := hupkeep.stage
    rw [hserving] at hstage
    exact ⟨hs.registered_eq hupkeep hserving hpending, hstage.2⟩
  · intro c hawaiting
    exact ⟨fun id hid => hs.departs_of_awaited hawaiting hid,
      fun id left hleft => isSome_advance?_of_finished hawaiting hleft⟩
  · intro result hstopped
    have hstage := hupkeep.stage
    rwa [hstopped] at hstage

/-- Settings that ask for no timestamps. -/
def withoutTimestamps : Settings :=
  { Settings.standard with timestampInterval := none }

/-- **A report that comes late**: a session fails before the supervisor has come back from accepting
it, so it is collected before its report is taken notice of. Then another connection is accepted. -/
theorem exists_run_of_lateReport :
    ∃ start s, Server.start withoutTimestamps (.ok ()) .inMemory {} 0 = .ok start ∧
      Run start [] s ∧ s.stage = .serving ∧ s.pending = 0 ∧ s.service.sessions.length = 2 ∧
      s.service.registry.arrived = [0] := by
  have hstart :
      Run { settings := withoutTimestamps, service := { engine := .inMemory, host := {} } } [] _ :=
    .refl
  have hfailed := (hstart.quiet (.accept rfl rfl rfl)).quiet (.crash 0 Nat.one_pos)
  have hawaiting := hfailed.quiet (.own (.survey rfl))
  -- the collection waits until the report has come in and the task is over
  have hreported : (0 : SessionId) ∈ [0] := List.mem_cons_self
  have hover := (hawaiting.quiet (.arrive hreported List.not_mem_nil)).quiet
    (.finish hreported hreported List.not_mem_nil)
  have hcollected := hover.quiet (.own (@Own.collect _ _ ⟨1, []⟩ 0 rfl rfl rfl hreported))
  have hserving := hcollected.quiet (.own (.conclude rfl rfl))
  -- nobody is left when the supervisor takes notice of the report
  have hnoticed := ((hserving.quiet (.own (.notice rfl rfl Nat.one_ne_zero))).quiet
    (.own (.survey rfl))).quiet (.own (.conclude rfl rfl))
  have haccepted := ((hnoticed.quiet (.accept rfl rfl rfl)).quiet (.own (.survey rfl))).quiet
    (.own (.conclude rfl rfl))
  exact ⟨_, _, rfl, haccepted, rfl, rfl, rfl, rfl⟩

/-- Only the second session is registered. -/
theorem leaks_nothing_of_lateReport :
    ∃ start s, Server.start withoutTimestamps (.ok ()) .inMemory {} 0 = .ok start ∧
      Run start [] s ∧ s.stage = .serving ∧ s.pending = 0 ∧
      s.service.registry.registered = [1] ∧ s.published = 1 ∧
      s.service.host.metrics.sessionsActive = 1 := by
  obtain ⟨start, s, hstart, hrun, hserving, hpending, hlength, harrived⟩ := exists_run_of_lateReport
  obtain ⟨hwaiting, -⟩ := Run.leaks_nothing hstart rfl hrun
  obtain ⟨hregistered, hpublished, hgauge⟩ := hwaiting hserving hpending
  rw [hlength, harrived] at hregistered
  have hone : s.service.registry.registered = [1] := hregistered.trans (by decide)
  rw [Registry.size, hone] at hpublished hgauge
  exact ⟨start, s, hstart, hrun, hserving, hpending, hone, hpublished, hgauge⟩

end CommandLog.Server
