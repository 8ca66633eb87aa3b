import CommandLog.Proofs.Server.History

/-!
# A server that is asked to stop stops

Once shutdown was requested, everybody comes to an end, then the tasks of the sessions and then the
supervisor, in whatever order steps are taken, unless someone outside holds the lock.

* `CommandLog.Server.Alone` – some steps one after the other, while nothing happens outside, and
  `CommandLog.Server.Alone.length_add_bound_le`, which bounds their number;
* `CommandLog.Server.Run.lined` – **the queue holds just those who wait for the lock**, in every run
  of a server;
* `CommandLog.Server.exists_step_of_going` – **as long as the server has not stopped somebody has a
  step**;
* `CommandLog.Server.Run.stops` – every order of steps comes to an end, and the end is that the
  server has stopped.

A stage of the supervisor waits for nobody who waits for the supervisor: sessions and annotators get
the lock before it does, and none of them needs to be collected in order to go on.
-/

namespace CommandLog

/-! ### The queue -/

namespace Service

variable {s s' : Service}

/-- A session whose task fails gives up its turn. -/
theorem waits_crash (s : Service) (id : SessionId) (a : Actor) :
    (Server.crash s id).Waits a ↔ s.Waits a ∧ a ≠ .session id := by
  cases a with
  | annotator index => exact (and_iff_left nofun).symm
  | session id' =>
    simp only [Waits, Server.crash, List.getElem?_modify, Option.map_eq_map, Option.map_map]
    by_cases heq : id = id'
    · subst heq
      simp
    · simp [heq, Ne.symm heq]

theorem Lined.crash (h : Lined s) (id : SessionId) : Lined (Server.crash s id) where
  nodup := h.nodup.filter _
  mem_iff a := by
    rw [waits_crash, ← h.mem_iff]
    simp [Server.crash]

end Service

namespace Server

open Service (Lined Note)

variable {start s s' : Server} {notes : List Note} {n : Nat}

/-- The supervisor leaves everybody where he is. -/
theorem frame_of_own (hown : s.Own s') :
    s'.service.sessions = s.service.sessions ∧ s'.service.annotators = s.service.annotators ∧
      s'.service.queue = s.service.queue ∧ s'.service.clock = s.service.clock ∧
      s'.service.cancelled = s.service.cancelled ∧ s'.service.held = s.service.held := by
  cases hown <;> exact ⟨rfl, rfl, rfl, rfl, rfl, rfl⟩

/-- Nor does it make reports, or take them back. -/
theorem reports_of_own (hown : s.Own s') :
    s'.service.registry.reported = s.service.registry.reported ∧
      s'.service.registry.arrived = s.service.registry.arrived ∧ s'.finished = s.finished := by
  cases hown with
  | down | notice | survey | collect | conclude | join | close => exact ⟨rfl, rfl, rfl⟩
  | drain hstage hdrain =>
    obtain ⟨-, rfl, -⟩ := Registry.drain_eq_true_iff.mp hdrain
    exact ⟨rfl, rfl, rfl⟩

/-- **Every move keeps the queue.** -/
theorem lined_of_act (h : s.service.Lined) (hact : s.Act notes s') : s'.service.Lined := by
  cases hact with
  | accept => exact h.act (.event (.connect s.settings.maxCommandBytes))
  | acceptFails | finish => exact h
  | arrive => exact h.stay rfl (Service.waits_of_same rfl rfl)
  | own hown =>
    obtain ⟨hsessions, hannotators, hqueue, -⟩ := frame_of_own hown
    exact h.stay hqueue (Service.waits_of_same hsessions hannotators)
  | actor hstep => exact h.act (Service.act_of_step? hstep)
  | event e => exact h.act (.event e)
  | crash id => exact h.crash id

theorem lined_start {settings : Settings} {listening : Except Fault Unit} {engine : Engine}
    {host : Host} {epoch : Nat} (h : Server.start settings listening engine host epoch = .ok s) :
    s.service.Lined := by
  rw [eq_of_start h]
  refine ⟨List.nodup_nil, fun a => iff_of_false List.not_mem_nil ?_⟩
  cases a with
  | session id => simp [Service.Waits]
  | annotator index =>
    -- an annotator starts by waiting for its timer
    rintro ⟨deadline, stamp, hqueued⟩
    simp only [List.getElem?_map, Option.map_map, Option.map_eq_some_iff] at hqueued
    obtain ⟨period, -, hphase⟩ := hqueued
    cases hphase

theorem Run.lined (hstart : start.service.Lined) (hrun : Run start notes s) : s.service.Lined := by
  induction hrun with
  | refl => exact hstart
  | move _ hact ih => exact lined_of_act ih hact

/-! ### How long it can take -/

/-- **Some steps one after the other**, while nothing happens outside. -/
inductive Alone (start : Server) : Nat → Server → Prop where
  /-- No step. -/
  | refl : Alone start 0 start
  /-- One step more of the supervisor. -/
  | own {n : Nat} {s s' : Server} (h : Alone start n s) (hown : s.Own s') : Alone start (n + 1) s'
  /-- One step more of a session or an annotator. -/
  | actor {n : Nat} {s : Server} {service : Service} (h : Alone start n s) {a : Actor}
    (hstep : s.service.step? a = some service) : Alone start (n + 1) { s with service }
  /-- One step more of a session's task that comes to its end. -/
  | signOff {n : Nat} {s s' : Server} (h : Alone start n s) {id : SessionId}
    (hstep : s.signOff? id = some s') : Alone start (n + 1) s'

/-- Number of reports that were made and have not come in. -/
def underway (s : Server) : Nat :=
  (s.service.registry.reported.filter (· ∉ s.service.registry.arrived)).length

/-- Number of tasks that have reported and are not over. -/
def leaving (s : Server) : Nat :=
  (s.service.registry.arrived.filter (· ∉ s.finished)).length

/-- **A bound on the steps left**, if nothing happens outside. A step of a session may make a
report, and a report that comes in may make the supervisor look at all sessions again. -/
def bound (s : Server) : Nat :=
  (s.service.registry.size + 5) * (2 * s.service.work + s.underway) + s.leaving + s.work

theorem size_of_own (hown : s.Own s') :
    s'.service.registry.size ≤ s.service.registry.size := by
  cases hown with
  | down | notice | survey | conclude | join | close => exact Nat.le_refl _
  | collect => exact List.length_filter_le ..
  | drain hstage hdrain =>
    obtain ⟨-, rfl, -⟩ := Registry.drain_eq_true_iff.mp hdrain
    exact Nat.zero_le _

theorem bound_own_lt (hown : s.Own s') : s'.bound < s.bound := by
  have hlt := work_advance?_lt (advance?_of_own hown)
  have hsize := size_of_own hown
  obtain ⟨hsessions, hannotators, -, hclock, -⟩ := frame_of_own hown
  obtain ⟨hreported, harrived, hfinished⟩ := reports_of_own hown
  have hwork : s'.service.work = s.service.work := by
    rw [Service.work, Service.work, hsessions, hannotators, hclock]
  -- the registry gets smaller at most, and every look at it shorter
  simp only [bound, underway, leaving, hwork, hreported, harrived, hfinished]
  have hmul := Nat.mul_le_mul_right
    (2 * s.service.work +
      (s.service.registry.reported.filter (· ∉ s.service.registry.arrived)).length)
    (Nat.add_le_add_right hsize 5)
  omega

theorem bound_actor_lt {service : Service} {a : Actor} (hstep : s.service.step? a = some service) :
    bound { s with service } < s.bound := by
  have hlt := Service.step?_work_lt hstep
  have hframe := Service.frame_of_step? hstep
  have hsize : service.registry.size = s.service.registry.size :=
    congrArg List.length hframe.registered
  have hunderway : underway { s with service } ≤ s.underway + 1 := by
    rcases hframe.reported with hsame | ⟨id, hone⟩
    · simp only [underway, hframe.arrived, hsame, Nat.le_add_right]
    · simp only [underway, hframe.arrived, hone, List.filter_append, List.length_append]
      exact Nat.add_le_add_left (List.length_filter_le ..) _
  have hwork : work { s with service } = s.work := by
    simp only [work, pending, hsize, hframe.arrived]
  have hmul := Nat.mul_lt_mul_of_pos_left
    (show 2 * service.work + underway { s with service } < 2 * s.service.work + s.underway by omega)
    (show 0 < s.service.registry.size + 5 from Nat.succ_pos _)
  have hleaving : leaving { s with service } = s.leaving := by
    simp only [leaving, hframe.arrived]
  simp only [bound, hsize, hwork, hleaving]
  omega

/-- Whoever is struck off a list makes what is left shorter. -/
theorem length_filter_notMem_append_lt {l struck : List SessionId} {id : SessionId} (hid : id ∈ l)
    (hnew : id ∉ struck) :
    (l.filter (· ∉ struck ++ [id])).length < (l.filter (· ∉ struck)).length := by
  have hsplit : l.filter (· ∉ struck ++ [id]) = (l.filter (· ∉ struck)).filter (· ≠ id) := by
    rw [List.filter_filter]
    refine List.filter_congr fun id' _ => ?_
    rw [Bool.eq_iff_iff]
    simp [and_comm]
  rw [hsplit, List.length_filter_lt_length_iff_exists]
  exact ⟨id, List.mem_filter.mpr ⟨hid, decide_eq_true hnew⟩, by simp⟩

/-- A report that comes in: one fewer is under way, one task more is leaving, and the supervisor may
look at all sessions once more. -/
theorem bound_arrive_lt {id : SessionId} (hreported : id ∈ s.service.registry.reported)
    (hnew : id ∉ s.service.registry.arrived) :
    bound { s with service := { s.service with registry := s.service.registry.arrive id } } <
      s.bound := by
  have hless := length_filter_notMem_append_lt hreported hnew
  have hsame : s.service.registry.arrive id =
      { s.service.registry with arrived := s.service.registry.arrived ++ [id] } :=
    if_pos ⟨hreported, hnew⟩
  rw [hsame]
  generalize hs' : { s with service := { s.service with registry := _ } } = s'
  have hunderway : s'.underway < s.underway := by
    subst hs'
    exact hless
  have hleaving : s'.leaving ≤ s.leaving + 1 := by
    subst hs'
    simp only [leaving, List.filter_append, List.length_append]
    exact Nat.add_le_add_left (List.length_filter_le ..) _
  have hpending : s'.pending ≤ s.pending + 1 := by
    subst hs'
    simp only [pending, List.length_append, List.length_singleton]
    omega
  have hwork : s'.work ≤ s.work + (s.service.registry.size + 3) := by
    have hmul := Nat.mul_le_mul_left (s.service.registry.size + 3) hpending
    subst hs'
    simp only [work, Registry.size, Nat.mul_succ] at hmul ⊢
    omega
  have hmul := Nat.mul_le_mul_left (s.service.registry.size + 5)
    (show 2 * s'.service.work + s'.underway + 1 ≤ 2 * s.service.work + s.underway by
      subst hs'
      exact Nat.add_lt_add_left hunderway _)
  have hsize : s'.service.registry.size = s.service.registry.size := by
    subst hs'
    rfl
  simp only [bound, hsize, Nat.mul_succ] at hmul ⊢
  omega

theorem bound_signOff_lt {id : SessionId} (h : s.signOff? id = some s') : s'.bound < s.bound := by
  obtain ⟨hreported, ⟨hnew, rfl⟩ | ⟨harrived, hnew, rfl⟩⟩ := signOff?_eq_some_iff.mp h
  · exact bound_arrive_lt hreported hnew
  · have hless := length_filter_notMem_append_lt harrived hnew
    simp only [bound, underway, leaving, work, pending]
    omega

/-- **There are only so many steps**, whoever takes them. -/
theorem Alone.length_add_bound_le (h : Alone start n s) : n + s.bound ≤ start.bound := by
  induction h with
  | refl => exact Nat.le_of_eq (Nat.zero_add _)
  | own _ hown ih =>
    have hlt := bound_own_lt hown
    omega
  | actor _ hstep ih =>
    have hlt := bound_actor_lt hstep
    omega
  | signOff _ hstep ih =>
    have hlt := bound_signOff_lt hstep
    omega

/-- A request for shutdown stands, and nobody takes the lock from outside. -/
theorem Alone.flags (h : Alone start n s) :
    s.service.cancelled = start.service.cancelled ∧ s.service.held = start.service.held := by
  induction h with
  | refl => exact ⟨rfl, rfl⟩
  | own _ hown ih =>
    obtain ⟨-, -, -, -, hcancelled, hheld⟩ := frame_of_own hown
    exact ⟨hcancelled.trans ih.1, hheld.trans ih.2⟩
  | actor _ hstep ih =>
    have hframe := Service.frame_of_step? hstep
    exact ⟨hframe.cancelled.trans ih.1, hframe.held.trans ih.2⟩
  | signOff _ hstep ih =>
    obtain ⟨-, ⟨-, rfl⟩ | ⟨-, -, rfl⟩⟩ := signOff?_eq_some_iff.mp hstep
    · exact ih
    · exact ih

theorem Alone.run (h : Alone start n s) : ∃ notes, Run start notes s := by
  induction h with
  | refl => exact ⟨[], .refl⟩
  | own _ hown ih =>
    obtain ⟨notes, hrun⟩ := ih
    exact ⟨_, hrun.move (.own hown)⟩
  | actor _ hstep ih =>
    obtain ⟨notes, hrun⟩ := ih
    exact ⟨_, hrun.move (.actor hstep)⟩
  | signOff _ hstep ih =>
    obtain ⟨notes, hrun⟩ := ih
    exact ⟨_, hrun.move (act_of_signOff? hstep)⟩

/-! ### How it ends -/

/-- **Nothing keeps the supervisor** when everybody has ended, down to the tasks. -/
theorem exists_own_of_ended (hsupervised : Supervised s) (hcancelled : s.service.cancelled = true)
    (hheld : s.service.held = false) (hqueue : s.service.queue = [])
    (hannotators : ∀ a ∈ s.service.annotators, a.hasEnded = true)
    (hfinished : ∀ id, id < s.service.registry.spawned → id ∈ s.finished)
    (hgoing : ∀ result, s.stage ≠ .stopped result) : ∃ s', s.Own s' := by
  rcases hstage : s.stage with _ | _ | c | _ | _ | _ | result
  · exact ⟨_, .down hstage hcancelled⟩
  · exact ⟨_, .survey hstage⟩
  · rcases hleft : c.left with _ | ⟨id, left⟩
    · exact ⟨_, .conclude hstage hleft⟩
    · have hreported := hsupervised.awaited c hstage id (hleft ▸ List.mem_cons_self)
      have hdone := hfinished id (hsupervised.accounts.reported id hreported)
      exact ⟨_, @Own.collect s c { c with left } id hstage hleft rfl hdone⟩
  · have hall : s.service.registry.registered.all s.hasFinished = true :=
      List.all_eq_true.mpr fun id hid =>
        decide_eq_true (hfinished id (hsupervised.accounts.lt_of_mem hid))
    exact ⟨_, .drain hstage (by rw [Registry.drain, if_pos hall])⟩
  · exact ⟨_, .join hstage hannotators⟩
  · exact ⟨_, .close hstage hheld hqueue rfl⟩
  · exact absurd hstage (hgoing result)

/-- **Somebody has a step** as long as a server that is asked to stop has not stopped: a session or
an annotator that has not ended, or else the task of a session, or else the supervisor. -/
theorem exists_step_of_going (hsupervised : Supervised s) (hlined : s.service.Lined)
    (hcancelled : s.service.cancelled = true) (hheld : s.service.held = false)
    (hgoing : ∀ result, s.stage ≠ .stopped result) :
    (∃ a service, s.service.step? a = some service) ∨ (∃ id s', s.signOff? id = some s') ∨
      ∃ s', s.Own s' := by
  refine or_iff_not_imp_left.mpr fun hnoActor => or_iff_not_imp_left.mpr fun hnoTask => ?_
  have hrest : ∀ a, s.service.step? a = none := fun a =>
    Option.eq_none_iff_forall_ne_some.mpr fun service hsome => hnoActor ⟨a, service, hsome⟩
  obtain ⟨hsessions, hannotators⟩ := hlined.ended_of_rest hcancelled hheld hrest
  refine exists_own_of_ended hsupervised hcancelled hheld ?_ ?_ ?_ hgoing
  · -- whoever still waited for the lock would have a step
    false_or_by_contra
    next hne =>
      obtain ⟨a, ha⟩ := hlined.exists_step_of_queue hheld hne
      rw [hrest a] at ha
      cases ha
  · intro a ha
    obtain ⟨index, hindex⟩ := List.mem_iff_getElem?.mp ha
    exact Annotator.hasEnded_iff.mpr (hannotators index a hindex)
  · intro id hid
    -- whoever has ended is reported, and its task would have a step until it is over
    rw [hsupervised.spawned] at hid
    have hx := List.getElem?_eq_getElem hid
    have hreported : id ∈ s.service.registry.reported := by
      rw [hsupervised.signed id, hx]
      exact congrArg some (hsessions id _ hx)
    by_cases harrived : id ∈ s.service.registry.arrived
    · false_or_by_contra
      next hnew =>
        exact hnoTask ⟨id, _,
          signOff?_eq_some_iff.mpr ⟨hreported, .inr ⟨harrived, hnew, rfl⟩⟩⟩
    · exact absurd ⟨id, _, signOff?_eq_some_iff.mpr ⟨hreported, .inl ⟨harrived, rfl⟩⟩⟩ hnoTask

/-- **A server that is asked to stop stops.** In every run, once shutdown was requested and nobody
outside holds the lock, there are only so many steps left, and as long as the server has not stopped
there is one more. -/
theorem Run.stops {settings : Settings} {listening : Except Fault Unit} {engine : Engine}
    {host : Host} {epoch : Nat}
    (hstart : Server.start settings listening engine host epoch = .ok start)
    (hrun : Run start notes s) (hcancelled : s.service.cancelled = true)
    (hheld : s.service.held = false) (halone : Alone s n s') :
    n ≤ s.bound ∧
      ((∃ result, s'.stage = .stopped result) ∨ ∃ s'', Alone s (n + 1) s'') := by
  refine ⟨Nat.le_trans (Nat.le_add_right n _) halone.length_add_bound_le, ?_⟩
  by_cases hstopped : ∃ result, s'.stage = .stopped result
  · exact .inl hstopped
  · obtain ⟨notes', hlater⟩ := halone.run
    obtain ⟨hcancelled', hheld'⟩ := halone.flags
    obtain ⟨a, service, hstep⟩ | ⟨id, s'', hstep⟩ | ⟨s'', hown⟩ :=
      exists_step_of_going (hlater.supervised (hrun.supervised (supervised_start hstart)))
        (hlater.lined (hrun.lined (lined_start hstart)))
        (hcancelled'.trans hcancelled) (hheld'.trans hheld) (not_exists.mp hstopped)
    · exact .inr ⟨_, halone.actor hstep⟩
    · exact .inr ⟨_, halone.signOff hstep⟩
    · exact .inr ⟨_, halone.own hown⟩

/-- **So there is a run to the end.** -/
theorem Run.exists_stopped {settings : Settings} {listening : Except Fault Unit}
    {engine : Engine} {host : Host} {epoch : Nat}
    (hstart : Server.start settings listening engine host epoch = .ok start)
    (hrun : Run start notes s) (hcancelled : s.service.cancelled = true)
    (hheld : s.service.held = false) :
    ∃ notes' s' result, Run s notes' s' ∧ s'.stage = .stopped result := by
  -- otherwise there would be more steps than there can be
  by_contra hnever
  have hmore : ∀ n, ∃ s', Alone s n s' := by
    intro n
    induction n with
    | zero => exact ⟨s, .refl⟩
    | succ n ih =>
      obtain ⟨s', halone⟩ := ih
      obtain ⟨-, ⟨result, hstopped⟩ | hstep⟩ := hrun.stops hstart hcancelled hheld halone
      · obtain ⟨notes', hlater⟩ := halone.run
        exact absurd ⟨notes', s', result, hlater, hstopped⟩ hnever
      · exact hstep
  obtain ⟨s', halone⟩ := hmore (s.bound + 1)
  exact Nat.not_succ_le_self _ (hrun.stops hstart hcancelled hheld halone).1

end Server

end CommandLog
