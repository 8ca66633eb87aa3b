import CommandLog.Proofs.Service.Rest
import CommandLog.Proofs.Timestamp

/-!
# The pace of an annotator

An annotator takes its turns by its timer, and its timer goes by the clock. However the clock jumps
and however long others hold the lock, it takes no more turns than there were periods since its
start: what it misses it does not make up for. As long as it is looked at in time it misses nothing
either.

* `CommandLog.Annotator.Scheduled` – **an annotator and its schedule**: its deadline is that of its
  next turn, which is a number of periods after its start, moved by all the delays it ever had;
* `CommandLog.Annotator.Beat` and `CommandLog.Service.beat_of_act` – what becomes of one annotator
  by one move;
* `CommandLog.Annotator.Scheduled.beat` – **every move keeps the schedule**, and moves it only when
  the timer is looked at too late;
* `CommandLog.Annotator.Dated` – a timestamp that waits to be stored was made when the timer was
  looked at, and so at a time that the clock has reached;
* `CommandLog.Service.Timely` – **a run in which no timer is looked at too late**, be it because the
  clock has jumped or because the lock was held. A service that sleeps is one
  (`CommandLog.Service.Calm.sleep`);
* `CommandLog.Service.Run.keeps_pace` – **the pace** in every run, in timely ones and after a
  request for shutdown.

The schedule counts a turn as soon as the annotator asks for the lock, since its timer goes on from
there, while the entry is stored when it gets the lock. So an annotator that waits for the lock owes
one turn, and this is the only one that it can still take after a request for shutdown.
-/

namespace CommandLog

namespace Annotator

variable {start period turns drift now : Nat} {cancelled : Bool} {time : Instant}
  {stamp : Timestamp} {c c' : Annotator}

/-! ### Schedules -/

/-- The deadline of an annotator's timer. -/
def deadline? (c : Annotator) : Option Nat :=
  match c.phase with
  | .waiting deadline => some deadline
  | .queued deadline _ => some deadline
  | .ended => none

/-- The number of turns that an annotator has asked for and not taken yet. -/
def owed (c : Annotator) : Nat :=
  match c.phase with
  | .queued _ _ => 1
  | .waiting _ => 0
  | .ended => 0

theorem deadline?_of_waiting {d : Nat} (h : c.phase = .waiting d) : c.deadline? = some d := by
  rw [deadline?, h]

theorem deadline?_of_queued {d : Nat} (h : c.phase = .queued d stamp) :
    c.deadline? = some d := by
  rw [deadline?, h]

theorem owed_of_waiting {d : Nat} (h : c.phase = .waiting d) : c.owed = 0 := by
  rw [owed, h]

theorem owed_of_queued {d : Nat} (h : c.phase = .queued d stamp) : c.owed = 1 := by
  rw [owed, h]

/-- **An annotator and its schedule**, from its start on and after a number of turns. -/
structure Scheduled (start period turns drift now : Nat) (c : Annotator) : Prop where
  /-- It has this period. -/
  period_eq : c.period = period
  /-- There were as many periods as it has taken turns and owes them. -/
  elapsed : start + (turns + c.owed) * period ≤ now
  /-- Its deadline is one period later, and later still by the drift. -/
  deadline_eq : ∀ d, c.deadline? = some d → d = start + (turns + c.owed + 1) * period + drift

/-- The timer of an annotator can still be looked at in time. -/
def Prompt (now : Nat) (c : Annotator) : Prop :=
  ∀ d, c.deadline? = some d → now ≤ d + slack

theorem scheduled_start (period now : Nat) :
    (Annotator.start period now).Scheduled now period 0 0 now where
  period_eq := rfl
  elapsed := by simp [owed, Annotator.start]
  deadline_eq d hd := by
    cases hd
    simp [owed, Annotator.start]

theorem prompt_start (period now : Nat) : (Annotator.start period now).Prompt now := by
  rintro d ⟨⟩
  omega

/-- Time that goes by is no harm to a schedule. -/
theorem Scheduled.mono (h : c.Scheduled start period turns drift now) {later : Nat}
    (hle : now ≤ later) : c.Scheduled start period turns drift later :=
  ⟨h.period_eq, Nat.le_trans h.elapsed hle, h.deadline_eq⟩

/-- **There are no more turns than periods.** -/
theorem Scheduled.turns_le (h : c.Scheduled start period turns drift now) (hperiod : 0 < period) :
    turns ≤ (now - start) / period := by
  rw [Nat.le_div_iff_mul_le hperiod]
  have hle : turns * period ≤ (turns + c.owed) * period :=
    Nat.mul_le_mul_right period (Nat.le_add_right _ _)
  have helapsed := h.elapsed
  omega

/-- **There are as many turns as periods** when there was no drift and the timer runs. -/
theorem Scheduled.turns_eq (h : c.Scheduled start period turns 0 now) (hperiod : 0 < period)
    {deadline : Nat} (hphase : c.phase = .waiting deadline) (hearly : now < deadline) :
    turns = (now - start) / period := by
  have helapsed := h.elapsed
  have hdeadline := h.deadline_eq deadline (deadline?_of_waiting hphase)
  simp only [owed_of_waiting hphase, Nat.add_zero] at helapsed hdeadline
  refine Nat.le_antisymm (h.turns_le hperiod) (Nat.le_of_lt_succ ?_)
  rw [Nat.div_lt_iff_lt_mul hperiod, Nat.succ_eq_add_one]
  omega

/-! ### Single moves -/

/-- **The next deadline** is a period after the last one, and later only if that one was looked at
too late. -/
theorem exists_nextDeadline_eq (period : Nat) {deadline now : Nat} (hdue : deadline ≤ now) :
    ∃ delay, nextDeadline period deadline now = deadline + period + delay ∧
      (now ≤ deadline + slack → delay = 0) := by
  unfold nextDeadline
  split
  · exact ⟨now - deadline, by omega, by omega⟩
  · exact ⟨0, rfl, fun _ => rfl⟩

/-- **What becomes of an annotator by one move**, with the number of turns it takes by it. -/
inductive Beat (cancelled : Bool) (now : Nat) (time : Instant) (c : Annotator) :
    Nat → Annotator → Prop where
  /-- It stays as it is. -/
  | rest : Beat cancelled now time c 0 c
  /-- It looks at its timer. -/
  | wake {c' : Annotator} (h : c.advance? cancelled now time = some c') :
    Beat cancelled now time c 0 c'
  /-- It takes its turn. -/
  | stamp {deadline : Nat} {stamp : Timestamp} (hphase : c.phase = .queued deadline stamp) :
    Beat cancelled now time c 1 { c with phase := .waiting deadline }

/-- An annotator that looks at its timer ends, or asks for its turn when the time has come. -/
theorem advance?_cases (h : c.advance? cancelled now time = some c') :
    ∃ deadline, c.phase = .waiting deadline ∧
      ((c' = { c with phase := .ended } ∧ (cancelled = true ∨ c.period = 0)) ∨
        cancelled = false ∧ deadline ≤ now ∧
          c' = { c with
            phase := .queued (nextDeadline c.period deadline now) (.ofInstant time) }) := by
  unfold advance? at h
  split at h
  · next deadline hphase =>
    refine ⟨deadline, hphase, ?_⟩
    split at h
    · next hends =>
      cases h
      exact .inl ⟨rfl, by simpa using hends⟩
    · next hgoes =>
      rw [Bool.or_eq_true, not_or, Bool.not_eq_true] at hgoes
      rw [Option.ite_none_right_eq_some] at h
      cases h.2
      exact .inr ⟨hgoes.1, h.1, rfl⟩
  · cases h
  · cases h

/-- **To look at the timer** keeps the schedule, without any more drift if it is done in time. -/
theorem Scheduled.advance (h : c.Scheduled start period turns drift now)
    (hadvance : c.advance? cancelled now time = some c') :
    ∃ drift', c'.Scheduled start period turns drift' now ∧
      (c.Prompt now → drift' = drift ∧ c'.Prompt now) := by
  obtain ⟨deadline, hphase, ⟨rfl, -⟩ | ⟨-, hdue, rfl⟩⟩ := advance?_cases hadvance
  · have helapsed := h.elapsed
    rw [owed_of_waiting hphase] at helapsed
    exact ⟨drift, ⟨h.period_eq, helapsed, nofun⟩, fun _ => ⟨rfl, nofun⟩⟩
  · obtain ⟨delay, hnext, hintime⟩ := exists_nextDeadline_eq c.period hdue
    have hdeadline? := deadline?_of_waiting hphase
    have hdeadline := h.deadline_eq deadline hdeadline?
    rw [owed_of_waiting hphase, Nat.add_zero] at hdeadline
    refine ⟨drift + delay, ⟨h.period_eq, ?_, ?_⟩, fun hprompt => ⟨?_, ?_⟩⟩
    · change start + (turns + 1) * period ≤ now
      omega
    · rintro d ⟨⟩
      change _ = start + (turns + 1 + 1) * period + (drift + delay)
      rw [hnext, h.period_eq, hdeadline, Nat.add_one_mul (turns + 1)]
      omega
    · rw [hintime (hprompt deadline hdeadline?), Nat.add_zero]
    · rintro d ⟨⟩
      have hlate := hprompt deadline hdeadline?
      omega

/-- **Every move keeps the schedule.** -/
theorem Scheduled.beat (h : c.Scheduled start period turns drift now) {n : Nat}
    (hbeat : c.Beat cancelled now time n c') :
    ∃ drift', c'.Scheduled start period (turns + n) drift' now ∧
      (c.Prompt now → drift' = drift ∧ c'.Prompt now) := by
  cases hbeat with
  | rest => exact ⟨drift, h, fun hprompt => ⟨rfl, hprompt⟩⟩
  | wake hadvance => exact h.advance hadvance
  | @stamp deadline _ hphase =>
    -- the turn that was owed is taken, and the timer runs already
    have hdeadline? := deadline?_of_queued hphase
    have helapsed := h.elapsed
    have hdeadline := h.deadline_eq deadline hdeadline?
    rw [owed_of_queued hphase] at helapsed hdeadline
    refine ⟨drift, ⟨h.period_eq, helapsed, ?_⟩, fun hprompt => ⟨rfl, ?_⟩⟩
    · rintro d ⟨⟩
      exact hdeadline
    · rintro d ⟨⟩
      exact hprompt deadline hdeadline?

/-- **An annotator only ends when shutdown was requested**, unless it has no period. -/
theorem Beat.cancelled_of_ended {n : Nat} (hbeat : c.Beat cancelled now time n c')
    (hperiod : c.period ≠ 0) (hended : c'.phase = .ended) :
    c.phase = .ended ∨ cancelled = true := by
  cases hbeat with
  | rest => exact .inl hended
  | wake hadvance =>
    obtain ⟨deadline, -, ⟨-, hcancelled | hzero⟩ | ⟨-, -, rfl⟩⟩ := advance?_cases hadvance
    · exact .inr hcancelled
    · exact absurd hzero hperiod
    · cases hended
  | stamp => cases hended

/-- **After a request for shutdown** an annotator takes no turn but the one it owes. -/
theorem Beat.owed_le {n : Nat} (hbeat : c.Beat true now time n c') : n + c'.owed ≤ c.owed := by
  cases hbeat with
  | rest => exact Nat.le_of_eq (Nat.zero_add _)
  | wake hadvance =>
    obtain ⟨deadline, -, ⟨rfl, -⟩ | ⟨hgoes, -⟩⟩ := advance?_cases hadvance
    · exact Nat.zero_le _
    · cases hgoes
  | stamp hphase =>
    rw [owed_of_queued hphase]
    exact Nat.le_refl _

/-! ### Timestamps that wait -/

/-- **The timestamp that an annotator holds** while it waits for the lock was made at a time that
the clock has reached. -/
def Dated (epoch now : Nat) (c : Annotator) : Prop :=
  ∀ d stamp, c.phase = .queued d stamp →
    ∃ made, made ≤ now ∧ stamp = .ofInstant (.ofMillis (epoch + made))

theorem Dated.mono {epoch later : Nat} (h : c.Dated epoch now) (hle : now ≤ later) :
    c.Dated epoch later := by
  intro d stamp hphase
  obtain ⟨made, hmade, hstamp⟩ := h d stamp hphase
  exact ⟨made, Nat.le_trans hmade hle, hstamp⟩

/-- **Every move keeps it so**: a timestamp is made when the timer is looked at. -/
theorem Dated.beat {epoch n : Nat} (h : c.Dated epoch now)
    (hbeat : c.Beat cancelled now (.ofMillis (epoch + now)) n c') : c'.Dated epoch now := by
  intro d stamp hphase
  cases hbeat with
  | rest => exact h d stamp hphase
  | wake hadvance =>
    obtain ⟨deadline, -, ⟨rfl, -⟩ | ⟨-, -, rfl⟩⟩ := advance?_cases hadvance
    · cases hphase
    · cases hphase
      exact ⟨now, Nat.le_refl _, rfl⟩
  | stamp => cases hphase

/-- A timestamp that was made in the time of 64 bits is taken by every journal. -/
theorem Dated.fits {epoch d : Nat} (h : c.Dated epoch now) (hphase : c.phase = .queued d stamp)
    (htime : epoch + now < 2 ^ 64) : Journal.fits stamp.bytes = true := by
  obtain ⟨made, hmade, rfl⟩ := h d stamp hphase
  exact Timestamp.fits_entry (by omega)

end Annotator

namespace Service

open Annotator (Scheduled Prompt)

variable {start s s' : Service} {notes notes' : List Note} {index period n : Nat}
  {c c' : Annotator}

/-! ### What is noted about an annotator -/

/-- Whether a note says that an annotator has taken a turn. -/
def Note.isTurn (index : Nat) : Note → Bool
  | .annotated index' _ _ => index' == index
  | _ => false

/-- Whether a note says that an annotator has stored its timestamp. -/
def Note.isStampBy (index : Nat) : Note → Bool
  | .annotated index' _ stored => index' == index && stored
  | _ => false

/-- **The number of turns** that an annotator has taken. -/
def turns (index : Nat) (notes : List Note) : Nat :=
  notes.countP (Note.isTurn index)

/-- **The number of timestamps** that an annotator has stored. -/
def stamps (index : Nat) (notes : List Note) : Nat :=
  notes.countP (Note.isStampBy index)

@[simp] theorem turns_append (index : Nat) (notes notes' : List Note) :
    turns index (notes ++ notes') = turns index notes + turns index notes' := by
  simp [turns]

@[simp] theorem stamps_append (index : Nat) (notes notes' : List Note) :
    stamps index (notes ++ notes') = stamps index notes + stamps index notes' := by
  simp [stamps]

theorem stamps_le_turns (index : Nat) (notes : List Note) :
    stamps index notes ≤ turns index notes := by
  refine List.countP_mono_left ?_
  rintro note - hstamp
  cases note with
  | annotated index' payload stored => exact (Bool.and_eq_true_iff.mp hstamp).1
  | session | appended => cases hstamp

/-- Neither sessions nor events are annotators. -/
theorem turns_map_session (index : Nat) (id : SessionId) (ds : List Session.Deed) :
    turns index (ds.map (.session id)) = 0 := by
  rw [turns, List.countP_eq_zero]
  rintro note hnote hturn
  obtain ⟨deed, -, rfl⟩ := List.mem_map.mp hnote
  cases hturn

theorem turns_noted_event (index : Nat) (s : Service) (e : Event) :
    turns index (s.noted (.event e)) = 0 := by
  cases e with
  | append payload =>
    simp only [noted]
    split <;> rfl
  | _ => rfl

/-! ### One move -/

theorem annotators_handle (e : Event) (hc : s.annotators[index]? = some c) :
    (s.handle e).annotators[index]? = some c := by
  cases e with
  | annotate period =>
    change (s.annotators ++ [_])[index]? = some c
    rw [List.getElem?_append_left (List.getElem?_eq_some_iff.mp hc).1, hc]
  | append payload =>
    simp only [handle]
    split <;> exact hc
  | _ => exact hc

/-- **Every move is a beat of every annotator.** -/
theorem beat_of_act (hact : s.Act notes s') (hc : s.annotators[index]? = some c) :
    ∃ c', s'.annotators[index]? = some c' ∧
      c.Beat s.cancelled s.clock s.now (turns index notes) c' := by
  cases hact with
  | event e =>
    rw [turns_noted_event]
    exact ⟨c, annotators_handle e hc, .rest⟩
  | serve => exact ⟨c, hc, .rest⟩
  | session =>
    rw [turns_map_session, annotators_absorb]
    exact ⟨c, hc, .rest⟩
  | @annotate index' deadline stamp a ha hphase =>
    change ∃ c', (s.annotators.set index' _)[index]? = some c' ∧ _
    by_cases heq : index' = index
    · subst heq
      rw [hc] at ha
      cases ha
      rw [List.getElem?_set_self', hc]
      refine ⟨_, rfl, ?_⟩
      have hone : turns index' [.annotated index' stamp.bytes (s.stores stamp.bytes)] = 1 := by
        simp [turns, Note.isTurn]
      rw [hone]
      exact .stamp hphase
    · have hnone : turns index [.annotated index' stamp.bytes (s.stores stamp.bytes)] = 0 := by
        simp [turns, Note.isTurn, heq]
      rw [List.getElem?_set_ne heq, hnone]
      exact ⟨c, hc, .rest⟩
  | @wake index' a a' queue ha hadvance =>
    change ∃ c', (s.annotators.set index' a')[index]? = some c' ∧ _
    by_cases heq : index' = index
    · subst heq
      rw [hc] at ha
      cases ha
      rw [List.getElem?_set_self', hc]
      exact ⟨a', rfl, .wake hadvance⟩
    · rw [List.getElem?_set_ne heq]
      exact ⟨c, hc, .rest⟩

/-- **The clock does not go back**, and the start of the service stays where it is. -/
theorem clock_of_act (hact : s.Act notes s') : s.clock ≤ s'.clock ∧ s'.epoch = s.epoch := by
  cases hact with
  | event e =>
    cases e with
    | tick ms => exact ⟨Nat.le_add_right _ _, rfl⟩
    | append payload =>
      simp only [handle]
      split <;> exact ⟨Nat.le_refl _, rfl⟩
    | _ => exact ⟨Nat.le_refl _, rfl⟩
  | @session _ _ _ e => cases e <;> exact ⟨Nat.le_refl _, rfl⟩
  | serve | annotate | wake => exact ⟨Nat.le_refl _, rfl⟩

theorem Run.clock (hrun : Run s notes s') : s.clock ≤ s'.clock ∧ s'.epoch = s.epoch := by
  induction hrun with
  | refl => exact ⟨Nat.le_refl _, rfl⟩
  | move _ c hnext ih =>
    obtain ⟨hclock, hepoch⟩ := clock_of_act (act_of_next? hnext)
    exact ⟨Nat.le_trans ih.1 hclock, hepoch.trans ih.2⟩

/-! ### Every run -/

/-- **An annotator keeps its schedule in every run.** -/
theorem Run.scheduled (hrun : Run s notes s') (hc : s.annotators[index]? = some c)
    {t₀ turns₀ drift : Nat} (h : c.Scheduled t₀ period turns₀ drift s.clock) :
    ∃ c' drift', s'.annotators[index]? = some c' ∧
      c'.Scheduled t₀ period (turns₀ + turns index notes) drift' s'.clock := by
  induction hrun with
  | refl => exact ⟨c, drift, hc, h⟩
  | move _ choice hnext ih =>
    obtain ⟨c₁, drift₁, hc₁, h₁⟩ := ih
    have hact := act_of_next? hnext
    obtain ⟨c', hc', hbeat⟩ := beat_of_act hact hc₁
    obtain ⟨drift', h', -⟩ := h₁.beat hbeat
    rw [turns_append, ← Nat.add_assoc]
    exact ⟨c', drift', hc', h'.mono (clock_of_act hact).1⟩

/-- **After a request for shutdown** an annotator takes the turn that it owes, and no other one. -/
theorem Run.turns_le_owed (hrun : Run s notes s') (hcancelled : s.cancelled = true)
    (hc : s.annotators[index]? = some c) :
    ∃ c', s'.annotators[index]? = some c' ∧ s'.cancelled = true ∧
      turns index notes + c'.owed ≤ c.owed := by
  induction hrun with
  | refl => exact ⟨c, hc, hcancelled, Nat.le_of_eq (Nat.zero_add _)⟩
  | move _ choice hnext ih =>
    obtain ⟨c₁, hc₁, hcancelled₁, hle⟩ := ih
    have hact := act_of_next? hnext
    obtain ⟨c', hc', hbeat⟩ := beat_of_act hact hc₁
    rw [hcancelled₁] at hbeat
    have hle' := hbeat.owed_le
    refine ⟨c', hc', cancelled_of_act hact hcancelled₁, ?_⟩
    rw [turns_append]
    omega

/-- **A turn is a timestamp**, since the journal takes what an annotator has to store. -/
theorem stamps_of_act (hact : s.Act notes s') (hc : s.annotators[index]? = some c)
    (hdated : c.Dated s.epoch s.clock) (htime : s.epoch + s.clock < 2 ^ 64) :
    stamps index notes = turns index notes := by
  cases hact with
  | event e =>
    have hle := stamps_le_turns index (s.noted (.event e))
    rw [turns_noted_event] at hle ⊢
    exact Nat.eq_zero_of_le_zero hle
  | serve | wake => rfl
  | @session id x x' e =>
    have hle := stamps_le_turns index ((x.deeds s.cancelled).map (.session id))
    rw [turns_map_session] at hle ⊢
    exact Nat.eq_zero_of_le_zero hle
  | @annotate index' deadline stamp a ha hphase =>
    by_cases heq : index' = index
    · subst heq
      rw [hc] at ha
      cases ha
      have hstores : s.stores stamp.bytes = true := by
        rw [stores, Engine.append_isOk]
        exact Engine.accepts_of_fits (hdated.fits hphase htime)
      simp [stamps, turns, Note.isStampBy, Note.isTurn, hstores]
    · simp [stamps, turns, Note.isStampBy, Note.isTurn, heq]

/-- **Every turn of a run is a timestamp.** -/
theorem Run.stamps_eq_turns (hrun : Run s notes s') (hc : s.annotators[index]? = some c)
    (hdated : c.Dated s.epoch s.clock) (htime : s'.epoch + s'.clock < 2 ^ 64) :
    stamps index notes = turns index notes ∧
      ∃ c', s'.annotators[index]? = some c' ∧ c'.Dated s'.epoch s'.clock := by
  induction hrun with
  | refl => exact ⟨rfl, c, hc, hdated⟩
  | move _ choice hnext ih =>
    have hact := act_of_next? hnext
    obtain ⟨hclock, hepoch⟩ := clock_of_act hact
    rw [hepoch] at htime
    obtain ⟨heq, c₁, hc₁, hdated₁⟩ := ih (by omega)
    obtain ⟨c', hc', hbeat⟩ := beat_of_act hact hc₁
    rw [stamps_append, turns_append, heq, stamps_of_act hact hc₁ hdated₁ (by omega), hepoch]
    exact ⟨rfl, c', hc', (hdated₁.beat hbeat).mono hclock⟩

/-! ### Timely runs -/

/-- Every timer can still be looked at in time. -/
def Prompt (s : Service) : Prop :=
  ∀ c ∈ s.annotators, c.Prompt s.clock

/-- **A run in which no timer is looked at too late**: the clock never goes further than that,
neither by a jump nor while the lock is held. -/
inductive Timely (start : Service) : List Note → Service → Prop where
  /-- Nothing has happened yet. -/
  | refl : Timely start [] start
  /-- One move further. -/
  | move {notes : List Note} {s s' : Service} (h : Timely start notes s) (c : Choice)
    (hnext : s.next? c = some s') (hprompt : s.clock < s'.clock → s'.Prompt) :
    Timely start (notes ++ s.noted c) s'

theorem Timely.run (h : Timely start notes s) : Run start notes s := by
  induction h with
  | refl => exact .refl
  | move _ c hnext _ ih => exact ih.move c hnext

/-- **An annotator goes by its schedule in every timely run**, without any drift, until shutdown is
requested. -/
theorem Timely.scheduled (h : Timely s notes s') (hc : s.annotators[index]? = some c)
    {t₀ turns₀ drift : Nat} (hscheduled : c.Scheduled t₀ period turns₀ drift s.clock)
    (hprompt : c.Prompt s.clock) (hgoing : c.phase ≠ .ended) (hperiod : period ≠ 0) :
    ∃ c', s'.annotators[index]? = some c' ∧
      c'.Scheduled t₀ period (turns₀ + turns index notes) drift s'.clock ∧ c'.Prompt s'.clock ∧
      (c'.phase = .ended → s'.cancelled = true) := by
  induction h with
  | refl => exact ⟨c, hc, hscheduled, hprompt, fun hended => absurd hended hgoing⟩
  | @move _ s₁ s' _ choice hnext hlater ih =>
    obtain ⟨c₁, hc₁, h₁, hprompt₁, hended₁⟩ := ih
    have hact := act_of_next? hnext
    obtain ⟨c', hc', hbeat⟩ := beat_of_act hact hc₁
    obtain ⟨drift', h', hintime⟩ := h₁.beat hbeat
    obtain ⟨rfl, hprompt'⟩ := hintime hprompt₁
    have hclock := (clock_of_act hact).1
    rw [turns_append, ← Nat.add_assoc]
    refine ⟨c', hc', h'.mono hclock, ?_, fun hended => ?_⟩
    · rcases Nat.lt_or_eq_of_le hclock with hlt | heq
      · exact hlater hlt c' (List.mem_of_getElem? hc')
      · exact heq ▸ hprompt'
    · rcases hbeat.cancelled_of_ended (h₁.period_eq ▸ hperiod) hended with hbefore | hcancelled
      · exact cancelled_of_act hact (hended₁ hbefore)
      · exact cancelled_of_act hact hcancelled

/-! ### Sleeping -/

theorem step?_of_firstMove?_eq_some {as : List Actor} {a : Actor}
    (h : s.firstMove? as = some (a, s')) : s.step? a = some s' := by
  induction as with
  | nil => cases h
  | cons b rest ih =>
    simp only [firstMove?] at h
    split at h
    · next hstep =>
      cases h
      exact hstep
    · exact ih h

/-- A service that comes to rest does so by steps of its actors. -/
theorem alone_settleFrom (h : Alone start n s) (last : List Actor) :
    ∃ n', Alone start n' (settleFrom last s) := by
  fun_induction settleFrom last s generalizing n with
  | case1 => exact ⟨n, h⟩
  | case2 last s a s' hfirst ih => exact ih (h.step (step?_of_firstMove?_eq_some hfirst))

theorem Alone.clock_eq (h : Alone start n s) :
    s.clock = start.clock ∧ s.cancelled = start.cancelled := by
  induction h with
  | refl => exact ⟨rfl, rfl⟩
  | step _ hstep ih =>
    have hframe := frame_of_step? hstep
    exact ⟨hframe.clock.trans ih.1, hframe.cancelled.trans ih.2⟩

/-- Whatever actors do is timely, since the clock stands still meanwhile. -/
theorem Timely.alone (h : Timely start notes s) (halone : Alone s n s') :
    ∃ notes', Timely start (notes ++ notes') s' := by
  induction halone with
  | refl => exact ⟨[], by rwa [List.append_nil]⟩
  | @step _ s₁ _ _ a hstep ih =>
    obtain ⟨notes', h'⟩ := ih
    refine ⟨notes' ++ s₁.noted (.actor a), ?_⟩
    rw [← List.append_assoc]
    refine h'.move (.actor a) hstep fun hlt => ?_
    rw [(frame_of_step? hstep).clock] at hlt
    exact absurd hlt (Nat.lt_irrefl _)

/-- **A service at rest**, with the lock free. -/
structure Calm (s : Service) : Prop where
  /-- Those who wait for the lock stand in the queue. -/
  lined : Lined s
  /-- Nobody outside holds the lock. -/
  held : s.held = false
  /-- Nobody has a step. -/
  rest : ∀ a, s.step? a = none

/-- At rest no deadline has come. -/
theorem Calm.lt_deadline (h : s.Calm) (hc : c ∈ s.annotators) {d : Nat}
    (hd : c.deadline? = some d) : c.phase = .waiting d ∧ s.clock < d := by
  obtain ⟨index, hindex⟩ := List.mem_iff_getElem?.mp hc
  cases h.lined.annotator_of_rest h.held h.rest hindex with
  | waiting hphase hearly =>
    rw [Annotator.deadline?_of_waiting hphase] at hd
    cases hd
    exact ⟨hphase, hearly⟩
  | ended hphase =>
    rw [Annotator.deadline?, hphase] at hd
    cases hd

/-- **Time goes by up to the next deadline**, and then the service comes to rest again. -/
theorem Calm.pass (hcalm : s.Calm) (h : Timely start notes s) {ms : Nat}
    (hfirst : ∀ c ∈ s.annotators, ∀ d, c.deadline? = some d → s.clock + ms ≤ d) :
    ∃ notes', Timely start (notes ++ notes') (s.handle (.tick ms)).settle ∧
      (s.handle (.tick ms)).settle.Calm ∧
      (s.handle (.tick ms)).settle.clock = s.clock + ms ∧
      (s.handle (.tick ms)).settle.cancelled = s.cancelled := by
  have htick : Timely start (notes ++ s.noted (.event (.tick ms))) (s.handle (.tick ms)) :=
    h.move (.event (.tick ms)) rfl fun _ c hc d hd => Nat.le_add_right_of_le (hfirst c hc d hd)
  obtain ⟨n, halone⟩ := alone_settleFrom (.refl : Alone (s.handle (.tick ms)) 0 _) []
  obtain ⟨notes', hsettled⟩ := htick.alone halone
  obtain ⟨hclock, hcancelled⟩ := halone.clock_eq
  obtain ⟨_, hrun⟩ := halone.run
  have hlined := hrun.lined (hcalm.lined.act (.event (.tick ms)))
  rw [List.append_assoc] at hsettled
  exact ⟨_, hsettled, ⟨hlined, halone.held_eq.trans hcalm.held, step?_settle _⟩, hclock, hcancelled⟩

/-- The first deadline comes before all others, and it has not come yet. -/
theorem Calm.firstDeadline? {first : Nat} (hcalm : s.Calm) (h : s.firstDeadline? = some first) :
    s.clock < first ∧ ∀ c ∈ s.annotators, ∀ d, c.deadline? = some d → first ≤ d := by
  obtain ⟨hmem, hle⟩ := List.min?_eq_some_iff.mp h
  constructor
  · obtain ⟨c, hc, hfirst⟩ := List.mem_filterMap.mp hmem
    split at hfirst
    · next deadline hphase =>
      cases hfirst
      exact (hcalm.lt_deadline hc (Annotator.deadline?_of_waiting hphase)).2
    · cases hfirst
  · intro c hc d hd
    refine hle d (List.mem_filterMap.mpr ⟨c, hc, ?_⟩)
    rw [(hcalm.lt_deadline hc hd).1]

/-- Nobody has a deadline when there is no first one. -/
theorem Calm.deadline?_eq_none (hcalm : s.Calm) (h : s.firstDeadline? = none)
    (hc : c ∈ s.annotators) : c.deadline? = none := by
  rw [Option.eq_none_iff_forall_ne_some]
  intro d hd
  rw [Service.firstDeadline?, List.min?_eq_none_iff, List.filterMap_eq_nil_iff] at h
  have hnone := h c hc
  rw [(hcalm.lt_deadline hc hd).1] at hnone
  cases hnone

/-- **A service that sleeps is timely**: every timer is looked at when its time has come. -/
theorem Calm.sleep (hcalm : s.Calm) (h : Timely start notes s) (ms : Nat) :
    ∃ notes', Timely start (notes ++ notes') (s.sleep ms) ∧ (s.sleep ms).Calm ∧
      (s.sleep ms).clock = s.clock + ms ∧ (s.sleep ms).cancelled = s.cancelled := by
  fun_induction Service.sleep s ms generalizing notes with
  | case1 s ms first hfirst hcond ih =>
    have hbefore : ∀ c ∈ s.annotators, ∀ d, c.deadline? = some d →
        s.clock + (first - s.clock) ≤ d := by
      intro c hc d hd
      have hle := (hcalm.firstDeadline? hfirst).2 c hc d hd
      omega
    obtain ⟨notes₁, h₁, hcalm₁, hclock₁, hcancelled₁⟩ := hcalm.pass h hbefore
    obtain ⟨notes₂, h₂, hcalm₂, hclock₂, hcancelled₂⟩ := ih hcalm₁ h₁
    rw [List.append_assoc] at h₂
    exact ⟨_, h₂, hcalm₂, by omega, hcancelled₂.trans hcancelled₁⟩
  | case2 s ms first hfirst hcond =>
    -- the time is over before the first deadline
    obtain ⟨hearly, hle⟩ := hcalm.firstDeadline? hfirst
    refine hcalm.pass h fun c hc d hd => ?_
    have hfirst := hle c hc d hd
    omega
  | case3 s ms hnone =>
    refine hcalm.pass h fun c hc d hd => ?_
    rw [hcalm.deadline?_eq_none hnone hc] at hd
    cases hd

/-! ### The pace -/

/-- An annotator that is started is the last one. -/
theorem getElem?_handle_annotate (s : Service) (period : Nat) :
    (s.handle (.annotate period)).annotators[s.annotators.length]? =
      some (.start period s.clock) := by
  change (s.annotators ++ [_])[s.annotators.length]? = _
  rw [List.getElem?_concat_length]

/-- **The timestamps of an annotator that misses nothing**: one for every period. -/
theorem Timely.stamps_eq (h : Timely (s.handle (.annotate period)) notes s') (hperiod : 0 < period)
    (hcalm : s'.Calm) (hgoing : s'.cancelled = false) (htime : s'.epoch + s'.clock < 2 ^ 64) :
    stamps s.annotators.length notes = (s'.clock - s.clock) / period := by
  obtain ⟨c, hc, hscheduled, -, hended⟩ := h.scheduled (getElem?_handle_annotate s period)
    (Annotator.scheduled_start period s.clock) (Annotator.prompt_start period s.clock) nofun
    (Nat.ne_of_gt hperiod)
  rw [Nat.zero_add] at hscheduled
  rw [(h.run.stamps_eq_turns (getElem?_handle_annotate s period) nofun htime).1]
  cases hcalm.lined.annotator_of_rest hcalm.held hcalm.rest hc with
  | waiting hphase hearly => exact hscheduled.turns_eq hperiod hphase hearly
  | ended hphase =>
    rw [hended hphase] at hgoing
    cases hgoing

/-- **An annotator ends after a request for shutdown**, however the others go on. -/
theorem Lined.annotator_ends (h : Lined s) (hcancelled : s.cancelled = true)
    (hheld : s.held = false) (hc : s.annotators[index]? = some c) (halone : Alone s n s') :
    n ≤ s.work ∧ ((∃ a, (s'.step? a).isSome = true) ∨
      ∃ c', s'.annotators[index]? = some c' ∧ c'.phase = .ended) := by
  refine ⟨Nat.le_trans (Nat.le_add_right n _) halone.length_add_work_le, ?_⟩
  by_cases hmove : ∃ a, (s'.step? a).isSome = true
  · exact .inl hmove
  · have hrest : ∀ a, s'.step? a = none := by
      intro a
      rw [← Option.not_isSome_iff_eq_none]
      exact fun ha => hmove ⟨a, ha⟩
    obtain ⟨notes, hrun⟩ := halone.run
    obtain ⟨c', hc', hcancelled', -⟩ := hrun.turns_le_owed hcancelled hc
    have hheld' := halone.held_eq.trans hheld
    obtain ⟨-, hended⟩ := (hrun.lined h).ended_of_rest hcancelled' hheld' hrest
    exact .inr ⟨c', hc', hended index c' hc'⟩

/-- **An annotator never runs ahead of its period.** When an annotator is started in a state that
can be reached, then after every run from there on

* it has stored a timestamp for every period that has passed since, or fewer;
* it has stored one for every such period if its timer was never looked at too late, shutdown was
  not requested and everybody has come to rest; and sleeping keeps it that way;
* if shutdown was requested it stores no more than the one timestamp for which it waits for the
  lock, and then ends: every order of steps comes to an end, and as long as the annotator has not
  ended there is one more step, unless someone outside holds the lock. -/
theorem Run.keeps_pace (hfresh : Fresh start) (hrun : Run start notes s) (hperiod : 0 < period)
    (hlater : Run (s.handle (.annotate period)) notes' s') :
    (s.clock ≤ s'.clock ∧
      stamps s.annotators.length notes' ≤ (s'.clock - s.clock) / period) ∧
    (Timely (s.handle (.annotate period)) notes' s' → s'.held = false → s'.cancelled = false →
      (∀ a, s'.step? a = none) →
      (s'.epoch + s'.clock < 2 ^ 64 →
        stamps s.annotators.length notes' = (s'.clock - s.clock) / period) ∧
      ∀ ms, (s'.sleep ms).clock = s'.clock + ms ∧ (s'.sleep ms).held = false ∧
        (s'.sleep ms).cancelled = false ∧ (∀ a, (s'.sleep ms).step? a = none) ∧
        ∃ notes'', Timely (s.handle (.annotate period)) (notes' ++ notes'') (s'.sleep ms)) ∧
    (s'.cancelled = true → ∃ c, s'.annotators[s.annotators.length]? = some c ∧
      (∀ notes'' s'', Run s' notes'' s'' → stamps s.annotators.length notes'' ≤ c.owed) ∧
      (s'.held = false → ∀ n s'', Alone s' n s'' → n ≤ s'.work ∧
        ((∃ a, (s''.step? a).isSome = true) ∨
          ∃ c', s''.annotators[s.annotators.length]? = some c' ∧ c'.phase = .ended))) := by
  have hlined : Lined s' := hlater.lined ((hrun.lined hfresh.lined).act (.event (.annotate period)))
  obtain ⟨c, drift, hc, hscheduled⟩ := hlater.scheduled (getElem?_handle_annotate s period)
    (Annotator.scheduled_start period s.clock)
  refine ⟨⟨hlater.clock.1, ?_⟩, fun htimely hheld hgoing hrest => ?_, fun hcancelled => ?_⟩
  · rw [Nat.zero_add] at hscheduled
    exact Nat.le_trans (stamps_le_turns _ _) (hscheduled.turns_le hperiod)
  · have hcalm : s'.Calm := ⟨hlined, hheld, hrest⟩
    refine ⟨fun htime => htimely.stamps_eq hperiod hcalm hgoing htime, fun ms => ?_⟩
    obtain ⟨notes'', hslept, hcalm', hclock, hcancelled⟩ := hcalm.sleep htimely ms
    exact ⟨hclock, hcalm'.held, hcancelled.trans hgoing, hcalm'.rest, notes'', hslept⟩
  · refine ⟨c, hc, fun notes'' s'' hrun' => ?_, fun hheld n s'' halone =>
      hlined.annotator_ends hcancelled hheld hc halone⟩
    obtain ⟨c', -, -, hle⟩ := hrun'.turns_le_owed hcancelled hc
    have hstamps := stamps_le_turns s.annotators.length notes''
    omega

/-- Two periods of ten milliseconds pass in 25 milliseconds. -/
theorem keeps_pace_of_sleep :
    ∃ notes s, Timely (handle { engine := .inMemory, host := {} } (.annotate 10)) notes s ∧
      s.clock = 25 ∧ stamps 0 notes = 2 := by
  have hfresh : Fresh { engine := .inMemory, host := {} } := ⟨rfl, rfl, rfl, rfl⟩
  have hrest : (handle { engine := .inMemory, host := {} } (.annotate 10)).firstMove?
      [.annotator 0] = none := by decide +kernel
  have hcalm : (handle { engine := .inMemory, host := {} } (.annotate 10)).Calm :=
    ⟨hfresh.lined.act (.event (.annotate 10)), rfl, rest_of_firstMove? hrest (List.Subset.refl _)⟩
  obtain ⟨notes, h, hcalm', hclock, hgoing⟩ := hcalm.sleep .refl 25
  rw [List.nil_append] at h
  obtain ⟨-, hpace, -⟩ := Run.keeps_pace hfresh .refl (by decide : 0 < 10) h.run
  have hepoch := h.run.clock.2
  refine ⟨_, _, h, hclock, ((hpace h hcalm'.held hgoing hcalm'.rest).1 ?_).trans ?_⟩
  · rw [hclock, hepoch]
    decide
  · rw [hclock]
    rfl

end Service

end CommandLog
