import CommandLog.Engine.Answer
import CommandLog.Proofs.Journal.File
import CommandLog.Proofs.Ring.Suffix

/-!
# Appends and answers

What an append does to the ring and to the metrics does not depend on the disk. The journal has a
say in one thing only: whether the command is stored at all.

* `CommandLog.Engine.accepts` – whether an engine stores a payload: it has no journal, or the
  payload fits a record;
* `CommandLog.Engine.append_of_refused` and `CommandLog.Engine.append_of_accepted` – **the two
  outcomes of an append**. A refused payload changes nothing, and an accepted one goes to the ring,
  whatever becomes of the journal afterwards;
* `CommandLog.Engine.response` – what a request is answered with, by the entries stored so far and
  nothing else;
* `CommandLog.Engine.answer_seek` and `CommandLog.Engine.answer_append` – the answers of an engine
  are these;
* `CommandLog.Engine.carryOut` – requests carried out one after the other, which takes of the host
  nothing but the disk (`CommandLog.Engine.answer_of_disk`).
-/

namespace CommandLog.Engine

open CommandLog.Ring (span)

variable {e : Engine} {payload : Bytes} {h : Host} {es : List Entry}

/-! ### The two outcomes of an append -/

/-- Whether an engine stores a payload. -/
def accepts (e : Engine) (payload : Bytes) : Bool :=
  e.journal.isNone || Journal.fits payload

theorem accepts_of_fits (hfits : Journal.fits payload = true) : e.accepts payload = true := by
  rw [accepts, hfits, Bool.or_true]

/-- The metrics after one more entry. -/
def counted (ring : CommandRing) (payload : Bytes) (m : Metrics) : Metrics :=
  { m with
    commandsAppended := m.commandsAppended + 1
    entriesEvicted :=
      m.entriesEvicted + if (ring.append { bytes := payload }).1.isSome then 1 else 0
    logBytes := (ring.append { bytes := payload }).2.totalBytes }

/-- **A payload that is refused changes nothing**, neither the engine nor the disk nor the
metrics. -/
theorem append_of_refused (hrefused : e.accepts payload = false) :
    e.append payload h = (.error (.journal (.io .recordTooLong)), e, h) := by
  rw [accepts, Bool.or_eq_false_iff] at hrefused
  obtain ⟨hjournal, hfits⟩ := hrefused
  obtain ⟨ring, journal, path⟩ := e
  cases journal with
  | none => cases hjournal
  | some w => simp [append, record, Journal.Writer.append, hfits]

/-- The journal takes an accepted payload, and neither the ring nor the path is touched by it. -/
theorem record_of_accepted (haccepted : e.accepts payload = true) (d : Disk) :
    ∃ e' d', e.record payload d = (.ok (), e', d') ∧ e'.ring = e.ring ∧ e'.path = e.path ∧
      (e.journal = none → e' = e) := by
  rw [accepts, Bool.or_eq_true] at haccepted
  cases hjournal : e.journal with
  | none => exact ⟨e, d, by simp [record, hjournal], rfl, rfl, fun _ => rfl⟩
  | some w =>
    have hfits : Journal.fits payload = true := by
      rcases haccepted with hnone | hfits
      · rw [hjournal] at hnone
        cases hnone
      · exact hfits
    refine ⟨{ e with journal := some { w with nextSeq := w.nextSeq + 1 } },
      d.write w.file (Journal.Record.encode { seq := w.nextSeq, payload }), ?_, rfl, rfl, ?_⟩
    · simp only [record, hjournal, Journal.append_eq hfits]
    · intro hnone
      cases hnone

/-- Replacing the journal touches neither the ring nor the path. -/
theorem compact_frame (e : Engine) (d : Disk) :
    (e.compact d).1.ring = e.ring ∧ (e.compact d).1.path = e.path := by
  unfold compact
  split
  · exact ⟨rfl, rfl⟩
  · split
    · exact ⟨rfl, rfl⟩
    · split <;> exact ⟨rfl, rfl⟩

/-- **A payload that is accepted goes to the ring** and is counted. -/
theorem append_of_accepted (haccepted : e.accepts payload = true) :
    ∃ e' d', e.append payload h = (.ok (e.ring.append { bytes := payload }).1, e',
        { disk := d', metrics := counted e.ring payload h.metrics }) ∧
      e'.ring = (e.ring.append { bytes := payload }).2 ∧
      (e.journal = none → e'.journal = none) := by
  -- once the record is written nothing can fail any more
  obtain ⟨e₁, d₁, hrecord, hring, hpath, hnone⟩ := record_of_accepted haccepted h.disk
  simp only [append, hrecord, store, hring]
  split
  · next hoversized =>
    refine ⟨_, _, rfl, (compact_frame _ _).1, ?_⟩
    intro hjournal
    -- without a journal there is nothing that could have grown too long
    rw [hnone hjournal] at hoversized
    simp [isOversized, hjournal] at hoversized
  · refine ⟨_, _, rfl, rfl, ?_⟩
    intro hjournal
    simp [hnone hjournal, hjournal]

theorem append_isOk (e : Engine) (payload : Bytes) (h : Host) :
    (e.append payload h).1.isOk = e.accepts payload := by
  cases haccepts : e.accepts payload with
  | false =>
    rw [append_of_refused haccepts]
    rfl
  | true =>
    obtain ⟨e', d', happend, -⟩ := append_of_accepted (h := h) haccepts
    rw [happend]
    rfl

/-- An engine without a journal never gets one. -/
theorem journal_append_of_none (hjournal : e.journal = none) :
    (e.append payload h).2.1.journal = none := by
  have haccepts : e.accepts payload = true := by simp [accepts, hjournal]
  obtain ⟨e', d', happend, -, hnone⟩ := append_of_accepted (h := h) haccepts
  rw [happend]
  exact hnone hjournal

/-- **The ring after an append**, as far as the entries stored so far determine it. -/
theorem retains_append (hring : e.ring.Retains es) (payload : Bytes) (h : Host) :
    (e.append payload h).2.1.ring.Retains
      (es ++ if e.accepts payload then [{ bytes := payload }] else []) := by
  cases haccepts : e.accepts payload with
  | false =>
    rw [append_of_refused haccepts]
    simpa using hring
  | true =>
    obtain ⟨e', d', happend, hring', -⟩ := append_of_accepted (h := h) haccepts
    rw [happend, if_pos rfl]
    change e'.ring.Retains _
    rw [hring']
    exact hring.append _

/-! ### Answers -/

/-- The last entries stored, as one string. -/
def retainedLog (es : List Entry) : Bytes :=
  ((es.rtake retainedCommands).map Entry.bytes).flatten

/-- **What a request is answered with**, when the given entries have been stored up to and
including the request itself: a stored command with the whole log, a position in the log with the
log from there on, and anything else with nothing. -/
def response (es : List Entry) : Request → Option Bytes
  | .append _ => some (retainedLog es)
  | .seek index offset =>
    match (es.rtake retainedCommands)[index.toNat]? with
    | some e =>
      if offset.toNat < e.size then
        some ((retainedLog es).drop
          (span ((es.rtake retainedCommands).take index.toNat) + offset.toNat))
      else none
    | none => none
  | .rejected => none

theorem readFrom_eq (hring : e.ring.Retains es) (offset : Nat) :
    e.readFrom offset = (retainedLog es).drop offset := by
  rw [readFrom, hring.readFrom_eq, hring.logicalLog_eq, retainedLog]

/-- **A command that is carried out is stored**, whatever it is answered with. -/
theorem after_answer_append (e : Engine) (h : Host) (line : Bytes) :
    (e.answer h (.append line)).2 = (e.append line h).2 := by
  simp only [answer]
  split
  · next happend => rw [happend]
  · next happend => rw [happend]

/-- It is answered just when it has been stored. -/
theorem isSome_answer_append (e : Engine) (h : Host) (line : Bytes) :
    (e.answer h (.append line)).1.isSome = (e.append line h).1.isOk := by
  simp only [answer]
  split
  · next happend => rw [happend]; rfl
  · next happend => rw [happend]; rfl

/-- Whatever else is carried out touches neither the engine nor the disk. -/
theorem after_answer_of_ne_append {r : Request} (hr : ∀ line, r ≠ .append line) :
    (e.answer h r).2.1 = e ∧ (e.answer h r).2.2.disk = h.disk := by
  cases r with
  | append line => exact absurd rfl (hr line)
  | seek index offset =>
    simp only [answer]
    split <;> exact ⟨rfl, rfl⟩
  | rejected => exact ⟨rfl, rfl⟩

/-- **A seek is answered by the position alone**, and changes neither the engine nor the disk. -/
theorem answer_seek (hring : e.ring.Retains es) (index offset : UInt32) :
    (e.answer h (.seek index offset)).1 = response es (.seek index offset) ∧
      (e.answer h (.seek index offset)).2.1 = e := by
  simp only [answer, seek, hring.translate_eq, response]
  cases (es.rtake retainedCommands)[index.toNat]? with
  | none => exact ⟨rfl, rfl⟩
  | some entry =>
    by_cases hlt : offset.toNat < entry.size
    · simp [hlt, readFrom_eq hring]
    · simp [hlt]

/-- **A command that is stored is answered with the whole log**, itself included; one that is
refused is not answered. -/
theorem answer_append (hring : e.ring.Retains es) (line : Bytes) :
    (e.answer h (.append line)).1 =
        (if e.accepts line then response (es ++ [{ bytes := line }]) (.append line) else none) ∧
      (e.answer h (.append line)).2.1 = (e.append line h).2.1 := by
  cases haccepts : e.accepts line with
  | false =>
    simp [answer, append_of_refused haccepts]
  | true =>
    obtain ⟨e', d', happend, hring', -⟩ := append_of_accepted (h := h) haccepts
    have hafter : e'.ring.Retains (es ++ [{ bytes := line }]) := by
      rw [hring']
      exact hring.append _
    simp [answer, happend, response, readFrom_eq hafter]

/-- Whatever stores nothing is answered by the log alone. -/
theorem answer_eq_response (hring : e.ring.Retains es) {r : Request}
    (hr : ∀ line, r ≠ .append line) : (e.answer h r).1 = response es r := by
  cases r with
  | append line => exact absurd rfl (hr line)
  | seek index offset => exact (answer_seek hring index offset).1
  | rejected => rfl

/-! ### Several requests -/

/-- An append does not look at the metrics. -/
theorem append_of_disk (e : Engine) (payload : Bytes) (h : Host) :
    (e.append payload h).1 = (e.append payload { disk := h.disk }).1 ∧
      (e.append payload h).2.1 = (e.append payload { disk := h.disk }).2.1 ∧
      (e.append payload h).2.2.disk = (e.append payload { disk := h.disk }).2.2.disk := by
  simp only [append]
  rcases e.record payload h.disk with ⟨_ | _, e', d⟩
  · exact ⟨rfl, rfl, rfl⟩
  · cases hoversized :
        ({ e' with ring := (e'.ring.append { bytes := payload }).2 } : Engine).isOversized <;>
      simp [store, hoversized]

/-- Nor does anything else that is carried out. -/
theorem answer_of_disk (e : Engine) (h : Host) (r : Request) :
    (e.answer h r).1 = (e.answer { disk := h.disk } r).1 ∧
      (e.answer h r).2.1 = (e.answer { disk := h.disk } r).2.1 ∧
      (e.answer h r).2.2.disk = (e.answer { disk := h.disk } r).2.2.disk := by
  cases r with
  | append line =>
    have hsame := append_of_disk e line h
    simp only [answer]
    generalize e.append line h = outcome at hsame
    generalize e.append line { disk := h.disk } = outcome' at hsame
    obtain ⟨result, e₁, h₁⟩ := outcome
    obtain ⟨_, _, h₂⟩ := outcome'
    obtain ⟨rfl, rfl, hdisk⟩ := hsame
    cases result <;> exact ⟨rfl, rfl, hdisk⟩
  | seek index offset =>
    simp only [answer]
    cases e.seek index.toNat offset.toNat <;> exact ⟨rfl, rfl, rfl⟩
  | rejected => exact ⟨rfl, rfl, rfl⟩

/-- **Requests carried out one after the other**, with the answers in their order. -/
def carryOut (e : Engine) (d : Disk) : List Request → List Bytes × Engine × Disk
  | [] => ([], e, d)
  | r :: rs =>
    let (answer, e, h) := e.answer { disk := d } r
    let (answers, last) := e.carryOut h.disk rs
    (answer.toList ++ answers, last)

@[simp] theorem carryOut_nil (e : Engine) (d : Disk) : e.carryOut d [] = ([], e, d) := rfl

theorem carryOut_singleton (e : Engine) (h : Host) (r : Request) :
    e.carryOut h.disk [r] =
      ((e.answer h r).1.toList, (e.answer h r).2.1, (e.answer h r).2.2.disk) := by
  obtain ⟨hanswer, hengine, hdisk⟩ := e.answer_of_disk h r
  rw [hanswer, hengine, hdisk]
  simp [carryOut]

theorem carryOut_append (e : Engine) (d : Disk) (rs rs' : List Request) :
    e.carryOut d (rs ++ rs') =
      ((e.carryOut d rs).1 ++ ((e.carryOut d rs).2.1.carryOut (e.carryOut d rs).2.2 rs').1,
        ((e.carryOut d rs).2.1.carryOut (e.carryOut d rs).2.2 rs').2) := by
  induction rs generalizing e d with
  | nil => rfl
  | cons r rs ih => simp [carryOut, ih]

/-! ### Metrics -/

/-- An append changes only what it counts. -/
theorem metric_append {α : Type} {f : Metrics → α}
    (hcounted : ∀ ring payload m, f (counted ring payload m) = f m)
    (e : Engine) (payload : Bytes) (h : Host) :
    f (e.append payload h).2.2.metrics = f h.metrics := by
  cases haccepts : e.accepts payload with
  | false => rw [append_of_refused haccepts]
  | true =>
    obtain ⟨e', d', happend, -⟩ := append_of_accepted (h := h) haccepts
    rw [happend]
    exact hcounted e.ring payload h.metrics

/-- Whatever stores nothing changes only the numbers of seeks. -/
theorem metric_answer_of_ne_append {α : Type} {f : Metrics → α}
    (hseeks : ∀ m seeks seeksRejected, f { m with seeks, seeksRejected } = f m)
    (e : Engine) (h : Host) {r : Request} (hr : ∀ line, r ≠ .append line) :
    f (e.answer h r).2.2.metrics = f h.metrics := by
  cases r with
  | append line => exact absurd rfl (hr line)
  | seek index offset =>
    simp only [answer]
    split <;> exact hseeks ..
  | rejected => exact hseeks ..

/-- An answer changes only what appends count and the numbers of seeks. -/
theorem metric_answer {α : Type} {f : Metrics → α}
    (hcounted : ∀ ring payload m, f (counted ring payload m) = f m)
    (hseeks : ∀ m seeks seeksRejected, f { m with seeks, seeksRejected } = f m)
    (e : Engine) (h : Host) (r : Request) :
    f (e.answer h r).2.2.metrics = f h.metrics := by
  cases r with
  | append line =>
    rw [after_answer_append]
    exact metric_append hcounted e line h
  | seek | rejected => exact metric_answer_of_ne_append hseeks e h (by simp)

/-- Appends have nothing to do with the commands that are dropped. -/
theorem commandsAborted_append (e : Engine) (payload : Bytes) (h : Host) :
    (e.append payload h).2.2.metrics.commandsAborted = h.metrics.commandsAborted :=
  metric_append (f := Metrics.commandsAborted) (fun _ _ _ => rfl) e payload h

theorem commandsAborted_answer (e : Engine) (h : Host) (r : Request) :
    (e.answer h r).2.2.metrics.commandsAborted = h.metrics.commandsAborted :=
  metric_answer (f := Metrics.commandsAborted) (fun _ _ _ => rfl) (fun _ _ _ => rfl) e h r

/-- Nor with the sessions. -/
theorem sessionsActive_append (e : Engine) (payload : Bytes) (h : Host) :
    (e.append payload h).2.2.metrics.sessionsActive = h.metrics.sessionsActive :=
  metric_append (f := Metrics.sessionsActive) (fun _ _ _ => rfl) e payload h

theorem sessionsActive_answer (e : Engine) (h : Host) (r : Request) :
    (e.answer h r).2.2.metrics.sessionsActive = h.metrics.sessionsActive :=
  metric_answer (f := Metrics.sessionsActive) (fun _ _ _ => rfl) (fun _ _ _ => rfl) e h r

/-- To let go of the journal has nothing to do with the metrics. -/
theorem metrics_close (e : Engine) (purge : Bool) (h : Host) :
    (e.close purge h).2.2.metrics = h.metrics := by
  unfold close
  split
  · split <;> rfl
  · rfl

end CommandLog.Engine
