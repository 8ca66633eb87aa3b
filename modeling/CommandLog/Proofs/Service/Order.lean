import CommandLog.Proofs.Engine.Append
import CommandLog.Proofs.Service.History
import CommandLog.Proofs.Session.Output

/-!
# One log for everybody

Sessions, annotators and whoever is outside store their commands in one log, in the order in which
they get the engine's lock. The notes of a run are taken in that order, so the log at any time is
read off the notes up to then, and so is every answer.

* `CommandLog.Service.Note.Right` – **what a note must say**, given the entries stored before it
  was taken;
* `CommandLog.Service.Ordered` – the engine's ring retains what the notes say was stored, and every
  note is right;
* `CommandLog.Service.Ordered.act` – **every move keeps this up**;
* `CommandLog.Service.Run.order` – all sessions see one and the same log, each of them has its
  lines carried out in the order of its stream, and what it sends are its answers in that order.

An append and the answer to it are one move, so that nobody can come between them. An answer that
is still being sent while others store commands is not touched by them: it is a part of the
session by then, and not of the engine.
-/

namespace CommandLog.Service

open Session (Deed)

variable {start s s' : Service} {notes : List Note} {before log : List Entry} {journaled : Bool}

/-! ### Right notes -/

/-- **What a note must say**, when the given entries had been stored before it was taken. A stored
command is answered with the log that ends in it, everything else with what the log is asked for.
A command is refused only by an engine that has a journal, and only when it does not fit a
record. -/
def Note.Right (journaled : Bool) (log : List Entry) : Note → Prop
  | .session _ (.served (.append line) answer) =>
    answer = Engine.response (log ++ [{ bytes := line }]) (.append line) ∨
      answer = none ∧ journaled ∧ Journal.fits line = false
  | .session _ (.served request answer) => answer = Engine.response log request
  | .session _ _ => True
  | .annotated _ payload stored => stored ∨ journaled ∧ Journal.fits payload = false
  | .appended payload stored => stored ∨ journaled ∧ Journal.fits payload = false

/-- **A service whose notes account for its log.** -/
structure Ordered (journaled : Bool) (before : List Entry) (notes : List Note) (s : Service) :
    Prop where
  /-- The ring retains what the notes say was stored. -/
  ring : s.engine.ring.Retains (before ++ stored notes)
  /-- An engine without a journal never gets one. -/
  journal : journaled = false → s.engine.journal = none
  /-- Every note is right about the log at its time. -/
  right : ∀ (j : Nat) (note : Note), notes[j]? = some note →
    note.Right journaled (before ++ stored (notes.take j))

/-- A note at the end leaves the others at their places. -/
theorem Ordered.note (h : Ordered journaled before notes s) {note : Note}
    (hring : s'.engine.ring.Retains (before ++ stored (notes ++ [note])))
    (hjournal : s.engine.journal = none → s'.engine.journal = none)
    (hright : note.Right journaled (before ++ stored notes)) :
    Ordered journaled before (notes ++ [note]) s' where
  ring := hring
  journal hnone := hjournal (h.journal hnone)
  right j note' hnote := by
    rcases Nat.lt_or_ge j notes.length with hlt | hge
    · -- an older note, and what was stored before it
      rw [List.getElem?_append_left hlt] at hnote
      rw [List.take_append_of_le_length (Nat.le_of_lt hlt)]
      exact h.right j note' hnote
    · -- the new note, after all the others
      rw [List.getElem?_append_right hge, List.getElem?_singleton] at hnote
      split at hnote
      · next hzero =>
        cases hnote
        obtain rfl : j = notes.length := Nat.le_antisymm (Nat.le_of_sub_eq_zero hzero) hge
        rwa [List.take_left]
      · cases hnote

/-- Notes about nothing that concerns the engine. -/
theorem Ordered.idle (h : Ordered journaled before notes s) (hengine : s'.engine = s.engine)
    {ds : List Deed} (hds : ∀ r a, Deed.served r a ∉ ds) (hone : ds.length ≤ 1) (id : SessionId) :
    Ordered journaled before (notes ++ ds.map (.session id)) s' := by
  match ds, hone with
  | [], _ =>
    rw [List.map_nil, List.append_nil]
    exact ⟨hengine ▸ h.ring, hengine ▸ h.journal, h.right⟩
  | [d], _ =>
    have hstored : stored [Note.session id d] = [] := by
      cases d with
      | served r a => exact absurd List.mem_cons_self (hds r a)
      | _ => rfl
    refine h.note ?_ (fun hnone => hengine ▸ hnone) ?_
    · rw [stored_append, hstored, List.append_nil, hengine]
      exact h.ring
    · cases d with
      | served r a => exact absurd List.mem_cons_self (hds r a)
      | _ => exact trivial

/-! ### The moves of a session -/

/-- A session carries out nothing by itself. -/
theorem served_notMem_of_act {cancelled : Bool} {x x' : Session} {e : Session.Effect}
    {ds : List Deed} (hact : x.Act cancelled e ds x') (r : Request) (a : Option Bytes) :
    Deed.served r a ∉ ds := by
  cases hact <;> simp

theorem length_le_of_act {cancelled : Bool} {x x' : Session} {e : Session.Effect}
    {ds : List Deed} (hact : x.Act cancelled e ds x') : ds.length ≤ 1 := by
  cases hact <;> simp

@[simp] theorem engine_absorb (s : Service) (id : SessionId) (e : Session.Effect) :
    (s.absorb id e).engine = s.engine := by
  cases e <;> rfl

/-- A payload that is refused does not fit a record, and there is a journal that it must fit. -/
theorem Ordered.journaled_of_refused (h : Ordered journaled before notes s) {payload : Bytes}
    (hrefused : s.engine.accepts payload = false) :
    journaled ∧ Journal.fits payload = false := by
  rw [Engine.accepts, Bool.or_eq_false_iff] at hrefused
  refine ⟨?_, hrefused.2⟩
  rcases Bool.eq_false_or_eq_true journaled with htrue | hfalse
  · exact htrue
  · rw [h.journal hfalse] at hrefused
    exact absurd hrefused.1 Bool.noConfusion

/-- **A request is carried out.** -/
theorem Ordered.serve (h : Ordered journaled before notes s) (id : SessionId) (x : Session)
    (r : Request) :
    Ordered journaled before (notes ++ [.session id (.served r (s.engine.answer s.host r).1)])
      (s.serve id x r) := by
  have hengine : (s.serve id x r).engine = (s.engine.answer s.host r).2.1 := rfl
  cases r with
  | append line =>
    obtain ⟨hanswer, hafter⟩ := Engine.answer_append (h := s.host) h.ring line
    rw [hanswer]
    cases haccepts : s.engine.accepts line with
    | false =>
      refine h.note ?_ ?_ (.inr ⟨rfl, h.journaled_of_refused haccepts⟩)
      · rw [hengine, hafter, Engine.append_of_refused haccepts]
        simpa [stored, Note.stored] using h.ring
      · intro hnone
        rw [hengine, hafter]
        exact Engine.journal_append_of_none hnone
    | true =>
      refine h.note ?_ ?_ (.inl (if_pos rfl))
      · have hring := Engine.retains_append h.ring line s.host
        rw [haccepts] at hring
        rw [hengine, hafter]
        simpa [stored, Note.stored, Engine.response] using hring
      · intro hnone
        rw [hengine, hafter]
        exact Engine.journal_append_of_none hnone
  | seek index offset =>
    obtain ⟨hanswer, hafter⟩ := Engine.answer_seek (h := s.host) h.ring index offset
    refine h.note ?_ ?_ hanswer
    · rw [hengine, hafter]
      simpa [stored, Note.stored] using h.ring
    · intro hnone
      rwa [hengine, hafter]
  | rejected =>
    refine h.note ?_ (fun hnone => hnone) rfl
    change s.engine.ring.Retains _
    simpa [stored, Note.stored] using h.ring

/-! ### The other moves -/

/-- What is stored is what the engine accepts. -/
theorem stored_of_note {payload : Bytes} {note : Note}
    (hstored : note.stored = if s.stores payload then [payload] else []) :
    stored [note] = if s.engine.accepts payload then [{ bytes := payload }] else [] := by
  rw [stored, List.flatMap_singleton, hstored, stores, Engine.append_isOk]
  split <;> rfl

/-- **A command that comes from nobody's session**: a timestamp, or one from outside. -/
theorem Ordered.append (h : Ordered journaled before notes s) {payload : Bytes} {note : Note}
    (hengine : s'.engine = (s.engine.append payload s.host).2.1)
    (hstored : note.stored = if s.stores payload then [payload] else [])
    (hright : note.Right journaled (before ++ stored notes) =
      (s.stores payload = true ∨ journaled ∧ Journal.fits payload = false)) :
    Ordered journaled before (notes ++ [note]) s' := by
  have hstores : s.stores payload = s.engine.accepts payload := Engine.append_isOk _ _ _
  refine h.note ?_ ?_ ?_
  · have hring := Engine.retains_append h.ring payload s.host
    rw [hengine, stored_append, stored_of_note hstored, ← List.append_assoc]
    exact hring
  · intro hnone
    rw [hengine]
    exact Engine.journal_append_of_none hnone
  · rw [hright, hstores]
    cases haccepts : s.engine.accepts payload with
    | true => exact .inl rfl
    | false => exact .inr (h.journaled_of_refused haccepts)

theorem Ordered.handle (h : Ordered journaled before notes s) (e : Event) :
    Ordered journaled before (notes ++ s.noted (.event e)) (s.handle e) := by
  cases e with
  | append payload =>
    simp only [noted, Service.handle]
    split
    · refine h.append rfl ?_ rfl
      cases s.stores payload <;> rfl
    · rw [List.append_nil]
      exact h
  | _ =>
    rw [noted, List.append_nil]
    · exact ⟨h.ring, h.journal, h.right⟩
    · intro payload hpayload
      cases hpayload

/-- **Every move keeps the log in order.** -/
theorem Ordered.act (h : Ordered journaled before notes s) {notes' : List Note}
    (hact : s.Act notes' s') : Ordered journaled before (notes ++ notes') s' := by
  cases hact with
  | event e => exact h.handle e
  | @serve id x r _ _ _ => exact h.serve id x r
  | session _ hadvance =>
    have hown := Session.act_of_advance? hadvance
    exact h.idle (by rw [engine_absorb, setSession]) (served_notMem_of_act hown)
      (length_le_of_act hown) _
  | @annotate _ _ stamp =>
    refine h.append rfl ?_ rfl
    cases s.stores stamp.bytes <;> rfl
  | wake =>
    rw [List.append_nil]
    exact ⟨h.ring, h.journal, h.right⟩

theorem Run.ordered (hrun : Run start notes s) (hlog : start.engine.ring.Retains before) :
    Ordered start.engine.journal.isSome before notes s := by
  induction hrun with
  | refl =>
    refine ⟨by simpa using hlog, ?_, ?_⟩
    · intro hnone
      rwa [Option.isSome_eq_false_iff, Option.isNone_iff_eq_none] at hnone
    · intro j note hnote
      cases hnote
  | move _ c hnext ih => exact ih.act (act_of_next? hnext)

/-- **One log, and everybody in order.** In every run from a service without sessions, whose log
holds the given entries,

* every note is right about the log at its time: a command was answered with the last entries
  stored up to and including itself, and a position with the part of the log behind it;
* the log is the last entries stored, by whomever;
* every session has had lines of its stream carried out in the order of the stream, none twice
  and none left out before the last of them;
* what a session has put on its transport is the beginning of the answers to these, in the same
  order, and all of them when it waits for input. -/
theorem Run.order (hnew : start.sessions = []) (hlog : start.engine.ring = Ring.ofList before)
    (hrun : Run start notes s) :
    (∀ (j : Nat) (note : Note), notes[j]? = some note →
      note.Right start.engine.journal.isSome (before ++ stored (notes.take j))) ∧
    s.engine.ring.entries = (before ++ stored notes).rtake retainedCommands ∧
    ∀ id x, s.sessions[id]? = some x →
      Session.requests (deedsOf id notes) <+:
          (Session.accepted x.limit (Session.received (deedsOf id notes))).map Request.ofLine ∧
        x.transport.output <+: (Session.replies (deedsOf id notes)).flatten ∧
        (x.phase = .receiving →
          x.transport.output = (Session.replies (deedsOf id notes)).flatten) := by
  have hretains : start.engine.ring.Retains before := by
    rw [hlog]
    exact Ring.retains_ofList (by decide) before
  have hordered := hrun.ordered hretains
  refine ⟨hordered.right, hordered.ring.entries_eq, ?_⟩
  intro id x hx
  obtain ⟨limit, hpast⟩ := hrun.past hnew hx
  obtain ⟨done, pending, hframed⟩ := hpast.framed
  have hreplied := hpast.replied
  refine ⟨hframed.requests_prefix_accepted, hreplied.isFront, ?_⟩
  intro hphase
  have hmissing := hreplied.missing (by rw [hphase]; rfl)
  simpa [hphase, Session.Phase.unsent] using hmissing

/-- Two sessions and someone outside store one line each. The first session has asked for the lock
before the others store theirs, and its peer takes one byte at a time. -/
def threeWriters : List Choice :=
  [.event (.connect 9), .event (.connect 9), .event (.allow 0 (some 1)),
    .event (.deliver 0 [0x61, 0x0a]), .event .hold] ++
    List.replicate 4 (.actor (.session 0)) ++
  [.event (.append [0x62, 0x0a]), .event .release] ++ List.replicate 2 (.actor (.session 0)) ++
  [.event (.deliver 1 [0x63, 0x0a])] ++ List.replicate 8 (.actor (.session 1)) ++
  [.event (.allow 0 none)] ++ List.replicate 3 (.actor (.session 0))

/-- The first session is answered with the log that ends in its own line, although another line
has been stored by the time its answer is through. -/
theorem order_of_threeWriters :
    ∃ notes s, Run { engine := .inMemory, host := {} } notes s ∧
      s.engine.ring.entries =
        [{ bytes := [0x62, 0x0a] }, { bytes := [0x61, 0x0a] }, { bytes := [0x63, 0x0a] }] ∧
      ∃ x, s.sessions[0]? = some x ∧ x.transport.output = [0x62, 0x0a, 0x61, 0x0a] := by
  have hrun := Run.play (.refl : Run { engine := .inMemory, host := {} } [] _) threeWriters
  have hempty : Engine.inMemory.ring = Ring.ofList [] := rfl
  obtain ⟨-, hentries, hsessions⟩ := Run.order rfl hempty hrun
  have hquiet : (play { engine := .inMemory, host := {} } threeWriters).2.sessions[0]?.any
      (·.phase = .receiving) := by decide +kernel
  obtain ⟨x, hx, hphase⟩ := (Option.any_eq_true _ _).mp hquiet
  obtain ⟨-, -, houtput⟩ := hsessions 0 x hx
  refine ⟨_, _, hrun, hentries.trans ?_, x, hx, (houtput (of_decide_eq_true hphase)).trans ?_⟩
  · decide +kernel
  · decide +kernel

end CommandLog.Service
