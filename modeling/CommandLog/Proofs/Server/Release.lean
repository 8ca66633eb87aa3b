import CommandLog.Proofs.Server.Stop
import CommandLog.Proofs.Service.Journal

/-!
# The journal is let go of last

A server lets go of its journal in its last step. By then every session and every annotator has
ended, so whatever was stored is in the journal, and nothing is stored behind its back.

* `CommandLog.Server.Released` – **what is left of a journal** that was let go of;
* `CommandLog.Server.Keeping` – the journal mirrors the log until the server has stopped, and has
  been let go of afterwards (`CommandLog.Server.Keeping.act`);
* `CommandLog.Server.Supervised.act_of_joined` – **nobody does anything any more** once everybody
  has been waited for;
* `CommandLog.Server.Run.release` – **the end of a server with a journal**, in every run.

That a session is not yet registered or not registered any more is no reason for it to be
overlooked: it is registered from the move that starts it until the move that waits for its end.
-/

namespace CommandLog.Server

open Service (Journaled Note stored stored_nil stored_append)

variable {start s s' : Server} {notes notes' : List Note} {path : Path} {log : List Entry}

/-! ### A journal that was let go of -/

/-- **What is left of a journal that was let go of.** -/
structure Released (path : Path) (log : List Entry) (purges : Bool) (result : Except Error Unit)
    (s : Service) : Prop where
  /-- It has not failed. -/
  result_eq : result = .ok ()
  /-- The ring retains the log. -/
  ring : s.engine.ring.Retains log
  /-- A journal that is kept reads back, and what it holds last is what the log holds last. -/
  kept : purges = false → ∃ ps, Journal.load s.host.disk path = .ok (.of ps none) ∧
    (ps.map Entry.mk).rtake retainedCommands = log.rtake retainedCommands
  /-- A journal that is not kept is gone. -/
  gone : purges = true → s.host.disk.locate path = .ok none

theorem released_of_close {purges : Bool} {result : Except Error Unit} {engine : Engine}
    {host : Host} {s : Service} (h : Journaled path log s)
    (hclose : s.engine.close purges s.host = (result, engine, host)) :
    Released path log purges result { s with engine, host } := by
  obtain ⟨ps, hm⟩ := h
  obtain ⟨d', hclosed, hkept, hgone⟩ := hm.close purges
  rw [hclosed] at hclose
  cases hclose
  refine ⟨rfl, hm.ring, fun hkeeps => ⟨ps, ?_, hm.same⟩, hgone⟩
  rw [hkept hkeeps]
  exact hm.load_eq

/-- **What becomes of the journal of a server.** -/
structure Keeping (path : Path) (log : List Entry) (s : Server) : Prop where
  /-- Until the server has stopped it mirrors the log. -/
  journaled : (∀ result, s.stage ≠ .stopped result) → s.service.Journaled path log
  /-- Then it has been let go of. -/
  released : ∀ result, s.stage = .stopped result →
    Released path log s.settings.purgesJournal result s.service

theorem keeping_start {settings : Settings} {listening : Except Fault Unit} {e : Engine} {h : Host}
    {epoch : Nat} {ps : List Bytes} (hstart : Server.start settings listening e h epoch = .ok s)
    (hm : Engine.Mirrors path log ps e h.disk) : Keeping path log s := by
  rw [eq_of_start hstart]
  refine ⟨fun _ => ⟨ps, hm⟩, ?_⟩
  intro result hstage
  cases hstage

/-- Moves that touch neither the engine nor the disk. -/
theorem Keeping.within {service : Service} (h : Keeping path log s)
    (hengine : service.engine = s.service.engine)
    (hdisk : service.host.disk = s.service.host.disk) :
    Keeping path log { s with service } where
  journaled hgoing := (h.journaled hgoing).congr hengine hdisk
  released result hstage := by
    have hreleased := h.released result hstage
    exact
      { result_eq := hreleased.result_eq
        ring := hengine ▸ hreleased.ring
        kept := hdisk ▸ hreleased.kept
        gone := hdisk ▸ hreleased.gone }

/-- Moves of a supervisor that has not got to the end. -/
theorem Keeping.go_on (h : Keeping path log s) (hgoing : ∀ result, s.stage ≠ .stopped result)
    (hgoing' : ∀ result, s'.stage ≠ .stopped result)
    (hengine : s'.service.engine = s.service.engine)
    (hdisk : s'.service.host.disk = s.service.host.disk) : Keeping path log s' where
  journaled _ := (h.journaled hgoing).congr hengine hdisk
  released result hstage := absurd hstage (hgoing' result)

/-- Nothing outside touches the engine or the disk. -/
theorem frame_of_outside (service : Service) {e : Service.Event} (h : isOutside e = true) :
    (service.handle e).engine = service.engine ∧ (service.handle e).host = service.host := by
  cases e with
  | deliver | endInput | breakOutput | allow | cancel | hold | release | tick => exact ⟨rfl, rfl⟩
  | connect | append | reap | annotate => cases h

theorem Keeping.own (h : Keeping path log s) (hown : s.Own s') : Keeping path log s' := by
  cases hown with
  | down hstage | notice hstage | survey hstage | collect hstage | conclude hstage | drain hstage
  | join hstage =>
    exact h.go_on (by simp [hstage]) nofun rfl rfl
  | close hstage _ _ hclose =>
    refine ⟨fun hgoing => absurd rfl (hgoing _), ?_⟩
    rintro result ⟨⟩
    exact released_of_close (h.journaled (by simp [hstage])) hclose

/-- **Every move keeps account of the journal.** -/
theorem Keeping.act (h : Keeping path log s) (hsupervised : Supervised s)
    (hact : s.Act notes s') : Keeping path (log ++ stored notes) s' := by
  cases hact with
  | accept hstage | acceptFails hstage =>
    rw [stored_nil, List.append_nil]
    exact h.go_on (by simp [hstage]) nofun rfl rfl
  | own hown =>
    rw [stored_nil, List.append_nil]
    exact h.own hown
  | actor hstep =>
    have hgoing : ∀ result, s.stage ≠ .stopped result := by
      intro result hstage
      -- a server that has stopped has nobody who could take a step
      rw [Service.step?_of_ended (hsupervised.drained (by rw [hstage]; rfl))
        (hsupervised.joined (by rw [hstage]; rfl))] at hstep
      cases hstep
    exact
      { journaled := fun _ => (h.journaled hgoing).act (Service.act_of_step? hstep)
        released := fun result hstage => absurd hstage (hgoing result) }
  | event e houtside =>
    rw [stored_nil, List.append_nil]
    obtain ⟨hengine, hhost⟩ := frame_of_outside s.service houtside
    exact h.within hengine (congrArg Host.disk hhost)
  | arrive | crash =>
    rw [stored_nil, List.append_nil]
    exact h.within rfl rfl
  | finish =>
    rw [stored_nil, List.append_nil]
    exact ⟨h.journaled, h.released⟩

theorem Run.keeping (hstart : Keeping path log start) (hsupervised : Supervised start)
    (hrun : Run start notes s) : Keeping path (log ++ stored notes) s := by
  induction hrun with
  | refl => simpa using hstart
  | move hrun hact ih =>
    rw [stored_append, ← List.append_assoc]
    exact ih.act (hrun.supervised hsupervised) hact

/-! ### Nothing happens afterwards -/

theorem ring_close (e : Engine) (purge : Bool) (h : Host) :
    (e.close purge h).2.1.ring = e.ring := by
  unfold Engine.close
  split
  · split <;> rfl
  · rfl

/-- **Nobody does anything any more** once everybody has been waited for. -/
theorem Supervised.act_of_joined (h : Supervised s) (hjoined : s.stage.isJoined = true)
    (hact : s.Act notes s') :
    notes = [] ∧ s'.stage.isJoined = true ∧ s'.service.engine.ring = s.service.engine.ring ∧
      ∀ result, s.stage = .stopped result → s'.stage = .stopped result ∧
        s'.service.engine = s.service.engine ∧ s'.service.host.disk = s.service.host.disk := by
  cases hact with
  | accept hstage | acceptFails hstage =>
    rw [hstage] at hjoined
    cases hjoined
  | own hown =>
    cases hown with
    | down hstage | notice hstage | survey hstage | collect hstage | conclude hstage
    | drain hstage | join hstage =>
      rw [hstage] at hjoined
      cases hjoined
    | close hstage _ _ hclose =>
      refine ⟨rfl, rfl, ?_, by simp [hstage]⟩
      have hring := ring_close s.service.engine s.settings.purgesJournal s.service.host
      rwa [hclose] at hring
  | actor hstep =>
    rw [Service.step?_of_ended (h.drained (isDrained_of_isJoined hjoined)) (h.joined hjoined)]
      at hstep
    cases hstep
  | event e houtside =>
    obtain ⟨hengine, hhost⟩ := frame_of_outside s.service houtside
    exact ⟨rfl, hjoined, congrArg Engine.ring hengine,
      fun _ hstage => ⟨hstage, hengine, congrArg Host.disk hhost⟩⟩
  | arrive | finish | crash => exact ⟨rfl, hjoined, rfl, fun _ hstage => ⟨hstage, rfl, rfl⟩⟩

theorem Run.of_joined (h : Supervised s) (hjoined : s.stage.isJoined = true)
    (hrun : Run s notes' s') :
    notes' = [] ∧ s'.stage.isJoined = true ∧ s'.service.engine.ring = s.service.engine.ring ∧
      ∀ result, s.stage = .stopped result → s'.stage = .stopped result ∧
        s'.service.engine = s.service.engine ∧ s'.service.host.disk = s.service.host.disk := by
  induction hrun with
  | refl => exact ⟨rfl, hjoined, rfl, fun _ hstage => ⟨hstage, rfl, rfl⟩⟩
  | move hrun hact ih =>
    obtain ⟨hnotes, hjoined', hring, hstopped⟩ := ih
    obtain ⟨hnotes', hjoined'', hring', hstopped'⟩ :=
      (hrun.supervised h).act_of_joined hjoined' hact
    refine ⟨by rw [hnotes, hnotes']; rfl, hjoined'', hring'.trans hring, fun result hstage => ?_⟩
    obtain ⟨hstage', hengine, hdisk⟩ := hstopped result hstage
    obtain ⟨hstage'', hengine', hdisk'⟩ := hstopped' result hstage'
    exact ⟨hstage'', hengine'.trans hengine, hdisk'.trans hdisk⟩

/-! ### The end of a server -/

/-- What was stored is among the last entries, unless enough was stored since. -/
theorem mem_rtake_of_note {j : Nat} {note : Note} {entry : Entry} {N : Nat}
    (hnote : notes[j]? = some note) (hstored : stored [note] = [entry]) (log : List Entry)
    (hfew : (stored (notes.drop (j + 1))).length < N) : entry ∈ (log ++ stored notes).rtake N := by
  obtain ⟨hlt, rfl⟩ := List.getElem?_eq_some_iff.mp hnote
  have hsplit : stored notes =
      stored (notes.take j) ++ entry :: stored (notes.drop (j + 1)) := by
    rw [← List.singleton_append, ← hstored, ← stored_append, ← stored_append,
      List.singleton_append, List.getElem_cons_drop, List.take_append_drop]
  rw [hsplit, ← List.append_assoc]
  exact Ring.mem_rtake_of_length_lt entry hfew

/-- **The journal is let go of last.** A server is started on an engine with a journal, and anything
happens in any order. Then

* the journal stays open until the server has stopped;
* when the server is about to let go of the journal, every session and every annotator has ended,
  and from then on nobody does anything any more and the log stays as it is;
* once shutdown was requested and nobody outside holds the lock, there are only so many steps left,
  whoever takes them, and they go on until the server has stopped;
* when the server has stopped it has not failed, and the log is what the engine retained at the
  start and everything stored since, as far as it is retained;
* a journal that is kept reads back without a failure, its last records are the log, and every
  command that was answered, whether or not the answer was sent, is in it, or as many commands as
  are retained were stored after it;
* a journal that is not kept is gone. -/
theorem Run.release {settings : Settings} {listening : Except Fault Unit} {e : Engine}
    {h₀ h : Host} {failed epoch : Nat} (hsound : h₀.disk.Sound)
    (hworking : Engine.Working path h₀ failed e h)
    (hstart : Server.start settings listening e h epoch = .ok start) (hrun : Run start notes s) :
    ((∀ result, s.stage ≠ .stopped result) → s.service.engine.journal.isSome = true) ∧
    (s.stage.isJoined = true →
      (∀ x ∈ s.service.sessions, x.phase = .ended) ∧
      (∀ a ∈ s.service.annotators, a.phase = .ended) ∧
      ∀ notes' s', Run s notes' s' →
        notes' = [] ∧ s'.service.engine.ring = s.service.engine.ring) ∧
    (s.service.cancelled = true → s.service.held = false → ∀ n s', Alone s n s' →
      n ≤ s.bound ∧ ((∃ result, s'.stage = .stopped result) ∨ ∃ s'', Alone s (n + 1) s'')) ∧
    ∀ result, s.stage = .stopped result →
      result = .ok () ∧
      s.service.engine.ring.entries =
        (e.ring.entries ++ stored notes).rtake retainedCommands ∧
      (settings.purgesJournal = false →
        ∃ c, Journal.load s.service.host.disk path = .ok c ∧ c.failure = none ∧
          (c.records.map Journal.Record.entry).rtake retainedCommands =
            s.service.engine.ring.entries ∧
          ∀ j id line answer,
            notes[j]? = some (.session id (.served (.append line) (some answer))) →
              { bytes := line } ∈ c.records.map Journal.Record.entry ∨
                retainedCommands ≤ (stored (notes.drop (j + 1))).length) ∧
      (settings.purgesJournal = true → s.service.host.disk.locate path = .ok none) := by
  obtain ⟨es, ps, hm, -⟩ := hworking.mirrors hsound
  have hsupervised := supervised_start hstart
  have hs := hrun.supervised hsupervised
  have hkeeping := hrun.keeping (keeping_start hstart hm) hsupervised
  refine ⟨?_, ?_, ?_, ?_⟩
  · intro hgoing
    obtain ⟨ps', hm'⟩ := hkeeping.journaled hgoing
    obtain ⟨_, _, _, -, hjournal⟩ := hm'.file
    rw [hjournal]
    rfl
  · intro hjoined
    refine ⟨?_, ?_, ?_⟩
    · intro x hx
      obtain ⟨id, hid⟩ := List.mem_iff_getElem?.mp hx
      have hended := hs.drained (isDrained_of_isJoined hjoined) id
      rwa [Service.sessionHasEnded_of_getElem? hid, Session.hasEnded_iff] at hended
    · intro a ha
      exact Annotator.hasEnded_iff.mp (hs.joined hjoined a ha)
    · intro notes' s' hlater
      obtain ⟨hnotes, -, hring, -⟩ := hlater.of_joined hs hjoined
      exact ⟨hnotes, hring⟩
  · intro hcancelled hheld n s' halone
    exact hrun.stops hstart hcancelled hheld halone
  · intro result hstage
    have hreleased := hkeeping.released result hstage
    rw [hrun.settings_eq, eq_of_start hstart] at hreleased
    have hentries := hreleased.ring.entries_eq
    refine ⟨hreleased.result_eq, ?_, ?_, hreleased.gone⟩
    · rw [hentries, hm.ring.entries_eq, Ring.rtake_rtake_append]
    · intro hkeeps
      obtain ⟨ps', hload, hsame⟩ := hreleased.kept hkeeps
      refine ⟨_, hload, rfl, ?_, ?_⟩
      · rw [Journal.Contents.map_entry_of, hsame, hentries]
      · intro j id line answer hnote
        rw [Journal.Contents.map_entry_of, or_iff_not_imp_right, Nat.not_le]
        intro hfew
        -- what is among the last entries of the log is among the last records
        have hmem := mem_rtake_of_note hnote rfl es hfew
        rw [← hsame] at hmem
        exact List.mem_of_mem_drop hmem

/-- Settings that keep the journal and ask for no timestamps. -/
def keepsJournal : Settings :=
  { Settings.standard with timestampInterval := none, purgesJournal := false }

/-- A server with one session, which has some input. -/
def oneClient (engine : Engine) (host : Host) (phase : Session.Phase) (fresh : Bytes)
    (inbound : List Bytes) (queue : List Actor) : Server where
  settings := keepsJournal
  service :=
    { engine, host, queue
      registry := { spawned := 1, registered := [0] }
      sessions :=
        [{ limit := keepsJournal.maxCommandBytes, phase
           backlog := { Backlog.empty with fresh }
           transport := { inbound } }] }
  published := 1

/-- **An answer that is lost**: a session has a line stored and fails before it can send the answer,
and the server is asked to stop. -/
theorem exists_run_of_lostAnswer (engine : Engine) (host : Host) :
    ∃ start earlier host' s, Server.start keepsJournal (.ok ()) engine host 0 = .ok start ∧
      Run start (earlier ++ [.session 0 (.served (.append [0x61, 0x0a])
        (engine.answer host' (.append [0x61, 0x0a])).1)]) s ∧
      s.stage = .stopped (.ok ()) := by
  have hstart : Run { settings := keepsJournal, service := { engine, host } } [] _ := .refl
  -- a connection is accepted, and a line arrives
  have harrived : Run _ _ (oneClient engine _ .framing [] [[0x61, 0x0a]] []) :=
    (((hstart.quiet (.accept rfl rfl rfl)).quiet (.own (.survey rfl))).quiet
      (.own (.conclude rfl rfl))).quiet (.event (.deliver 0 [0x61, 0x0a]) rfl)
  have hwaiting : Run _ _ (oneClient engine _ .receiving [] [[0x61, 0x0a]] []) :=
    harrived.move (.actor (a := .session 0) rfl)
  have hreceived : Run _ _ (oneClient engine _ .framing [0x61, 0x0a] [] []) :=
    hwaiting.move (.actor (a := .session 0) rfl)
  have hqueued : Run _ _
      (oneClient engine _ (.queued (.append [0x61, 0x0a])) [] [] [.session 0]) :=
    hreceived.move (.actor (a := .session 0) rfl)
  have hserved := hqueued.move (.actor (a := .session 0) rfl)
  have hfailed := hserved.quiet (.crash 0 Nat.one_pos)
  have hreported : (0 : SessionId) ∈ [0] := List.mem_cons_self
  have hfinished := (hfailed.quiet (.arrive hreported List.not_mem_nil)).quiet
    (.finish hreported hreported List.not_mem_nil)
  have hdraining := (hfinished.quiet (.event .cancel rfl)).quiet (.own (.down rfl rfl))
  have hjoining := hdraining.quiet (.own (.drain rfl rfl))
  have hclosing := hjoining.quiet (.own (.join rfl fun _ ha => absurd ha List.not_mem_nil))
  exact ⟨_, _, _, _, rfl, hclosing.quiet (.own (.close rfl rfl rfl rfl)), rfl⟩

/-- The line is in the journal. -/
theorem release_of_lostAnswer :
    ∃ e h start notes s c, Engine.Working Engine.examplePath {} 0 e h ∧
      Server.start keepsJournal (.ok ()) e h 0 = .ok start ∧ Run start notes s ∧
      s.stage = .stopped (.ok ()) ∧
      Journal.load s.service.host.disk Engine.examplePath = .ok c ∧ c.failure = none ∧
      { bytes := [0x61, 0x0a] } ∈ c.records.map Journal.Record.entry := by
  obtain ⟨e, h, hopen, hm⟩ := Engine.open_empty
  have hworking : Engine.Working Engine.examplePath {} 0 e h := .opened hopen
  obtain ⟨start, earlier, h', s, hstart, hrun, hstage⟩ := exists_run_of_lostAnswer e h
  obtain ⟨-, -, -, hend⟩ := Run.release (Disk.sound_under _) hworking hstart hrun
  obtain ⟨-, -, hkept, -⟩ := hend _ hstage
  obtain ⟨c, hload, hnone, -, hanswered⟩ := hkept rfl
  refine ⟨e, h, start, _, s, c, hworking, hstart, hrun, hstage, hload, hnone, ?_⟩
  -- the line fits a record, so it is stored and answered
  have haccepts : e.accepts [0x61, 0x0a] = true := Engine.accepts_of_fits (by decide)
  obtain ⟨answer, hanswer⟩ : ∃ answer, (e.answer h' (.append [0x61, 0x0a])).1 = some answer := by
    rw [← Option.isSome_iff_exists, Engine.isSome_answer_append, Engine.append_isOk, haccepts]
  rw [hanswer] at hanswered
  refine (hanswered earlier.length 0 _ answer List.getElem?_concat_length).resolve_right ?_
  -- nothing was stored after it
  rw [List.drop_eq_nil_of_le (by rw [List.length_append, List.length_singleton])]
  decide

end CommandLog.Server
