import CommandLog.Proofs.Engine.Mirror
import CommandLog.Proofs.Service.Order

/-!
# The journal of a service

Whoever stores a command stores it in the journal first. So the journal of a service mirrors its
log, in whatever order its sessions and annotators get the lock.

* `CommandLog.Engine.Mirrors.attempt` and `CommandLog.Engine.Mirrors.close` – what becomes of a
  journal that mirrors a log when a command is stored or refused, and when it is let go of;
* `CommandLog.Service.Journaled` – **the journal mirrors the log**, and every move keeps this up
  (`CommandLog.Service.Journaled.act`).

The log is told by the notes of a run: what the engine retained at the start, and what was stored
since, by whomever. A session that stores a command and has no time to send the answer has stored it
all the same.
-/

namespace CommandLog

variable {path : Path} {log : List Entry} {payload : Bytes}

/-! ### The engine -/

namespace Engine

open Journal (fits)

variable {e : Engine} {h : Host} {es : List Entry} {ps : List Bytes}

/-- **A command that is stored or refused** leaves the journal matching. -/
theorem Mirrors.attempt (hm : Mirrors path es ps e h.disk) (payload : Bytes) :
    ∃ ps', Mirrors path (es ++ if e.accepts payload then [{ bytes := payload }] else []) ps'
      (e.append payload h).2.1 (e.append payload h).2.2.disk := by
  cases hfits : fits payload with
  | false =>
    have hrefused := hm.refuses hfits
    rw [append_of_refused hrefused, hrefused]
    exact ⟨ps, by simpa using hm⟩
  | true =>
    obtain ⟨ps', hm', -⟩ := hm.append hfits
    rw [accepts_of_fits hfits]
    exact ⟨ps', hm'⟩

/-- **Letting go of the journal** removes it if that is wanted, and leaves it alone otherwise. -/
theorem Mirrors.close (hm : Mirrors path es ps e h.disk) (purge : Bool) :
    ∃ d', e.close purge h = (.ok (), { e with journal := none }, { h with disk := d' }) ∧
      (purge = false → d' = h.disk) ∧ (purge = true → d'.locate path = .ok none) := by
  cases purge with
  | false => exact ⟨h.disk, rfl, fun _ => rfl, nofun⟩
  | true =>
    obtain ⟨above, name, id, hholds, -⟩ := hm.file
    obtain ⟨d', hremove, hgone⟩ := hholds.remove
    refine ⟨d', ?_, nofun, fun _ => hgone⟩
    simp only [Engine.close, hm.path_eq, hremove]

end Engine

/-! ### The service -/

namespace Service

variable {s s' : Service} {notes : List Note} {note : Note}

/-- **The journal mirrors the log.** -/
def Journaled (path : Path) (log : List Entry) (s : Service) : Prop :=
  ∃ ps, Engine.Mirrors path log ps s.engine s.host.disk

/-- Moves that touch neither the engine nor the disk. -/
theorem Journaled.congr (h : Journaled path log s) (hengine : s'.engine = s.engine)
    (hdisk : s'.host.disk = s.host.disk) : Journaled path log s' := by
  rwa [Journaled, hengine, hdisk]

/-- A command that somebody has stored. -/
theorem Journaled.append (h : Journaled path log s)
    (hengine : s'.engine = (s.engine.append payload s.host).2.1)
    (hdisk : s'.host.disk = (s.engine.append payload s.host).2.2.disk)
    (hstored : note.stored = if s.stores payload then [payload] else []) :
    Journaled path (log ++ stored [note]) s' := by
  obtain ⟨ps, hm⟩ := h
  rw [Journaled, hengine, hdisk, stored_of_note hstored]
  exact hm.attempt payload

/-- A request that was carried out has stored its line just when it was answered. -/
theorem stored_served (s : Service) (id : SessionId) (line : Bytes) :
    (Note.session id (.served (.append line) (s.engine.answer s.host (.append line)).1)).stored =
      if s.stores line then [line] else [] := by
  rw [stores, ← Engine.isSome_answer_append]
  cases (s.engine.answer s.host (.append line)).1 <;> rfl

/-- Notes about anything but the engine. -/
theorem stored_deeds (id : SessionId) {ds : List Session.Deed}
    (hds : ∀ r a, Session.Deed.served r a ∉ ds) : stored (ds.map (.session id)) = [] := by
  rw [stored, List.map_eq_nil_iff, List.flatMap_eq_nil_iff]
  intro note hnote
  obtain ⟨d, hd, rfl⟩ := List.mem_map.mp hnote
  cases d with
  | served r a => exact absurd hd (hds r a)
  | _ => rfl

theorem host_disk_absorb (s : Service) (id : SessionId) (e : Session.Effect) :
    (s.absorb id e).host.disk = s.host.disk := by
  cases e <;> rfl

theorem Journaled.serve (h : Journaled path log s) (id : SessionId) (x : Session) (r : Request) :
    Journaled path (log ++ stored [.session id (.served r (s.engine.answer s.host r).1)])
      (s.serve id x r) := by
  by_cases hr : ∃ line, r = .append line
  · obtain ⟨line, rfl⟩ := hr
    have hafter := Engine.after_answer_append s.engine s.host line
    exact h.append (congrArg Prod.fst hafter) (congrArg (fun p => p.2.disk) hafter)
      (stored_served s id line)
  · obtain ⟨hengine, hdisk⟩ := Engine.after_answer_of_ne_append (e := s.engine) (h := s.host)
      (not_exists.mp hr)
    have hnone : stored [.session id (.served r (s.engine.answer s.host r).1)] = [] := by
      cases r with
      | append line => exact absurd ⟨line, rfl⟩ hr
      | seek | rejected => rfl
    rw [hnone, List.append_nil]
    exact h.congr hengine hdisk

/-- **Every move keeps the journal matching the log.** -/
theorem Journaled.act (h : Journaled path log s) (hact : s.Act notes s') :
    Journaled path (log ++ stored notes) s' := by
  cases hact with
  | event e =>
    cases e with
    | append payload =>
      simp only [noted, handle]
      split
      · exact h.append rfl rfl (by cases s.stores payload <;> rfl)
      · rw [stored_nil, List.append_nil]
        exact h
    | connect | deliver | endInput | breakOutput | allow | cancel | hold | release | reap |
        annotate | tick =>
      rw [noted, stored_nil, List.append_nil]
      · exact h.congr rfl rfl
      · intro payload hpayload
        cases hpayload
  | serve => exact h.serve _ _ _
  | session _ hadvance =>
    rw [stored_deeds _ (served_notMem_of_act (Session.act_of_advance? hadvance)), List.append_nil]
    exact h.congr (engine_absorb _ _ _) (host_disk_absorb _ _ _)
  | @annotate _ _ stamp => exact h.append rfl rfl (by cases s.stores stamp.bytes <;> rfl)
  | wake =>
    rw [stored_nil, List.append_nil]
    exact h.congr rfl rfl

end Service

end CommandLog
