import CommandLog.Proofs.Engine.Mirror
import CommandLog.Proofs.Ring.Fifo
import CommandLog.Proofs.Service.Framing
import CommandLog.Proofs.Service.Order

/-!
# The counters of the log

The metrics about the log are kept beside the ring and not computed from it. They describe it all
the same: what they say of appends is what the appends have returned, and what they say of the log
is what a look at the ring would give.

* `CommandLog.Append` – an append, by whoever asked for it and by what it has returned;
* `CommandLog.Service.Appending` – **a run with its appends**, which every run has
  (`CommandLog.Service.Run.appending`);
* `CommandLog.Accounts` – the metrics account for the ring and for the appends so far;
* `CommandLog.Accounts.append` – **every append keeps this up**, whether it succeeds or fails, and
  `CommandLog.Service.accounts_of_act` – so does every other move;
* `CommandLog.Service.Appending.mirrors_log` – **the metrics mirror the log** in every run around an
  engine that was opened once.

What a journal gives back when it is opened goes through the ring without being counted. So the
entries that are retained then stay in the account as a number of their own.
-/

namespace CommandLog

/-! ### Appends -/

/-- Who asks for an append. -/
inductive Author where
  /-- A session. -/
  | session (id : SessionId)
  /-- An annotator. -/
  | annotator (index : Nat)
  /-- Someone outside. -/
  | outside
deriving DecidableEq, Repr

/-- **An append**: who has asked for it, and what it has returned. -/
structure Append where
  /-- Who has asked for it. -/
  author : Author
  /-- What it has returned: the entry that was evicted, if there was one, or why nothing was
  stored. -/
  result : Except Error (Option Entry)

namespace Append

/-- Whether an append has stored its command. -/
def isOk (a : Append) : Bool :=
  a.result.isOk

/-- Whether an append has evicted an entry. -/
def evicts (a : Append) : Bool :=
  match a.result with
  | .ok evicted => evicted.isSome
  | .error _ => false

/-- Whether an append has stored an annotator's timestamp. -/
def isStamp (a : Append) : Bool :=
  match a.author with
  | .annotator _ => a.isOk
  | .session _ | .outside => false

theorem isOk_of_isStamp {a : Append} (h : a.isStamp = true) : a.isOk = true := by
  unfold isStamp at h
  split at h
  · exact h
  · cases h
  · cases h

end Append

/-- What the metrics say about the log, apart from the timestamps. -/
def Metrics.log (m : Metrics) : Nat × Nat × Nat :=
  (m.commandsAppended, m.entriesEvicted, m.logBytes)

/-- **One append evicts an entry or makes the ring longer.** -/
theorem Ring.Retains.size_append {N : Nat} {r : Ring N} {es : List Entry} (h : r.Retains es)
    (e : Entry) : (r.append e).2.size + (r.append e).1.toList.length = r.size + 1 := by
  have hlength := congrArg List.length (h.conserved e)
  rw [List.length_append, List.length_append, (h.append e).entries_eq, h.entries_eq,
    ← (h.append e).size_eq, ← h.size_eq, List.length_singleton] at hlength
  omega

/-- The gauge of the log is the length of what is read from its beginning. -/
theorem Ring.Retains.length_readFrom_zero {N : Nat} {r : Ring N} {es : List Entry}
    (h : r.Retains es) : (r.readFrom 0).length = r.totalBytes := by
  rw [h.readFrom_eq, List.drop_zero, h.logicalLog_eq, length_flatten_bytes, h.totalBytes_eq, span]

/-! ### The account -/

/-- **The metrics account for the log** after some appends to a ring that had a number of entries
before. -/
structure Accounts (before : Nat) (as : List Append) (ring : CommandRing) (m : Metrics) : Prop where
  /-- The ring was made by appends. -/
  made : ∃ es, ring.Retains es
  /-- The appends that have stored something are counted. -/
  appended : m.commandsAppended = as.countP Append.isOk
  /-- So are those that have evicted something. -/
  evicted : m.entriesEvicted = as.countP Append.evicts
  /-- So are those by which annotators have stored timestamps. -/
  stamps : m.timestampsAppended = as.countP Append.isStamp
  /-- The gauge holds the number of bytes. -/
  bytes : m.logBytes = ring.totalBytes
  /-- No entry is lost or made up. -/
  size : ring.size + m.entriesEvicted = before + m.commandsAppended

variable {before : Nat} {as : List Append} {ring ring' : CommandRing} {m m' : Metrics} {e : Engine}
  {h : Host} {payload : Bytes}

/-- What leaves the ring and the metrics about the log alone leaves the account alone. -/
theorem Accounts.congr (hacc : Accounts before as ring m) (hring : ring' = ring)
    (hlog : m'.log = m.log) (hstamps : m'.timestampsAppended = m.timestampsAppended) :
    Accounts before as ring' m' := by
  subst hring
  simp only [Metrics.log, Prod.mk.injEq] at hlog
  obtain ⟨happended, hevicted, hbytes⟩ := hlog
  refine ⟨hacc.made, ?_, ?_, ?_, ?_, ?_⟩
  · rw [happended, hacc.appended]
  · rw [hevicted, hacc.evicted]
  · rw [hstamps, hacc.stamps]
  · rw [hbytes, hacc.bytes]
  · rw [happended, hevicted, hacc.size]

/-- **An append keeps the account**, whoever has asked for it and whether it succeeds or fails, once
its timestamp is counted if it is one. -/
theorem Accounts.append (hacc : Accounts before as e.ring h.metrics) (payload : Bytes)
    (author : Author) (hlog : m'.log = (e.append payload h).2.2.metrics.log)
    (hstamps : m'.timestampsAppended = h.metrics.timestampsAppended +
      [Append.mk author (e.append payload h).1].countP Append.isStamp) :
    Accounts before (as ++ [⟨author, (e.append payload h).1⟩]) (e.append payload h).2.1.ring
      m' := by
  have hstamps' : m'.timestampsAppended =
      (as ++ [Append.mk author (e.append payload h).1]).countP Append.isStamp := by
    rw [List.countP_append, hstamps, hacc.stamps]
  cases haccepts : e.accepts payload with
  | false =>
    rw [Engine.append_of_refused haccepts] at hlog hstamps' ⊢
    simp only [Metrics.log, Prod.mk.injEq] at hlog
    obtain ⟨happended, hevicted, hbytes⟩ := hlog
    refine ⟨hacc.made, ?_, ?_, hstamps', ?_, ?_⟩
    · rw [happended, hacc.appended, List.countP_append]
      rfl
    · rw [hevicted, hacc.evicted, List.countP_append]
      rfl
    · rw [hbytes, hacc.bytes]
    · rw [happended, hevicted, hacc.size]
  | true =>
    obtain ⟨e', d', happend, hring, -⟩ := Engine.append_of_accepted (h := h) haccepts
    rw [happend] at hlog hstamps' ⊢
    simp only [Metrics.log, Engine.counted, Prod.mk.injEq] at hlog
    obtain ⟨happended, hevicted, hbytes⟩ := hlog
    obtain ⟨es, hretains⟩ := hacc.made
    have hsize := hretains.size_append ⟨payload⟩
    have hbefore := hacc.size
    refine ⟨⟨_, hring ▸ hretains.append ⟨payload⟩⟩, ?_, ?_, hstamps', ?_, ?_⟩
    · rw [happended, hacc.appended, List.countP_append]
      rfl
    · rw [hevicted, hacc.evicted, List.countP_append, List.countP_singleton]
      rfl
    · rw [hbytes, hring]
    · rw [happended, hevicted, hring]
      cases hgiven : (e.ring.append ⟨payload⟩).1 <;> simp [hgiven] at hsize ⊢ <;> omega

namespace Service

variable {start s s' : Service} {notes : List Note}

/-! ### Runs with their appends -/

/-- The append that a note is about, if it is about one, as a service carries it out. -/
def append? (s : Service) : Note → Option Append
  | .session id (.served (.append line) _) => some ⟨.session id, (s.engine.append line s.host).1⟩
  | .annotated index payload _ => some ⟨.annotator index, (s.engine.append payload s.host).1⟩
  | .appended payload _ => some ⟨.outside, (s.engine.append payload s.host).1⟩
  | .session _ _ => none

/-- **A run with its appends**, from a given service on. -/
inductive Appending (start : Service) : List Append → Service → Prop where
  /-- Nothing has happened yet. -/
  | refl : Appending start [] start
  /-- One move further. -/
  | move {as : List Append} {s s' : Service} (h : Appending start as s) (c : Choice)
    (hnext : s.next? c = some s') : Appending start (as ++ (s.noted c).filterMap s.append?) s'

/-- Every run has its appends. -/
theorem Run.appending (hrun : Run start notes s) : ∃ as, Appending start as s := by
  induction hrun with
  | refl => exact ⟨[], .refl⟩
  | move _ c hnext ih =>
    obtain ⟨as, happending⟩ := ih
    exact ⟨_, happending.move c hnext⟩

/-- What a session does by itself is no append. -/
theorem filterMap_append?_deeds (s : Service) (id : SessionId) {ds : List Session.Deed}
    (hds : ∀ r a, Session.Deed.served r a ∉ ds) :
    (ds.map (.session id)).filterMap s.append? = [] := by
  rw [List.filterMap_eq_nil_iff]
  intro note hnote
  obtain ⟨d, hd, rfl⟩ := List.mem_map.mp hnote
  cases d with
  | served r a => exact absurd hd (hds r a)
  | _ => rfl

theorem log_absorb (s : Service) (id : SessionId) (e : Session.Effect) :
    (s.absorb id e).host.metrics.log = s.host.metrics.log ∧
      (s.absorb id e).host.metrics.timestampsAppended = s.host.metrics.timestampsAppended := by
  cases e <;> exact ⟨rfl, rfl⟩

/-! ### Every move -/

/-- A request that is carried out is an append or leaves the account alone. -/
theorem accounts_of_serve (hacc : Accounts before as s.engine.ring s.host.metrics) (id : SessionId)
    (x : Session) (r : Request) :
    Accounts before
      (as ++ [Note.session id (.served r (s.engine.answer s.host r).1)].filterMap s.append?)
      (s.serve id x r).engine.ring (s.serve id x r).host.metrics := by
  have hafter : (s.serve id x r).engine = (s.engine.answer s.host r).2.1 ∧
      (s.serve id x r).host = (s.engine.answer s.host r).2.2 := ⟨rfl, rfl⟩
  rw [hafter.1, hafter.2]
  by_cases hr : ∃ line, r = .append line
  · obtain ⟨line, rfl⟩ := hr
    rw [Engine.after_answer_append]
    refine hacc.append line (.session id) rfl ?_
    exact Engine.metric_append (f := Metrics.timestampsAppended) (fun _ _ _ => rfl) _ _ _
  · have hnone : [Note.session id (.served r (s.engine.answer s.host r).1)].filterMap s.append? =
        [] := by
      cases r with
      | append line => exact absurd ⟨line, rfl⟩ hr
      | seek | rejected => rfl
    rw [hnone, List.append_nil]
    have hr' := not_exists.mp hr
    refine hacc.congr ?_ ?_ ?_
    · rw [(Engine.after_answer_of_ne_append hr').1]
    · exact Engine.metric_answer_of_ne_append (f := Metrics.log) (fun _ _ _ => rfl) _ _ hr'
    · exact Engine.metric_answer_of_ne_append (f := Metrics.timestampsAppended) (fun _ _ _ => rfl) _
        _ hr'

/-- What happens outside is an append or leaves the account alone. -/
theorem accounts_of_handle (hacc : Accounts before as s.engine.ring s.host.metrics) (e : Event) :
    Accounts before (as ++ (s.noted (.event e)).filterMap s.append?) (s.handle e).engine.ring
      (s.handle e).host.metrics := by
  by_cases he : ∃ payload, e = .append payload
  · obtain ⟨payload, rfl⟩ := he
    simp only [noted, handle]
    split
    · refine hacc.append payload .outside rfl ?_
      exact Engine.metric_append (f := Metrics.timestampsAppended) (fun _ _ _ => rfl) _ _ _
    · rw [List.filterMap_nil, List.append_nil]
      exact hacc
  · have he' := not_exists.mp he
    have hnone : s.noted (.event e) = [] := by
      cases e with
      | append payload => exact absurd rfl (he' payload)
      | _ => rfl
    rw [hnone, List.filterMap_nil, List.append_nil]
    refine hacc.congr ?_ ?_ ?_
    · cases e with
      | append payload => exact absurd rfl (he' payload)
      | _ => rfl
    · exact metric_handle_of_ne_append (f := Metrics.log) (fun _ _ => rfl) s he'
    · exact metric_handle_of_ne_append (f := Metrics.timestampsAppended) (fun _ _ => rfl) s he'

/-- **Every move keeps the account.** -/
theorem accounts_of_act (hacc : Accounts before as s.engine.ring s.host.metrics)
    (hact : s.Act notes s') :
    Accounts before (as ++ notes.filterMap s.append?) s'.engine.ring s'.host.metrics := by
  cases hact with
  | event e => exact accounts_of_handle hacc e
  | serve => exact accounts_of_serve hacc _ _ _
  | @session id x x' e hx hadvance =>
    rw [filterMap_append?_deeds s id (served_notMem_of_act (Session.act_of_advance? hadvance)),
      List.append_nil]
    obtain ⟨hlog, hstamps⟩ := log_absorb (s.setSession id x') id e
    exact hacc.congr (by rw [engine_absorb]; rfl) hlog hstamps
  | @annotate index deadline stamp a ha hphase hgrants =>
    refine hacc.append stamp.bytes (.annotator index) rfl ?_
    have hbefore := Engine.metric_append (f := Metrics.timestampsAppended) (fun _ _ _ => rfl)
      s.engine stamp.bytes s.host
    rw [← hbefore]
    simp only [annotate]
    cases (s.engine.append stamp.bytes s.host).1 <;> rfl
  | wake =>
    rw [List.filterMap_nil, List.append_nil]
    exact hacc.congr rfl rfl rfl

/-! ### Every run -/

/-- **An engine that has just been opened** has an account without appends. -/
theorem accounts_of_open {path? : Option Path} {d : Disk}
    (hopen : Engine.open path? { disk := d } = (.ok e, h)) :
    Accounts e.ring.size [] e.ring h.metrics := by
  cases path? with
  | none =>
    cases hopen
    exact ⟨⟨[], Ring.retains_empty (by decide)⟩, rfl, rfl, rfl, rfl, rfl⟩
  | some path =>
    simp only [Engine.open] at hopen
    split at hopen
    · cases hopen
    · next ring hrecover =>
      obtain ⟨ps, hps, -⟩ := Engine.ring_of_recover hrecover
      split at hopen
      · cases hopen
      · cases hopen
        exact ⟨⟨_, hps ▸ Ring.retains_ofList (by decide) _⟩, rfl, rfl, rfl, rfl, rfl⟩

/-- **The metrics mirror the log.** In every run around an engine that was opened once, on a journal
or without one, and whoever asks for appends,

* the commands appended are the appends that have returned without an error, and the entries evicted
  are those of them that have returned an entry;
* the log has as many entries as it had when it was opened and as were appended, less those that
  were evicted;
* the gauge holds the number of bytes in the log, which is the length of what is read from its
  beginning;
* the timestamps are the appends of annotators that have returned without an error, and no more than
  the commands. -/
theorem Appending.mirrors_log {path? : Option Path} {d : Disk}
    (hopen : Engine.open path? { disk := d } = (.ok start.engine, start.host))
    (happending : Appending start as s) :
    s.host.metrics.commandsAppended = as.countP Append.isOk ∧
    s.host.metrics.entriesEvicted = as.countP Append.evicts ∧
    s.host.metrics.entriesEvicted ≤ start.engine.ring.size + s.host.metrics.commandsAppended ∧
    start.engine.ring.size + s.host.metrics.commandsAppended - s.host.metrics.entriesEvicted =
      s.engine.ring.size ∧
    s.host.metrics.logBytes = s.engine.ring.totalBytes ∧
    s.host.metrics.logBytes = (s.engine.readFrom 0).length ∧
    s.host.metrics.timestampsAppended = as.countP Append.isStamp ∧
    s.host.metrics.timestampsAppended ≤ s.host.metrics.commandsAppended := by
  have hacc : Accounts start.engine.ring.size as s.engine.ring s.host.metrics := by
    induction happending with
    | refl => exact accounts_of_open hopen
    | move _ c hnext ih => exact accounts_of_act ih (act_of_next? hnext)
  obtain ⟨es, hring⟩ := hacc.made
  have hsize := hacc.size
  refine ⟨hacc.appended, hacc.evicted, by omega, by omega, hacc.bytes, ?_, hacc.stamps, ?_⟩
  · rw [hacc.bytes, ← hring.length_readFrom_zero]
    rfl
  · rw [hacc.stamps, hacc.appended]
    exact List.countP_mono_left fun a _ => Append.isOk_of_isStamp

/-- Ten commands come from outside, one from a session and one from an annotator. -/
def twelveCommands : List Choice :=
  [.event (.connect 9), .event (.annotate 10), .event (.deliver 0 [0x62, 0x0a])] ++
    List.replicate 10 (.event (.append [0x61, 0x0a])) ++
    List.replicate 6 (.actor (.session 0)) ++ [.event (.tick 10)] ++
    List.replicate 2 (.actor (.annotator 0))

/-- Two of the twelve commands are not in the log any more. -/
theorem mirrors_log_of_twelveCommands :
    ∃ as s, Appending { engine := .inMemory, host := {} } as s ∧ as.countP Append.isOk = 12 ∧
      as.countP Append.evicts = 2 ∧ as.countP Append.isStamp = 1 ∧ s.engine.ring.size = 10 := by
  have hrun := Run.play (.refl : Run { engine := .inMemory, host := {} } [] _) twelveCommands
  obtain ⟨as, happending⟩ := hrun.appending
  have hopen : Engine.open none { disk := Disk.empty } = (.ok Engine.inMemory, {}) := rfl
  obtain ⟨happended, hevicted, -, hsize, -, -, hstamps, -⟩ :=
    Appending.mirrors_log hopen happending
  refine ⟨as, _, happending, ?_, ?_, ?_, ?_⟩
  · exact happended.symm.trans (by decide +kernel)
  · exact hevicted.symm.trans (by decide +kernel)
  · exact hstamps.symm.trans (by decide +kernel)
  · exact hsize.symm.trans (by decide +kernel)

end Service

end CommandLog
