import CommandLog.Proofs.Engine.Mirror
import CommandLog.Proofs.Journal.Replace

/-!
# Restarts

An engine on a journal may stop at any time: between two operations, inside an append, inside the
replacement that follows one, and inside the opening of the next engine. What is left of the disk
is always enough for the next engine to go on as if nothing had happened, up to the command that
was being stored.

* `CommandLog.Engine.appendSteps` and `CommandLog.Engine.openSteps` – **everything an operation
  does to the disk**, one step after the other, so that an interruption can fall between any two of
  them or inside a write;
* `CommandLog.Engine.Restorable` – a disk with a journal that stands and whose last payloads are
  given ones, with at most the beginning of one more record behind it;
* `CommandLog.Engine.Restorable.of_leaves` and `CommandLog.Engine.restorable_of_append` – **an
  interrupted opening** leaves such a disk for the same entries, and **an interrupted append** one
  for the entries before it or for those with the new one;
* `CommandLog.Engine.Restorable.open` – the next opening succeeds, with these entries;
* `CommandLog.Engine.Interrupted` – a run with any number of interruptions, and what it has stored;
* `CommandLog.Engine.Interrupted.restarts` – **a restart is invisible** at any point of such a run.

The engine that a restarted one is compared with never stops and has no journal:
`CommandLog.Engine.fed`. Only the last entries can be compared, since a journal that was replaced
has forgotten the older ones; they are all that the ring shows.
-/

namespace CommandLog.Engine

open Disk (Desk Leaves Step)
open Journal (Holds Stands Twin fits)

variable {e e' : Engine} {h h' start : Host} {d d' : Disk} {path : Path} {above above' : Place}
  {name name' : String} {es es' : List Entry} {ps : List Bytes} {payload : Bytes}

/-! ### Operations step by step -/

/-- The steps that replace a journal by what is retained and open the new one. -/
def renewSteps (path : Path) (ring : CommandRing) : List Step :=
  Journal.replaceSteps path (retained ring) ++ Journal.openSteps path false

/-- **The steps of an opening.** -/
def openSteps (path : Path) (d : Disk) : List Step :=
  match recover path d with
  | .error _ => []
  | .ok ring => renewSteps path ring

/-- The steps that follow the record of a command, when the journal has grown too long by it. -/
def compactSteps (e : Engine) (payload : Bytes) (written : Nat) : List Step :=
  match e.path with
  | none => []
  | some path =>
    if compactRecords ≤ written then renewSteps path (e.ring.append { bytes := payload }).2 else []

/-- **The steps of an append.** -/
def appendSteps (e : Engine) (payload : Bytes) : List Step :=
  match e.journal with
  | none => []
  | some w =>
    if fits payload then
      Journal.appendSteps { seq := w.nextSeq, payload } ++ e.compactSteps payload (w.nextSeq + 1)
    else []

/-! ### Disks that can be started from -/

/-- The beginning of a record, and not all of it. -/
def Torn (tail : Bytes) : Prop :=
  ∃ (r : Journal.Record) (rest : Bytes),
    fits r.payload = true ∧ r.encode = tail ++ rest ∧ rest ≠ []

theorem torn_nil : Torn [] :=
  ⟨{ seq := 0, payload := [] }, _, rfl, (List.nil_append _).symm, Journal.Record.encode_ne_nil _⟩

/-- **A disk to start from**: the journal stands, its last payloads are those of the given entries,
and behind them there is at most the beginning of a record. -/
structure Restorable (d : Disk) (path : Path) (above : Place) (name : String) (above' : Place)
    (name' : String) (es : List Entry) : Prop where
  /-- There is a journal. -/
  journal : ∃ ps tail, Stands d path above name above' name' (Journal.encode ps ++ tail) ∧
    Torn tail ∧ (∀ p ∈ ps, fits p = true) ∧
    (ps.map Entry.mk).rtake retainedCommands = es.rtake retainedCommands

theorem restorable_of_stands (hstands : Stands d path above name above' name' (Journal.encode ps))
    (hfits : ∀ p ∈ ps, fits p = true)
    (hsame : (ps.map Entry.mk).rtake retainedCommands = es.rtake retainedCommands) :
    Restorable d path above name above' name' es :=
  ⟨ps, [], by rwa [List.append_nil], torn_nil, hfits, hsame⟩

/-- **What is recovered** are the payloads before the torn record. -/
theorem recover_of_stands {tail : Bytes}
    (hstands : Stands d path above name above' name' (Journal.encode ps ++ tail)) (htorn : Torn tail)
    (hfits : ∀ p ∈ ps, fits p = true) :
    recover path d = .ok (Ring.ofList (ps.map Entry.mk)) := by
  obtain ⟨id, hholds⟩ := hstands.holds
  obtain ⟨r, rest, hr, hcut, hrest⟩ := htorn
  obtain ⟨failure, hparse⟩ := Journal.parse_torn hfits hr hcut hrest
  rw [recover_of_parse hholds.read hparse, Journal.Contents.payloads_of]

theorem Restorable.congr (hr : Restorable d path above name above' name' es)
    (hsame : es.rtake retainedCommands = es'.rtake retainedCommands) :
    Restorable d path above name above' name' es' := by
  obtain ⟨ps, tail, hstands, htorn, hfits, hps⟩ := hr.journal
  exact ⟨ps, tail, hstands, htorn, hfits, hps.trans hsame⟩

/-! ### Opening -/

theorem Restorable.sound (hr : Restorable d path above name above' name' es) : d.Sound := by
  obtain ⟨ps, tail, hstands, -⟩ := hr.journal
  obtain ⟨id, hholds⟩ := hstands.holds
  exact hholds.sound

/-- **The next opening succeeds**, with the entries that were there. -/
theorem Restorable.open (hr : Restorable h.disk path above name above' name' es) :
    ∃ e h' es' ps, Engine.open (some path) h = (.ok e, h') ∧ Mirrors path es' ps e h'.disk ∧
      Twin h'.disk path above name above' name' ∧
      es'.rtake retainedCommands = es.rtake retainedCommands := by
  have hsound := hr.sound
  obtain ⟨ps, tail, hstands, htorn, hfits, hsame⟩ := hr.journal
  have hrecover := recover_of_stands hstands htorn hfits
  obtain ⟨e, h', hopen, hm, htwin⟩ := open_of_twin hstands.twin hsound hrecover hfits
  exact ⟨e, h', _, _, hopen, hm, htwin, hsame⟩

/-- **An opening does what its steps do.** -/
theorem Restorable.runSteps_open (hr : Restorable h.disk path above name above' name' es)
    (hopen : Engine.open (some path) h = (.ok e, h')) :
    ∃ k, Disk.runSteps { disk := h.disk, file := none } (openSteps path h.disk) = (.ok (), k) ∧
      k.disk = h'.disk := by
  have hsound := hr.sound
  obtain ⟨ps, tail, hstands, htorn, hfits, -⟩ := hr.journal
  have hrecover := recover_of_stands hstands htorn hfits
  obtain ⟨d', hreplace, -, k, hsteps, hk⟩ :=
    hstands.twin.replace hsound (fits_of_mem_rtake hfits retainedCommands) none
  obtain ⟨e', h'', hopen', hdisk, -⟩ := open_of_recover hsound hrecover hfits hreplace
  rw [hopen] at hopen'
  cases hopen'
  refine ⟨k, ?_, hk.trans hdisk.symm⟩
  rw [openSteps, hrecover]
  simp only [renewSteps, retained_ofList]
  exact hsteps

/-- **A replacement that is cut short**, of a journal by what is retained of it, leaves the same
entries. -/
theorem restorable_of_leaves {tail : Bytes}
    (hstands : Stands d path above name above' name' (Journal.encode ps ++ tail)) (htorn : Torn tail)
    (hfits : ∀ p ∈ ps, fits p = true)
    (hsame : (ps.map Entry.mk).rtake retainedCommands = es.rtake retainedCommands)
    {file : Option FileId} {k : Desk}
    (hleaves : Leaves { disk := d, file }
      (Journal.replaceSteps path (ps.rtake retainedCommands) ++ Journal.openSteps path false) k) :
    Restorable k.disk path above name above' name' es := by
  rcases hstands.of_leaves hleaves with hold | hnew
  · exact ⟨ps, tail, hold, htorn, hfits, hsame⟩
  · refine restorable_of_stands hnew (fits_of_mem_rtake hfits retainedCommands) ?_
    rw [Ring.rtake_map_rtake, hsame]

/-- **An opening that is interrupted** leaves the entries that were there. -/
theorem Restorable.of_leaves (hr : Restorable d path above name above' name' es) {k : Desk}
    (hleaves : Leaves { disk := d, file := none } (openSteps path d) k) :
    Restorable k.disk path above name above' name' es := by
  obtain ⟨ps, tail, hstands, htorn, hfits, hsame⟩ := hr.journal
  rw [openSteps, recover_of_stands hstands htorn hfits] at hleaves
  simp only [renewSteps, retained_ofList] at hleaves
  exact restorable_of_leaves hstands htorn hfits hsame hleaves

/-! ### Appending -/

/-- The journal of a running engine stands, whatever has just been written to it. -/
theorem Mirrors.stands_write (hm : Mirrors path es ps e d)
    (htwin : Twin d path above name above' name') {w : Journal.Writer} (hw : e.journal = some w)
    (data : Bytes) :
    Stands (d.write w.file data) path above name above' name' (Journal.encode ps ++ data) := by
  obtain ⟨above₁, name₁, id, hholds, hjournal⟩ := hm.file
  rw [hw] at hjournal
  cases hjournal
  obtain ⟨rfl, rfl⟩ := hholds.leads.unique htwin.leads
  exact ⟨htwin.write id data, id, hholds.write data⟩

theorem Mirrors.restorable (hm : Mirrors path es ps e d)
    (htwin : Twin d path above name above' name') :
    Restorable d path above name above' name' es := by
  obtain ⟨above₁, name₁, id, hholds, -⟩ := hm.file
  obtain ⟨rfl, rfl⟩ := hholds.leads.unique htwin.leads
  exact restorable_of_stands ⟨htwin, id, hholds⟩ hm.fitting hm.same

theorem Mirrors.compactSteps_eq (hm : Mirrors path es ps e d) (payload : Bytes) (written : Nat) :
    e.compactSteps payload written =
      if compactRecords ≤ written then renewSteps path (e.ring.append { bytes := payload }).2
      else [] := by
  simp only [compactSteps, hm.path_eq]

/-- **An append keeps the pair of places**, and does what its steps do. -/
theorem Mirrors.runSteps_append (hm : Mirrors path es ps e h.disk)
    (htwin : Twin h.disk path above name above' name') {w : Journal.Writer}
    (hw : e.journal = some w) (payload : Bytes) :
    Twin (e.append payload h).2.2.disk path above name above' name' ∧
      ∃ k, Disk.runSteps { disk := h.disk, file := some w.file } (e.appendSteps payload) =
          (.ok (), k) ∧
        k.disk = (e.append payload h).2.2.disk := by
  simp only [appendSteps, hw]
  cases hfits : fits payload with
  | false =>
    rw [append_of_refused (hm.refuses hfits)]
    exact ⟨htwin, _, rfl, rfl⟩
  | true =>
    obtain ⟨w', hw', hnext, hrecord, hstored⟩ := hm.record_store hfits h.metrics
    -- the record is written by the writer that the engine had
    obtain rfl : w = w' := Option.some.inj (hw.symm.trans hw')
    have htwin' := htwin.write w.file (Journal.Record.encode { seq := w.nextSeq, payload })
    have hoversized := hstored.isOversized_iff
    rw [List.length_append, List.length_singleton, ← hnext] at hoversized
    rw [if_pos rfl, hm.compactSteps_eq]
    simp only [Engine.append, hrecord]
    by_cases hlong : compactRecords ≤ w.nextSeq + 1
    · have hsound : (h.disk.write w.file
          (Journal.Record.encode { seq := w.nextSeq, payload })).Sound := by
        obtain ⟨_, _, _, hholds, -⟩ := hstored.file
        exact hholds.sound
      rw [if_pos (hoversized.mpr hlong), if_pos hlong]
      obtain ⟨d', hreplace, hstands, k, hsteps, hk⟩ :=
        htwin'.replace hsound (fits_of_mem_rtake hstored.fitting retainedCommands) (some w.file)
      have hdisk := hstored.compact.1
      rw [hstored.retained_eq, hreplace] at hdisk
      rw [← hstored.retained_eq] at hsteps
      simp only [hdisk]
      refine ⟨hstands.twin, k, ?_, hk⟩
      exact hsteps
    · rw [if_neg (mt hoversized.mp hlong), if_neg hlong]
      exact ⟨htwin', _, rfl, rfl⟩

/-- The record of a command is complete. -/
theorem restorable_of_stored (hm : Mirrors path es ps e d) (hfits : fits payload = true)
    (hstands : Stands d' path above name above' name' (Journal.encode (ps ++ [payload]))) :
    Restorable d' path above name above' name' (es ++ [{ bytes := payload }]) := by
  obtain ⟨w, -, -, -, hstored⟩ := hm.record_store hfits {}
  exact restorable_of_stands hstands hstored.fitting hstored.same

/-- **The record is complete, and the replacement that may follow it** is cut short. -/
theorem restorable_of_compactSteps (hm : Mirrors path es ps e d) (hfits : fits payload = true)
    (hstands : Stands d' path above name above' name' (Journal.encode (ps ++ [payload])))
    {written : Nat} {file : Option FileId} {k : Desk}
    (hleaves : Leaves { disk := d', file } (e.compactSteps payload written) k) :
    Restorable k.disk path above name above' name' (es ++ [{ bytes := payload }]) := by
  obtain ⟨w, -, -, -, hstored⟩ := hm.record_store hfits {}
  rw [hm.compactSteps_eq] at hleaves
  by_cases hlong : compactRecords ≤ written
  · rw [if_pos hlong, renewSteps] at hleaves
    have hretained := hstored.retained_eq
    simp only [store] at hretained
    rw [hretained] at hleaves
    rw [← List.append_nil (Journal.encode _)] at hstands
    exact restorable_of_leaves hstands torn_nil hstored.fitting hstored.same hleaves
  · rw [if_neg hlong] at hleaves
    rw [hleaves.eq_of_nil]
    exact restorable_of_stored hm hfits hstands

/-- **An append that is interrupted** leaves the entries before it or those with the new one. -/
theorem restorable_of_append (hm : Mirrors path es ps e d)
    (htwin : Twin d path above name above' name') {w : Journal.Writer} (hw : e.journal = some w)
    {k : Desk}
    (hleaves : Leaves { disk := d, file := some w.file } (e.appendSteps payload) k) :
    Restorable k.disk path above name above' name' es ∨
      Restorable k.disk path above name above' name' (es ++ [{ bytes := payload }]) := by
  have hbefore := hm.restorable htwin
  simp only [appendSteps, hw] at hleaves
  cases hfits : fits payload with
  | false =>
    rw [hfits, if_neg Bool.false_ne_true] at hleaves
    rw [hleaves.eq_of_nil]
    exact .inl hbefore
  | true =>
    obtain ⟨w', hw', hnext, -, -⟩ := hm.record_store hfits {}
    obtain rfl : w = w' := Option.some.inj (hw.symm.trans hw')
    have hstands := hm.stands_write htwin hw
    have hafter := hstands (Journal.Record.encode { seq := w.nextSeq, payload })
    rw [hnext, ← Journal.encode_append_singleton, ← hnext] at hafter
    rw [hfits, if_pos rfl] at hleaves
    rcases hleaves.cases_write with hk | ⟨front, rest, hcut, hk⟩ | hleaves
    · rw [hk]
      exact .inl hbefore
    · rw [hk]
      rcases rest with _ | ⟨b, rest⟩
      · -- all of the record has been written, though nobody has said so
        rw [List.append_nil] at hcut
        rw [← hcut]
        exact .inr (restorable_of_stored hm hfits hafter)
      · refine .inl ⟨ps, front, hstands front, ?_, hm.fitting, hm.same⟩
        exact ⟨{ seq := w.nextSeq, payload }, _, hfits, hcut, List.cons_ne_nil b rest⟩
    · exact .inr (restorable_of_compactSteps hm hfits hafter hleaves.of_sync)

/-! ### Runs with interruptions -/

/-- An engine that has no journal, and that has been given some commands one after the other. -/
def fed (payloads : List Bytes) : Engine :=
  payloads.foldl (fun e payload => (e.append payload {}).2.1) inMemory

theorem retains_fed (payloads : List Bytes) :
    (fed payloads).ring.Retains (payloads.map Entry.mk) := by
  -- for any engine without a journal, so that the induction can go on
  have hall : ∀ (e : Engine) (es : List Entry), e.journal = none → e.ring.Retains es →
      (payloads.foldl (fun e payload => (e.append payload {}).2.1) e).ring.Retains
        (es ++ payloads.map Entry.mk) := by
    induction payloads with
    | nil => exact fun e es _ hring => by simpa using hring
    | cons payload payloads ih =>
      intro e es hnone hring
      have haccepts : e.accepts payload = true := by simp [accepts, hnone]
      have hring' := retains_append hring payload {}
      rw [haccepts, if_pos rfl] at hring'
      have hlater := ih _ _ (journal_append_of_none hnone) hring'
      simpa using hlater
  exact hall inMemory [] rfl (Ring.retains_empty (by decide))

/-- Where a run stands. -/
inductive Stage where
  /-- An engine is running. -/
  | running (e : Engine) (h : Host)
  /-- No engine is running; the disk is all there is. -/
  | stopped (d : Disk)

/-- The disk at a stage. -/
def Stage.disk : Stage → Disk
  | .running _ h => h.disk
  | .stopped d => d

/-- What has been stored, once an engine has been opened again. Whether the command that was in
flight is a part of it shows in the entries of that engine. -/
def settled (e : Engine) (log : List Bytes) (flight : Option Bytes) : List Bytes :=
  if e.ring.entries = (fed log).ring.entries then log else log ++ flight.toList

/-- **A run with any number of interruptions**, from the opening of an engine on: what has been
stored, the command in flight when the engine was stopped, and where the run stands. -/
inductive Interrupted (path : Path) (e₀ : Engine) (h₀ : Host) :
    List Bytes → Option Bytes → Stage → Prop where
  /-- The first engine has been opened. -/
  | opened : Interrupted path e₀ h₀ (retained e₀.ring) none (.running e₀ h₀)
  /-- A command has been given to the engine; it has been stored if the append succeeds. -/
  | append {log : List Bytes} {e : Engine} {h : Host}
    (hrun : Interrupted path e₀ h₀ log none (.running e h)) (payload : Bytes) :
    Interrupted path e₀ h₀ (log ++ if (e.append payload h).1.isOk then [payload] else []) none
      (.running (e.append payload h).2.1 (e.append payload h).2.2)
  /-- The engine is stopped between two operations. -/
  | stop {log : List Bytes} {e : Engine} {h : Host}
    (hrun : Interrupted path e₀ h₀ log none (.running e h)) :
    Interrupted path e₀ h₀ log none (.stopped h.disk)
  /-- The engine is stopped inside an append. -/
  | stopInside {log : List Bytes} {e : Engine} {h : Host} {w : Journal.Writer} {payload : Bytes}
    {k : Desk} (hrun : Interrupted path e₀ h₀ log none (.running e h)) (hw : e.journal = some w)
    (hleaves : Leaves { disk := h.disk, file := some w.file } (e.appendSteps payload) k) :
    Interrupted path e₀ h₀ log (some payload) (.stopped k.disk)
  /-- The next engine is stopped while it is being opened. -/
  | stopOpening {log : List Bytes} {flight : Option Bytes} {d : Disk} {k : Desk}
    (hrun : Interrupted path e₀ h₀ log flight (.stopped d))
    (hleaves : Leaves { disk := d, file := none } (openSteps path d) k) :
    Interrupted path e₀ h₀ log flight (.stopped k.disk)
  /-- The next engine has been opened. -/
  | reopen {log : List Bytes} {flight : Option Bytes} {d : Disk} {m : Metrics} {e : Engine}
    {h : Host} (hrun : Interrupted path e₀ h₀ log flight (.stopped d))
    (hopen : Engine.open (some path) { disk := d, metrics := m } = (.ok e, h)) :
    Interrupted path e₀ h₀ (settled e log flight) none (.running e h)

/-- **What holds at every stage**: a running engine mirrors what has been stored, and what is left
of a stopped one can be started from, with the command in flight or without it. -/
def Tracks (path : Path) (above : Place) (name : String) (above' : Place) (name' : String)
    (log : List Bytes) (flight : Option Bytes) : Stage → Prop
  | .running e h =>
    Twin h.disk path above name above' name' ∧
      ∃ es ps, Mirrors path es ps e h.disk ∧
        es.rtake retainedCommands = (log.map Entry.mk).rtake retainedCommands
  | .stopped d =>
    ∃ log', (log' = log ∨ log' = log ++ flight.toList) ∧
      Restorable d path above name above' name' (log'.map Entry.mk)

/-- **The first opening** finds a pair of places, unless the journal is its own sibling. -/
theorem tracks_of_open (hsound : start.disk.Sound) (hextension : path.extension? ≠ some "tmp")
    (hopen : Engine.open (some path) start = (.ok e, h)) :
    ∃ above name above' name',
      Tracks path above name above' name' (retained e.ring) none (.running e h) := by
  obtain ⟨ps, hrecover, hfits, d', hreplace⟩ := recover_of_open hopen
  obtain ⟨e', h', hopen', rfl, hm⟩ := open_of_recover hsound hrecover hfits hreplace
  rw [hopen] at hopen'
  cases hopen'
  obtain ⟨above, name, above', name', hstands⟩ :=
    Journal.twin_of_replace_ok hsound hextension (fits_of_mem_rtake hfits _) hreplace
  refine ⟨above, name, above', name', hstands.twin, _, _, hm, ?_⟩
  rw [hm.retained_eq, Ring.rtake_rtake, Ring.map_rtake, Ring.map_rtake, Ring.rtake_rtake]

/-- **Every move keeps track.** -/
theorem Interrupted.tracks {e₀ : Engine} {h₀ : Host} {log : List Bytes} {flight : Option Bytes}
    {stage : Stage}
    (hstart : Tracks path above name above' name' (retained e₀.ring) none (.running e₀ h₀))
    (hrun : Interrupted path e₀ h₀ log flight stage) :
    Tracks path above name above' name' log flight stage := by
  induction hrun with
  | opened => exact hstart
  | @append log e h _ payload ih =>
    obtain ⟨htwin, es, ps, hm, hsame⟩ := ih
    obtain ⟨above₁, name₁, id, -, hjournal⟩ := hm.file
    refine ⟨(hm.runSteps_append htwin hjournal payload).1, ?_⟩
    rw [append_isOk]
    cases hfits : fits payload with
    | false =>
      rw [append_of_refused (hm.refuses hfits), hm.refuses hfits]
      exact ⟨es, ps, hm, by simpa using hsame⟩
    | true =>
      obtain ⟨ps', hm', -⟩ := hm.append hfits
      rw [accepts_of_fits hfits, if_pos rfl]
      refine ⟨_, ps', hm', ?_⟩
      rw [List.map_append]
      exact Ring.rtake_append_congr hsame _
  | stop _ ih =>
    obtain ⟨htwin, es, ps, hm, hsame⟩ := ih
    exact ⟨_, .inl rfl, (hm.restorable htwin).congr hsame⟩
  | @stopInside log e h w payload k _ hw hleaves ih =>
    obtain ⟨htwin, es, ps, hm, hsame⟩ := ih
    rcases restorable_of_append hm htwin hw hleaves with hbefore | hafter
    · exact ⟨_, .inl rfl, hbefore.congr hsame⟩
    · refine ⟨_, .inr rfl, hafter.congr ?_⟩
      rw [List.map_append]
      exact Ring.rtake_append_congr hsame _
  | stopOpening _ hleaves ih =>
    obtain ⟨log', hlog', hr⟩ := ih
    exact ⟨log', hlog', hr.of_leaves hleaves⟩
  | @reopen log flight d m e h _ hopen ih =>
    obtain ⟨log', hlog', hr⟩ := ih
    obtain ⟨e', h', es, ps, hopen', hm, htwin, hsame⟩ :=
      Restorable.open (h := { disk := d, metrics := m }) hr
    rw [hopen] at hopen'
    cases hopen'
    refine ⟨htwin, es, ps, hm, hsame.trans ?_⟩
    unfold settled
    split
    · next hentries =>
      rw [hm.ring.entries_eq, (retains_fed log).entries_eq] at hentries
      rw [← hsame, hentries]
    · next hentries =>
      rcases hlog' with rfl | rfl
      · rw [hm.ring.entries_eq, (retains_fed log').entries_eq] at hentries
        exact absurd hsame hentries
      · rfl

/-- **A restart is invisible.** Take a run that begins with a successful opening, and goes on with
appends and further openings, stopped any number of times between two operations or inside one.
Wherever it stands, the next opening succeeds. The entries of the engine it gives, their number of
bytes and whether the ring is full are those of an engine that has no journal and never stopped,
and was given the entries of the first opening and all commands stored since, or these and the one
command in flight. -/
theorem Interrupted.restarts {e₀ : Engine} {h₀ : Host} {log : List Bytes} {flight : Option Bytes}
    {stage : Stage} (hsound : start.disk.Sound) (hextension : path.extension? ≠ some "tmp")
    (hopen : Engine.open (some path) start = (.ok e₀, h₀))
    (hrun : Interrupted path e₀ h₀ log flight stage) (m : Metrics) :
    ∃ e h log', Engine.open (some path) { disk := stage.disk, metrics := m } = (.ok e, h) ∧
      (log' = log ∨ log' = log ++ flight.toList) ∧
      e.ring.entries = (fed log').ring.entries ∧
      e.ring.totalBytes = (fed log').ring.totalBytes ∧ e.ring.full = (fed log').ring.full := by
  obtain ⟨above, name, above', name', hstart⟩ := tracks_of_open hsound hextension hopen
  have htracks := hrun.tracks hstart
  have hr : ∃ log', (log' = log ∨ log' = log ++ flight.toList) ∧
      Restorable stage.disk path above name above' name' (log'.map Entry.mk) := by
    cases stage with
    | running e h =>
      obtain ⟨htwin, es, ps, hm, hsame⟩ := htracks
      exact ⟨log, .inl rfl, (hm.restorable htwin).congr hsame⟩
    | stopped d => exact htracks
  obtain ⟨log', hlog', hr⟩ := hr
  obtain ⟨e, h, es, ps, hopen', hm, -, hsame⟩ :=
    Restorable.open (h := { disk := stage.disk, metrics := m }) hr
  exact ⟨e, h, log', hopen', hlog', hm.ring.alike (retains_fed log') hsame⟩

/-- An append to an empty journal is stopped after three bytes of the record. The next opening
gives an engine with no entries or with the one that was in flight. -/
theorem restarts_of_torn_append :
    ∃ e₀ h₀ w, Engine.open (some examplePath) {} = (.ok e₀, h₀) ∧ e₀.journal = some w ∧
      ∃ k, Leaves { disk := h₀.disk, file := some w.file } (e₀.appendSteps [0x61, 0x0a]) k ∧
        k.disk = h₀.disk.write w.file [0, 0, 0] ∧
        ∃ e h, Engine.open (some examplePath) { disk := k.disk } = (.ok e, h) ∧
          (e.ring.entries = [] ∨ e.ring.entries = [{ bytes := [0x61, 0x0a] }]) := by
  obtain ⟨e₀, h₀, hopen, hm⟩ := open_empty
  obtain ⟨above, name, id, -, hjournal⟩ := hm.file
  have hretained : retained e₀.ring = [] := hm.retained_eq
  have hleaves : Leaves { disk := h₀.disk, file := some id } (e₀.appendSteps [0x61, 0x0a])
      { disk := h₀.disk.write id [0, 0, 0], file := some id } := by
    have hcut : ∃ rest, Journal.Record.encode { seq := 0, payload := [0x61, 0x0a] } =
        [0, 0, 0] ++ rest := ⟨_, rfl⟩
    obtain ⟨rest, hrest⟩ := hcut
    rw [appendSteps, hjournal]
    simp only [List.length_nil]
    rw [if_pos (by decide), Journal.appendSteps, hrest]
    exact Leaves.torn _ rfl [0, 0, 0] rest _
  have hopened : Interrupted examplePath e₀ h₀ (retained e₀.ring) none (.running e₀ h₀) := .opened
  rw [hretained] at hopened
  have hrun := hopened.stopInside hjournal hleaves
  obtain ⟨e, h, log', hopen', hlog', hentries, -, -⟩ :=
    Interrupted.restarts (Disk.sound_under _) (by decide +kernel) hopen hrun {}
  refine ⟨e₀, h₀, _, hopen, hjournal, _, hleaves, rfl, e, h, hopen', ?_⟩
  rw [hentries]
  rcases hlog' with rfl | rfl
  · exact .inl (retains_fed []).entries_eq
  · exact .inr (retains_fed [_]).entries_eq

end CommandLog.Engine
