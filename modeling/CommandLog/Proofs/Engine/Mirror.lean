import CommandLog.Proofs.Engine.Append
import CommandLog.Proofs.Journal.Partition
import CommandLog.Proofs.Journal.Replace

/-!
# The journal mirrors the ring

As long as nobody else writes to it, the file behind an engine holds a whole journal whose last
payloads are the entries of the ring.

* `CommandLog.Engine.Mirrors` – **the invariant**: the engine has retained some entries, the
  journal's path leads to the encoding of some payloads, and the last of both are the same;
* `CommandLog.Engine.open_of_recover` and `CommandLog.Engine.mirrors_of_open` – a successful
  opening establishes it, with the retained payloads for the journal;
* `CommandLog.Engine.Mirrors.append` – an append keeps it. It goes to the end of the journal, and
  when the journal is long enough then, it is replaced by the retained payloads or, if that fails,
  goes on as it is;
* `CommandLog.Engine.Working` – an engine at work, with the number of replacements that failed;
* `CommandLog.Engine.Working.mirrors_journal` – **the journal mirrors the ring** at all times.

The invariant does not say how the payloads in the journal and the entries ever appended are
related beyond the last ones: after a replacement the journal has forgotten the older ones, and the
ring's positions still count them.
-/

namespace CommandLog.Engine

open Journal (Holds Stands Twin fits)

variable {e e' : Engine} {h h' start : Host} {d d' : Disk} {path : Path} {es : List Entry}
  {ps : List Bytes} {payload : Bytes} {above above' : Place} {name name' : String}

/-! ### The invariant -/

/-- **A journal that matches the ring.** -/
structure Mirrors (path : Path) (es : List Entry) (ps : List Bytes) (e : Engine) (d : Disk) :
    Prop where
  /-- The engine knows where its journal is. -/
  path_eq : e.path = some path
  /-- The path leads to the journal of the payloads, and the writer has that file open. -/
  file : ∃ above name id, Holds d path above name id (Journal.encode ps) ∧
    e.journal = some { path, file := id, nextSeq := ps.length }
  /-- The payloads fit records. -/
  fitting : ∀ p ∈ ps, fits p = true
  /-- The ring retains the entries. -/
  ring : e.ring.Retains es
  /-- The last of both are the same. -/
  same : (ps.map Entry.mk).rtake retainedCommands = es.rtake retainedCommands

/-- What the ring retains are the last payloads of the journal. -/
theorem Mirrors.retained_eq (hm : Mirrors path es ps e d) :
    retained e.ring = ps.rtake retainedCommands := by
  rw [retained, hm.ring.entries_eq, ← hm.same, Ring.map_rtake, List.map_map]
  exact List.map_id _

theorem Mirrors.entries_eq (hm : Mirrors path es ps e d) :
    e.ring.entries = (ps.map Entry.mk).rtake retainedCommands := by
  rw [hm.ring.entries_eq, hm.same]

/-- **The journal reads back.** -/
theorem Mirrors.load_eq (hm : Mirrors path es ps e d) :
    Journal.load d path = .ok (Journal.Contents.of ps none) := by
  obtain ⟨above, name, id, hholds, -⟩ := hm.file
  rw [hholds.load, Journal.parse_encode hm.fitting]

/-- Changes of the disk that leave the journal as it is. -/
structure Spares (path : Path) (d d' : Disk) : Prop where
  /-- Files have one name each, and there are no links. -/
  sound : d'.Sound
  /-- The path leads to the file that it led to. -/
  locate : d'.locateFile path = d.locateFile path
  /-- That file has the contents that it had. -/
  content : ∀ id, d.locateFile path = .ok id → d'.content id = d.content id

theorem Mirrors.spared (hm : Mirrors path es ps e d) (hspares : Spares path d d') :
    Mirrors path es ps e d' := by
  obtain ⟨above, name, id, hholds, hjournal⟩ := hm.file
  have hlocate := hspares.locate.trans hholds.locateFile
  obtain ⟨above', name', hholds'⟩ := Journal.holds_of_locateFile hspares.sound hlocate
  rw [hspares.content id hholds.locateFile, hholds.content] at hholds'
  exact ⟨hm.path_eq, ⟨above', name', id, hholds', hjournal⟩, hm.fitting, hm.ring, hm.same⟩

/-! ### Opening -/

theorem replay_eq (c : Journal.Contents) : replay c = Ring.ofList (c.payloads.map Entry.mk) := by
  rw [replay, Journal.Contents.payloads, List.map_map]
  rfl

/-- **What is recovered of a file that is not empty** is what it reads as. -/
theorem recover_of_read {bytes : Bytes} (hread : d.read path = .ok bytes) (hne : bytes ≠ []) :
    recover path d = (Journal.parse bytes).map replay := by
  have hcontent : d.hasContent path = true := by
    rw [Disk.hasContent_of_read hread, List.isEmpty_eq_false_iff.mpr hne]
    rfl
  rw [recover, if_pos hcontent, Journal.load, hread]

/-- **What is recovered of a journal** are its payloads. -/
theorem recover_of_parse {bytes : Bytes} {c : Journal.Contents} (hread : d.read path = .ok bytes)
    (hparse : Journal.parse bytes = .ok c) :
    recover path d = .ok (Ring.ofList (c.payloads.map Entry.mk)) := by
  have hne : bytes ≠ [] := by
    rintro rfl
    exact absurd hparse (by simp [Journal.parse_nil])
  rw [recover_of_read hread hne, hparse]
  exact congrArg Except.ok (replay_eq c)

theorem recover_of_holds {id : FileId} {bytes : Bytes} (hholds : Holds d path above name id bytes)
    (hne : bytes ≠ []) : recover path d = (Journal.parse bytes).map replay :=
  recover_of_read hholds.read hne

/-- The payloads that are read fit records. -/
theorem fits_of_mem_payloads {bytes : Bytes} {c : Journal.Contents}
    (hparse : Journal.parse bytes = .ok c) : ∀ p ∈ c.payloads, fits p = true := by
  rintro p hp
  obtain ⟨r, hr, rfl⟩ := List.mem_map.mp hp
  exact (Journal.storable_of_mem_parse hparse hr).fits

/-- What is recovered are entries that fit records. -/
theorem ring_of_recover {ring : CommandRing} (hrecover : recover path d = .ok ring) :
    ∃ ps : List Bytes, ring = Ring.ofList (ps.map Entry.mk) ∧ ∀ p ∈ ps, fits p = true := by
  rw [recover] at hrecover
  split at hrecover
  · rw [Journal.load] at hrecover
    rcases hread : d.read path with f | bytes
    · rw [hread] at hrecover
      exact absurd hrecover (by simp [Except.map])
    · rw [hread] at hrecover
      rcases hparse : Journal.parse bytes with e | c
      · simp [hparse, Except.map] at hrecover
      · simp only [hparse] at hrecover
        obtain rfl := Except.ok.inj hrecover
        exact ⟨c.payloads, replay_eq c, fits_of_mem_payloads hparse⟩
  · obtain rfl := Except.ok.inj hrecover
    exact ⟨[], rfl, by simp⟩

theorem fits_of_mem_rtake (hfits : ∀ p ∈ ps, fits p = true) (n : Nat) :
    ∀ p ∈ ps.rtake n, fits p = true :=
  fun p hp => hfits p (List.mem_of_mem_drop hp)

theorem retained_ofList (ps : List Bytes) :
    retained (Ring.ofList (ps.map Entry.mk)) = ps.rtake retainedCommands := by
  have hretains : (Ring.ofList (ps.map Entry.mk) : CommandRing).Retains (ps.map Entry.mk) :=
    Ring.retains_ofList (by decide) _
  rw [retained, hretains.entries_eq, Ring.map_rtake, List.map_map]
  exact List.map_id _

/-- A journal that has been replaced by what is retained can be opened. -/
theorem open_of_replace_ok (hsound : d.Sound) (hfits : ∀ p ∈ ps, fits p = true)
    (hreplace : Journal.replace path (ps.rtake retainedCommands) d = (.ok (), d')) :
    ∃ above name id,
      Holds d' path above name id (Journal.encode (ps.rtake retainedCommands)) ∧
      Journal.Writer.open path d' =
        (.ok { path, file := id, nextSeq := (ps.rtake retainedCommands).length }, d') := by
  have hfits' := fits_of_mem_rtake hfits retainedCommands
  obtain ⟨above, name, id, hholds⟩ := Holds.of_replace_ok hsound hfits' hreplace
  have hlength : (ps.rtake retainedCommands).length ≤ 2 ^ 64 :=
    Nat.le_trans (Ring.length_rtake_le ps) (by decide)
  exact ⟨above, name, id, hholds, hholds.open_eq hfits' hlength⟩

/-- **An opening whose replacement succeeds** makes the journal match the ring. -/
theorem open_of_recover (hsound : h.disk.Sound)
    (hrecover : recover path h.disk = .ok (Ring.ofList (ps.map Entry.mk)))
    (hfits : ∀ p ∈ ps, fits p = true)
    (hreplace : Journal.replace path (ps.rtake retainedCommands) h.disk = (.ok (), d')) :
    ∃ e h', Engine.open (some path) h = (.ok e, h') ∧ h'.disk = d' ∧
      Mirrors path (ps.map Entry.mk) (ps.rtake retainedCommands) e d' := by
  obtain ⟨above, name, id, hholds, hwriter⟩ := open_of_replace_ok hsound hfits hreplace
  simp only [Engine.open, hrecover, renew, retained_ofList, hreplace, hwriter]
  refine ⟨_, _, rfl, rfl, ?_⟩
  exact
    { path_eq := rfl
      file := ⟨above, name, id, hholds, rfl⟩
      fitting := fits_of_mem_rtake hfits _
      ring := Ring.retains_ofList (by decide) _
      same := Ring.rtake_map_rtake Entry.mk ps }

/-- **A successful opening** is one that recovers something and whose replacement succeeds. -/
theorem recover_of_open (hopen : Engine.open (some path) h = (.ok e, h')) :
    ∃ ps : List Bytes, recover path h.disk = .ok (Ring.ofList (ps.map Entry.mk)) ∧
      (∀ p ∈ ps, fits p = true) ∧
      ∃ d', Journal.replace path (ps.rtake retainedCommands) h.disk = (.ok (), d') := by
  simp only [Engine.open] at hopen
  cases hrecover : recover path h.disk with
  | error err =>
    rw [hrecover] at hopen
    cases hopen
  | ok ring =>
    rw [hrecover] at hopen
    obtain ⟨ps, rfl, hfits⟩ := ring_of_recover hrecover
    refine ⟨ps, rfl, hfits, ?_⟩
    simp only [renew, retained_ofList] at hopen
    cases hreplace : Journal.replace path (ps.rtake retainedCommands) h.disk with
    | mk result d₁ =>
      rw [hreplace] at hopen
      cases result with
      | error err => cases hopen
      | ok => exact ⟨d₁, rfl⟩

/-- **An opening succeeds** where there is a pair of places and something to recover. -/
theorem open_of_twin (htwin : Twin h.disk path above name above' name') (hsound : h.disk.Sound)
    (hrecover : recover path h.disk = .ok (Ring.ofList (ps.map Entry.mk)))
    (hfits : ∀ p ∈ ps, fits p = true) :
    ∃ e h', Engine.open (some path) h = (.ok e, h') ∧
      Mirrors path (ps.map Entry.mk) (ps.rtake retainedCommands) e h'.disk ∧
      Twin h'.disk path above name above' name' := by
  obtain ⟨d', hreplace, hstands, -⟩ :=
    htwin.replace hsound (fits_of_mem_rtake hfits retainedCommands) none
  obtain ⟨e, h', hopen, rfl, hm⟩ := open_of_recover hsound hrecover hfits hreplace
  exact ⟨e, h', hopen, hm, hstands.twin⟩

theorem mirrors_of_open (hsound : h.disk.Sound)
    (hopen : Engine.open (some path) h = (.ok e, h')) :
    ∃ ps : List Bytes,
      Mirrors path (ps.map Entry.mk) (ps.rtake retainedCommands) e h'.disk := by
  obtain ⟨ps, hrecover, hfits, d', hreplace⟩ := recover_of_open hopen
  obtain ⟨e', h'', hopen', rfl, hm⟩ := open_of_recover hsound hrecover hfits hreplace
  rw [hopen] at hopen'
  cases hopen'
  exact ⟨ps, hm⟩

/-! ### A journal on an empty disk -/

/-- A name in the working directory. -/
def examplePath : Path where
  parts := ["log"]

theorem twin_empty : Twin Disk.empty examplePath ["home"] "log" ["home"] "log.tmp" :=
  Journal.twin_logPath (Disk.isLeaf_of_none rfl) (Disk.isLeaf_of_none rfl)

/-- **A journal can be opened** on a disk with nothing on it. -/
theorem open_empty : ∃ e h, Engine.open (some examplePath) {} = (.ok e, h) ∧
    Mirrors examplePath [] [] e h.disk := by
  have hcontent : Disk.empty.hasContent examplePath = false := by
    rw [Disk.hasContent, twin_empty.leads.locate twin_empty.plain]
    decide +kernel
  have hrecover : recover examplePath Disk.empty =
      .ok (Ring.ofList (([] : List Bytes).map Entry.mk)) := by
    rw [recover, hcontent]
    rfl
  obtain ⟨e, h, hopen, hm, -⟩ :=
    open_of_twin (h := {}) twin_empty (Disk.sound_under _) hrecover (by simp)
  exact ⟨e, h, hopen, hm⟩

/-! ### Appending -/

/-- **The record of an accepted command** is at the end of the journal. -/
theorem Mirrors.record_store (hm : Mirrors path es ps e d) (hfits : fits payload = true)
    (m : Metrics) :
    ∃ w, e.journal = some w ∧ w.nextSeq = ps.length ∧
      e.record payload d =
        (.ok (), { e with journal := some { w with nextSeq := w.nextSeq + 1 } },
          d.write w.file (Journal.Record.encode { seq := w.nextSeq, payload })) ∧
      Mirrors path (es ++ [{ bytes := payload }]) (ps ++ [payload])
        (store { e with journal := some { w with nextSeq := w.nextSeq + 1 } } payload m).2.1
        (d.write w.file (Journal.Record.encode { seq := w.nextSeq, payload })) := by
  obtain ⟨above, name, id, hholds, hjournal⟩ := hm.file
  have hwritten := hholds.write (Journal.Record.encode { seq := ps.length, payload })
  rw [← Journal.encode_append_singleton] at hwritten
  refine ⟨_, hjournal, rfl, ?_, ?_⟩
  · simp only [record, hjournal, Journal.append_eq hfits]
  · exact
      { path_eq := hm.path_eq
        file := ⟨above, name, id, hwritten, by simp [store]⟩
        fitting := by
          intro p hp
          rcases List.mem_append.mp hp with hold | hnew
          · exact hm.fitting p hold
          · rw [List.mem_singleton.mp hnew]
            exact hfits
        ring := hm.ring.append _
        same := by
          rw [List.map_append]
          exact Ring.rtake_append_congr hm.same _ }

/-- **A replacement of the journal**, done or failed. -/
theorem Mirrors.compact (hm : Mirrors path es ps e d) :
    (e.compact d).2 = (Journal.replace path (retained e.ring) d).2 ∧
      (((Journal.replace path (retained e.ring) d).1 = .ok () ∧
          Mirrors path es (ps.rtake retainedCommands) (e.compact d).1 (e.compact d).2) ∨
        (∃ err, (Journal.replace path (retained e.ring) d).1 = .error err) ∧
          Mirrors path es ps (e.compact d).1 (e.compact d).2) := by
  obtain ⟨above, name, id, hholds, hjournal⟩ := hm.file
  simp only [Engine.compact, hm.path_eq, hm.retained_eq]
  cases hreplace : Journal.replace path (ps.rtake retainedCommands) d with
  | mk result d₁ =>
    cases result with
    | ok =>
      obtain ⟨above', name', id', hholds', hwriter⟩ :=
        open_of_replace_ok hholds.sound hm.fitting hreplace
      simp only [hwriter]
      refine ⟨trivial, .inl ⟨trivial, ?_⟩⟩
      exact
        { path_eq := rfl
          file := ⟨above', name', id', hholds', rfl⟩
          fitting := fits_of_mem_rtake hm.fitting _
          ring := hm.ring
          same := by rw [Ring.rtake_map_rtake, hm.same] }
    | error err =>
      have hholds' := hholds.of_replace_error (fits_of_mem_rtake hm.fitting _) hreplace
      refine ⟨rfl, .inr ⟨⟨err, rfl⟩, ?_⟩⟩
      exact ⟨hm.path_eq, ⟨above, name, id, hholds', hjournal⟩, hm.fitting, hm.ring, hm.same⟩

/-- What becomes of the replacement that an append ends with, if it ends with one. -/
def compaction (e : Engine) (payload : Bytes) (h : Host) : Option (Except Journal.Error Unit) :=
  match e.record payload h.disk with
  | (.error _, _, _) => none
  | (.ok (), recorded, disk) =>
    let stored := (recorded.store payload h.metrics).2.1
    if stored.isOversized then
      stored.path.map fun path => (Journal.replace path (retained stored.ring) disk).1
    else none

theorem compaction_eq {e₁ : Engine} {d₁ : Disk} (hrecord : e.record payload h.disk = (.ok (), e₁, d₁))
    (hpath : (e₁.store payload h.metrics).2.1.path = some path) :
    e.compaction payload h =
      if (e₁.store payload h.metrics).2.1.isOversized then
        some (Journal.replace path (retained (e₁.store payload h.metrics).2.1.ring) d₁).1
      else none := by
  simp only [compaction, hrecord, hpath, Option.map_some]

theorem Mirrors.isOversized_iff (hm : Mirrors path es ps e d) :
    e.isOversized = true ↔ compactRecords ≤ ps.length := by
  obtain ⟨above, name, id, -, hjournal⟩ := hm.file
  simp [isOversized, hjournal]

/-- **An append keeps the journal matching**: it is one record longer afterwards, or it has just
been replaced by the retained payloads. -/
theorem Mirrors.append (hm : Mirrors path es ps e h.disk) (hfits : fits payload = true) :
    ∃ ps', Mirrors path (es ++ [{ bytes := payload }]) ps' (e.append payload h).2.1
        (e.append payload h).2.2.disk ∧
      ((ps.length + 1 < compactRecords ∧ e.compaction payload h = none ∧ ps' = ps ++ [payload]) ∨
        (compactRecords ≤ ps.length + 1 ∧ e.compaction payload h = some (.ok ()) ∧
          ps' = (ps ++ [payload]).rtake retainedCommands) ∨
        compactRecords ≤ ps.length + 1 ∧ (∃ err, e.compaction payload h = some (.error err)) ∧
          ps' = ps ++ [payload]) := by
  obtain ⟨w, -, -, hrecord, hstored⟩ := hm.record_store hfits h.metrics
  have hoversized := hstored.isOversized_iff
  rw [List.length_append, List.length_singleton] at hoversized
  rw [compaction_eq hrecord hstored.path_eq]
  simp only [Engine.append, hrecord]
  by_cases hlong :
      (store { e with journal := some { w with nextSeq := w.nextSeq + 1 } } payload
        h.metrics).2.1.isOversized
  · have hlength := hoversized.mp hlong
    rw [if_pos hlong, if_pos hlong]
    rcases hstored.compact.2 with ⟨hreplace, hafter⟩ | ⟨⟨err, hreplace⟩, hafter⟩
    · exact ⟨_, hafter, .inr (.inl ⟨hlength, congrArg some hreplace, rfl⟩)⟩
    · exact ⟨_, hafter, .inr (.inr ⟨hlength, ⟨err, congrArg some hreplace⟩, rfl⟩)⟩
  · have hlength := Nat.lt_of_not_le (mt hoversized.mpr hlong)
    rw [if_neg hlong, if_neg hlong]
    exact ⟨_, hstored, .inl ⟨hlength, rfl, rfl⟩⟩

/-! ### An engine at work -/

/-- Whether an append ends with a replacement that fails. -/
def compactionFails (e : Engine) (payload : Bytes) (h : Host) : Bool :=
  match e.compaction payload h with
  | some (.error _) => true
  | _ => false

/-- **An engine at work on a journal**, with the number of replacements that have failed. -/
inductive Working (path : Path) (start : Host) : Nat → Engine → Host → Prop where
  /-- It has been opened. -/
  | opened {e : Engine} {h : Host} (hopen : Engine.open (some path) start = (.ok e, h)) :
    Working path start 0 e h
  /-- It has been given a command to store. -/
  | append {failed : Nat} {e : Engine} {h : Host} (hw : Working path start failed e h)
    (payload : Bytes) :
    Working path start (failed + (e.compactionFails payload h).toNat) (e.append payload h).2.1
      (e.append payload h).2.2
  /-- Something else has happened to the disk, or to the metrics. -/
  | outside {failed : Nat} {e : Engine} {h : Host} (hw : Working path start failed e h) {d : Disk}
    (hspares : Spares path h.disk d) (m : Metrics) :
    Working path start failed e { disk := d, metrics := m }

theorem Mirrors.refuses (hm : Mirrors path es ps e d) (hlong : fits payload = false) :
    e.accepts payload = false := by
  obtain ⟨above, name, id, -, hjournal⟩ := hm.file
  simp [accepts, hjournal, hlong]

/-- **The invariant of a working engine**: its journal matches, and is short unless a replacement
has failed. -/
theorem Working.mirrors {failed : Nat} (hsound : start.disk.Sound)
    (hw : Working path start failed e h) :
    ∃ es ps, Mirrors path es ps e h.disk ∧ (failed = 0 → ps.length < compactRecords) := by
  induction hw with
  | opened hopen =>
    obtain ⟨ps, hm⟩ := mirrors_of_open hsound hopen
    refine ⟨_, _, hm, fun _ => Nat.lt_of_le_of_lt (Ring.length_rtake_le ps) (by decide)⟩
  | @append failed e h hw payload ih =>
    obtain ⟨es, ps, hm, hshort⟩ := ih
    cases hfits : fits payload with
    | false =>
      rw [append_of_refused (hm.refuses hfits)]
      exact ⟨es, ps, hm, fun hzero => hshort (by omega)⟩
    | true =>
      obtain ⟨ps', hm', houtcome⟩ := hm.append hfits
      refine ⟨_, ps', hm', ?_⟩
      intro hzero
      rcases houtcome with ⟨hlt, -, rfl⟩ | ⟨-, -, rfl⟩ | ⟨-, ⟨err, hfailed⟩, -⟩
      · rwa [List.length_append, List.length_singleton]
      · exact Nat.lt_of_le_of_lt (Ring.length_rtake_le _) (by decide)
      · simp [compactionFails, hfailed] at hzero
  | outside hw hspares m ih =>
    obtain ⟨es, ps, hm, hshort⟩ := ih
    exact ⟨es, ps, hm.spared hspares, hshort⟩

/-- A file cannot be made where a directory is, whatever is written elsewhere. -/
theorem create_write_of_directory (hsound : d.Sound) {id : FileId} {data : Bytes}
    (hdirectory : d.locate path = .ok (some .directory)) {r : FileId × Disk} :
    (d.write id data).create path ≠ .ok r := by
  obtain ⟨id', d'⟩ := r
  intro hcreate
  obtain ⟨above, name, hleads, hopened, -⟩ := (hsound.write id data).create_eq_ok hcreate
  have hleaf : d.IsLeaf (above ++ [name]) := hopened.isLeaf
  have hleads' : d.Leads path above name := hleads.keeps ⟨rfl, fun hp _ => hp⟩
  rw [hleads'.locate hleaf] at hdirectory
  exact hleaf.ne_directory (Except.ok.inj hdirectory)

/-- **A directory at the temporary sibling** makes every replacement fail. -/
theorem Mirrors.compaction_of_directory (hm : Mirrors path es ps e h.disk)
    (hfits : fits payload = true)
    (hdirectory : h.disk.locate path.temporary = .ok (some .directory)) :
    e.compaction payload h ≠ some (.ok ()) := by
  obtain ⟨w, -, -, hrecord, hstored⟩ := hm.record_store hfits h.metrics
  rw [compaction_eq hrecord hstored.path_eq]
  split
  · intro hdone
    rw [hstored.retained_eq,
      Journal.replace_eq (fits_of_mem_rtake hstored.fitting retainedCommands)] at hdone
    split at hdone
    · cases hdone
    · next hcreate =>
      obtain ⟨_, _, _, hholds, -⟩ := hm.file
      exact create_write_of_directory hholds.sound hdirectory hcreate
  · simp

/-- **The journal mirrors the ring.** An engine has been opened on a journal and given any commands
since, and nobody else has written to the journal's file. Then

* the file reads back without a failure, its records are numbered upwards from zero, in eight
  bytes each, there are as many of them as the number of the next one says, and the entries of the
  ring are the last of them;
* unless a replacement has failed, there are never as many records as make a journal be replaced;
* a command that fits a record is stored. The next number goes up by one, or to the number of
  retained entries when the journal is replaced, which is tried as soon as it is long enough and
  never done while the temporary sibling is a directory;
* a command that does not fit is refused, and changes nothing. -/
theorem Working.mirrors_journal {failed : Nat} (hsound : start.disk.Sound)
    (hw : Working path start failed e h) :
    ∃ w c, e.journal = some w ∧ Journal.load h.disk path = .ok c ∧ c.failure = none ∧
      c.records.map Journal.Record.seq = (List.range w.nextSeq).map (· % 2 ^ 64) ∧
      e.ring.entries = (c.records.map Journal.Record.entry).rtake retainedCommands ∧
      (failed = 0 → w.nextSeq < compactRecords) ∧
      ∀ payload,
        (Journal.fits payload = true →
          (e.append payload h).1.isOk ∧
          (e.compaction payload h = none ↔ w.nextSeq + 1 < compactRecords) ∧
          (h.disk.locate path.temporary = .ok (some .directory) →
            e.compaction payload h ≠ some (.ok ())) ∧
          ∃ w', (e.append payload h).2.1.journal = some w' ∧
            w'.nextSeq =
              if e.compaction payload h = some (.ok ()) then retainedCommands
              else w.nextSeq + 1) ∧
        (Journal.fits payload = false →
          e.append payload h = (.error (.journal (.io .recordTooLong)), e, h)) := by
  obtain ⟨es, ps, hm, hshort⟩ := hw.mirrors hsound
  obtain ⟨above, name, id, hholds, hjournal⟩ := hm.file
  refine ⟨_, _, hjournal, hm.load_eq, rfl, Journal.Contents.map_seq_of ps none, ?_, hshort, ?_⟩
  · rw [Journal.Contents.map_entry_of, hm.entries_eq]
  · intro payload
    refine ⟨?_, fun hlong => append_of_refused (hm.refuses hlong)⟩
    intro hfits
    obtain ⟨ps', hm', houtcome⟩ := hm.append hfits
    obtain ⟨-, -, id', -, hjournal'⟩ := hm'.file
    refine ⟨?_, ?_, hm.compaction_of_directory hfits, _, hjournal', ?_⟩
    · rw [append_isOk, accepts_of_fits hfits]
    · rcases houtcome with ⟨hlt, hnone, -⟩ | ⟨hle, hsome, -⟩ | ⟨hle, ⟨err, hsome⟩, -⟩
      · exact iff_of_true hnone hlt
      · exact iff_of_false (by rw [hsome]; simp) (Nat.not_lt.mpr hle)
      · exact iff_of_false (by rw [hsome]; simp) (Nat.not_lt.mpr hle)
    · rcases houtcome with ⟨-, hnone, rfl⟩ | ⟨hle, hsome, rfl⟩ | ⟨-, ⟨err, hsome⟩, rfl⟩
      · simp [hnone]
      · rw [if_pos hsome, Ring.length_rtake, List.length_append, List.length_singleton]
        exact Nat.min_eq_left (Nat.le_trans (by decide) hle)
      · simp [hsome]

/-- The first command on an empty disk is the first record of the journal. -/
theorem mirrors_journal_of_empty :
    ∃ e h, Working examplePath {} 0 e h ∧
      ∃ w w', e.journal = some w ∧ w.nextSeq = 0 ∧ (e.append [0x61, 0x0a] h).1.isOk ∧
        (e.append [0x61, 0x0a] h).2.1.journal = some w' ∧ w'.nextSeq = 1 := by
  obtain ⟨e, h, hopen, hm⟩ := open_empty
  have hw : Working examplePath {} 0 e h := .opened hopen
  obtain ⟨w, c, hjournal, -, -, hseq, hentries, -, happend⟩ :=
    Working.mirrors_journal (Disk.sound_under _) hw
  obtain ⟨hok, hcompaction, -, w', hjournal', hnext⟩ := (happend [0x61, 0x0a]).1 (by decide)
  -- nothing is retained, so there is no record and the first number is zero
  have hzero : w.nextSeq = 0 := by
    have hcount := congrArg List.length hseq
    have hnone := congrArg List.length (hentries.symm.trans hm.entries_eq)
    simp [Ring.length_rtake, retainedCommands] at hcount hnone
    rw [← hcount, hnone, List.length_nil]
  have hshort : e.compaction [0x61, 0x0a] h = none := by
    rw [hcompaction, hzero]
    decide
  rw [hshort, hzero, if_neg (by simp)] at hnext
  exact ⟨e, h, hw, w, w', hjournal, hzero, hok, hjournal', hnext⟩

end CommandLog.Engine
