import CommandLog.Inspect
import CommandLog.Proofs.Engine.Mirror
import CommandLog.Proofs.Journal.Placed

/-!
# Three readers of one journal

A journal is read by whoever inspects it, by whoever appends to it, and by an engine that is opened
on it. They meet damage in three ways: it is reported, it is refused, and it is cut off together
with everything behind it. Whatever a file holds, they agree on what is in front of the damage, on
whether there is any, and on which files are no journals at all.

* `CommandLog.Engine.Settles` – **an engine opens on some payloads**: it retains the last of them,
  the journal is replaced by just these, and opening an engine again changes nothing more;
* `CommandLog.Engine.settles_of_recover` – what is recovered is what an engine opens on;
* `CommandLog.Journal.Holds.summary_eq`, `CommandLog.Journal.Holds.open_of_parse` and
  `CommandLog.Engine.recover_of_holds` – each of the three in terms of what the file reads as;
* `CommandLog.Engine.readers_agree` – **the three of them agree** on every file.

The only condition is that the temporary sibling of the journal can be created, because the engine
replaces the journal even where there is nothing to cut off.
-/

namespace CommandLog

namespace Journal

variable {d : Disk} {path : Path} {above : Place} {name : String} {id : FileId} {bytes : Bytes}
  {c : Contents}

/-- **What is shown of a file** is what it reads as. -/
theorem Holds.summary_eq (h : Holds d path above name id bytes) :
    Summary.load d path = (parse bytes).map fun c =>
      { records := c.records, totalBytes := c.totalBytes, damage := c.failure } := by
  rw [Summary.load, h.load]

theorem Contents.nextSeq_eq (c : Contents) :
    c.nextSeq = (c.records.getLast?.map (·.seq + 1)).getD 0 := by
  rw [Contents.nextSeq]
  rcases c.records.getLast? with _ | r
  · rfl
  · rfl

/-- **The number after the last one has room in its field**, unless the last one is the greatest
that has. -/
theorem nextSeq_lt (hparse : parse bytes = .ok c) (hlast : ∀ r ∈ c.records, r.seq ≠ 2 ^ 64 - 1) :
    c.nextSeq < 2 ^ 64 := by
  rw [Contents.nextSeq]
  rcases hr : c.records.getLast? with _ | r
  · decide
  · have hmem := List.mem_of_getLast? hr
    have hlt := (storable_of_mem_parse hparse hmem).seq_lt
    have hne := hlast r hmem
    simp only
    omega

end Journal

namespace Engine

open Journal (Holds Placed Blank Header fits logPath oneFile threeBytes)

variable {h : Host} {path : Path} {above : Place} {name name' : String} {bytes : Bytes}
  {ps : List Bytes}

/-! ### What an engine opens on -/

/-- **An engine opens on some payloads.** Its ring holds the last of them, and the journal is
replaced by just these. Another engine, whenever it is opened after that, has the same entries and
leaves the journal as it is. -/
def Settles (path : Path) (h : Host) (ps : List Bytes) : Prop :=
  ∃ e h', Engine.open (some path) h = (.ok e, h') ∧
    e.ring.entries = (ps.rtake retainedCommands).map Entry.mk ∧
    h'.disk.read path = .ok (Journal.encode (ps.rtake retainedCommands)) ∧
    ∀ m, ∃ e' h'', Engine.open (some path) { h' with metrics := m } = (.ok e', h'') ∧
      e'.ring.entries = e.ring.entries ∧ h''.disk.read path = h'.disk.read path

/-- **An opening succeeds** where there is a place for the journal and something to recover. -/
theorem open_of_placed (hplaced : Placed h.disk path above name name') (hsound : h.disk.Sound)
    (hrecover : recover path h.disk = .ok (Ring.ofList (ps.map Entry.mk)))
    (hfits : ∀ p ∈ ps, fits p = true) :
    ∃ e h' id, Engine.open (some path) h = (.ok e, h') ∧
      e.ring.entries = (ps.rtake retainedCommands).map Entry.mk ∧
      Holds h'.disk path above name id (Journal.encode (ps.rtake retainedCommands)) ∧
      Placed h'.disk path above name name' := by
  obtain ⟨d', id, hreplace, hplaced', hholds⟩ :=
    hplaced.replace hsound (fits_of_mem_rtake hfits retainedCommands)
  obtain ⟨e, h', hopen, rfl, hm⟩ := open_of_recover hsound hrecover hfits hreplace
  refine ⟨e, h', id, hopen, ?_, hholds, hplaced'⟩
  rw [hm.entries_eq, Ring.rtake_map_rtake, Ring.map_rtake]

/-- **What is recovered is what an engine opens on.** Nothing is cut off the second time, since the
journal is whole then and no longer than what is retained. -/
theorem settles_of_recover (hplaced : Placed h.disk path above name name') (hsound : h.disk.Sound)
    (hrecover : recover path h.disk = .ok (Ring.ofList (ps.map Entry.mk)))
    (hfits : ∀ p ∈ ps, fits p = true) : Settles path h ps := by
  obtain ⟨e, h', id, hopen, hentries, hholds, hplaced'⟩ :=
    open_of_placed hplaced hsound hrecover hfits
  refine ⟨e, h', hopen, hentries, hholds.read, ?_⟩
  rintro m
  have hfits' := fits_of_mem_rtake hfits retainedCommands
  have hrecover' : recover path h'.disk =
      .ok (Ring.ofList ((ps.rtake retainedCommands).map Entry.mk)) := by
    rw [recover_of_parse hholds.read (Journal.parse_encode hfits'), Journal.Contents.payloads_of]
  obtain ⟨e', h'', id', hopen', hentries', hholds', -⟩ :=
    open_of_placed (h := { h' with metrics := m }) hplaced' hholds.sound hrecover' hfits'
  refine ⟨e', h'', hopen', ?_, ?_⟩
  · rw [hentries', hentries, Ring.rtake_rtake]
  · rw [hholds'.read, hholds.read, Ring.rtake_rtake]

/-- A journal that cannot be recovered is left alone. -/
theorem open_of_recover_error {e : Journal.Error} (hrecover : recover path h.disk = .error e) :
    Engine.open (some path) h = (.error (.journal e), h) := by
  simp only [Engine.open, hrecover]

/-! ### The three readers -/

/-- **The three readers of a journal agree.** On a file that has contents and no header of the right
kind and version, each of them fails because of that header, and nothing is changed. On a file that
has one, a summary lists records and their total length, and the damage behind them if there is any.
As long as every record has a number with a next one, a writer cannot be opened because of the
damage, or can be opened for want of any and goes on after the last number; nothing is changed
either way. An engine can be opened in any case, and opens on the payloads of the records. A file
without contents is an empty journal for the last two of them. -/
theorem readers_agree (hsound : h.disk.Sound) (hread : h.disk.read path = .ok bytes)
    (hcreate : ∃ r, h.disk.create path.temporary = .ok r) :
    (bytes ≠ [] → (¬∃ reserved, ({ reserved } : Header).encode <+: bytes) →
      ∃ e, (Header.read bytes).1 = .error e ∧ Summary.load h.disk path = .error e ∧
        Journal.Writer.open path h.disk = (.error e, h.disk) ∧
        Engine.open (some path) h = (.error (.journal e), h)) ∧
    ((∃ reserved, ({ reserved } : Header).encode <+: bytes) →
      ∃ s, Summary.load h.disk path = .ok s ∧
        s.totalBytes = total (s.records.map fun r => r.payload.length) ∧
        ((∀ r ∈ s.records, r.seq ≠ 2 ^ 64 - 1) →
          (∀ e, s.damage = some e → Journal.Writer.open path h.disk = (.error e, h.disk)) ∧
          (s.damage = none → ∃ w, Journal.Writer.open path h.disk = (.ok w, h.disk) ∧
            w.nextSeq = (s.records.getLast?.map (·.seq + 1)).getD 0 ∧ w.nextSeq < 2 ^ 64)) ∧
        Settles path h (s.records.map Journal.Record.payload)) ∧
    (bytes = [] →
      (∃ w d', Journal.Writer.open path h.disk = (.ok w, d') ∧ w.nextSeq = 0 ∧
        d'.read path = .ok (Journal.encode [])) ∧
      Settles path h []) := by
  obtain ⟨above, name, id, hholds⟩ := Journal.holds_of_read hsound hread
  obtain ⟨name', hplaced⟩ :=
    Journal.placed_of_create hholds.sound hholds.leads (Disk.isLeaf_of_file hholds.node) hcreate
  refine ⟨?_, ?_, ?_⟩
  · rintro hne hheader
    rw [← Journal.exists_parse_iff] at hheader
    rcases hparse : Journal.parse bytes with e | c
    · refine ⟨e, Journal.parse_eq_error_iff.mp hparse, ?_, ?_, open_of_recover_error ?_⟩
      · rw [hholds.summary_eq, hparse]
        rfl
      · rw [hholds.open_of_parse hne, hparse]
      · rw [recover_of_holds hholds hne, hparse]
        rfl
    · exact absurd ⟨c, hparse⟩ hheader
  · rintro hheader
    obtain ⟨c, hparse⟩ := Journal.exists_parse_iff.mpr hheader
    have hne : bytes ≠ [] := by
      rintro rfl
      exact absurd hparse (by simp [Journal.parse_nil])
    have hwriter := hholds.open_of_parse hne
    simp only [hparse] at hwriter
    refine ⟨{ records := c.records, totalBytes := c.totalBytes, damage := c.failure }, ?_, ?_, ?_,
      ?_⟩
    · rw [hholds.summary_eq, hparse]
      rfl
    · rw [Journal.Contents.totalBytes, Journal.Contents.payloads, List.map_map]
      rfl
    · rintro hlast
      constructor
      · rintro e (hdamage : c.failure = some e)
        rw [hwriter, hdamage]
      · rintro (hdamage : c.failure = none)
        rw [hdamage] at hwriter
        exact ⟨_, hwriter, c.nextSeq_eq, Journal.nextSeq_lt hparse hlast⟩
    · refine settles_of_recover hplaced hsound ?_ (fits_of_mem_payloads hparse)
      rw [recover_of_holds hholds hne, hparse]
      exact congrArg Except.ok (replay_eq c)
  · rintro rfl
    obtain ⟨id', d', hopen, -, hholds'⟩ := Blank.open (.inr hread) hplaced hsound
    refine ⟨⟨_, d', hopen, rfl, hholds'.read⟩, settles_of_recover hplaced hsound ?_ (by simp)⟩
    rw [recover, hholds.hasContent]
    rfl

/-- Three bytes behind a journal are reported, refused, and cut off. -/
theorem readers_agree_of_three_bytes :
    (oneFile threeBytes).Sound ∧ (oneFile threeBytes).read logPath = .ok threeBytes ∧
      (∃ r, (oneFile threeBytes).create logPath.temporary = .ok r) ∧
      (∃ s, Summary.load (oneFile threeBytes) logPath = .ok s ∧ s.records = [] ∧
        s.totalBytes = 0 ∧ s.damage = some (.truncated 16)) ∧
      Journal.Writer.open logPath (oneFile threeBytes) =
        (.error (.truncated 16), oneFile threeBytes) ∧
      Settles logPath { disk := oneFile threeBytes } [] := by
  have hholds := Journal.holds_oneFile threeBytes
  have hcreate : ∃ r, (oneFile threeBytes).create logPath.temporary = .ok r :=
    (Journal.leads_temporary_logPath _).create (Disk.isLeaf_of_none rfl)
  obtain ⟨-, hjournal, -⟩ :=
    readers_agree (h := { disk := oneFile threeBytes }) hholds.sound hholds.read hcreate
  obtain ⟨s, hload, htotal, hwriter, hsettles⟩ := hjournal ⟨0, [1, 2, 3], rfl⟩
  have hparse : Journal.parse threeBytes =
      .ok { records := [], failure := some (.truncated 16) } := by
    rw [threeBytes, Journal.encode_nil, Journal.parse, Header.read_encode_append]
    exact congrArg Except.ok (Journal.scan_eq Header.size [1, 2, 3])
  have hs := hload
  rw [hholds.summary_eq, hparse] at hs
  obtain rfl := Except.ok.inj hs
  obtain ⟨hrefused, -⟩ := hwriter (by simp)
  exact ⟨hholds.sound, hholds.read, hcreate, ⟨_, hload, rfl, htotal, rfl⟩, hrefused _ rfl, hsettles⟩

end Engine

end CommandLog
