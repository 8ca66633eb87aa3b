import CommandLog.Proofs.Journal.Placed
import CommandLog.Proofs.Journal.Reader

/-!
# What is written is read back

A journal may be opened, appended to and closed, and replaced while nobody has it open, any number
of times and in any order. At all times it holds what was appended to it since it was last replaced,
behind what it was replaced by.

* `CommandLog.Journal.Usage` – a disk, the writer if one is open, and what the journal should hold;
* `CommandLog.Journal.Usage.Step` – **one step of those who write**, and
  `CommandLog.Journal.Usage.Reached` – whatever some steps lead to, from a disk on which there is no
  journal yet;
* `CommandLog.Journal.Usage.Faithful` – **the invariant**: the file is the encoding of what it
  should hold, unless it has never been written, and the writer counts its records;
* `CommandLog.Journal.Usage.Faithful.step` – every step keeps it;
* `CommandLog.Journal.Usage.Reached.reads_back` – **nothing fails, and what is written is read
  back**.

The number of a record is stored in eight bytes, and a journal may be opened again when it has more
records than can be numbered so. The writer then counts from where the numbers have wrapped around
to, so its count is only known up to multiples of `2 ^ 64`, and this is as much as its records show.
-/

namespace CommandLog.Journal

variable {start : Disk} {path : Path} {above : Place} {name name' : String} {w : Writer}
  {payload : Bytes} {n : Nat}

/-! ### Writers that count -/

/-- **A writer counts the records of its journal**, up to what can be stored of a number. -/
structure Writer.Counts (w : Writer) (n : Nat) : Prop where
  /-- What is stored of its number is what is stored of theirs. -/
  mod_eq : w.nextSeq % 2 ^ 64 = n % 2 ^ 64
  /-- Its number is theirs as long as every record has a number of its own. -/
  eq_of_le : n ≤ 2 ^ 64 → w.nextSeq = n

theorem Writer.Counts.succ (h : w.Counts n) :
    ({ w with nextSeq := w.nextSeq + 1 } : Writer).Counts (n + 1) where
  mod_eq := by
    rw [Nat.add_mod, h.mod_eq, ← Nat.add_mod]
  eq_of_le hle := congrArg (· + 1) (h.eq_of_le (Nat.le_of_succ_le hle))

/-! ### Those who write -/

/-- A journal in use. -/
structure Usage where
  /-- The disk that the journal is on. -/
  disk : Disk
  /-- The writer that is open. -/
  writer : Option Writer
  /-- What the journal was last replaced by, and what was appended to it since. -/
  held : List Bytes

namespace Usage

variable {u u' : Usage}

/-- **One step of those who write.** Only what succeeds is a step. -/
inductive Step (path : Path) : Usage → Usage → Prop where
  /-- A writer is opened. -/
  | open {d d' : Disk} {held : List Bytes} {w : Writer} (hopen : Writer.open path d = (.ok w, d')) :
    Step path ⟨d, none, held⟩ ⟨d', some w, held⟩
  /-- The writer appends a payload, and is given a number for it. -/
  | append {d d' : Disk} {held : List Bytes} {w w' : Writer} {payload : Bytes} {n : Nat}
    (happend : w.append payload d = (.ok n, w', d')) :
    Step path ⟨d, some w, held⟩ ⟨d', some w', held ++ [payload]⟩
  /-- The writer is closed. -/
  | close {d : Disk} {held : List Bytes} {w : Writer} : Step path ⟨d, some w, held⟩ ⟨d, none, held⟩
  /-- The journal is replaced while nobody has it open. -/
  | replace {d d' : Disk} {held ps : List Bytes} (hfits : ∀ p ∈ ps, fits p = true)
    (hreplace : Journal.replace path ps d = (.ok (), d')) :
    Step path ⟨d, none, held⟩ ⟨d', none, ps⟩

/-- **What some steps lead to** from a disk that nobody has written a journal to. -/
inductive Reached (path : Path) (start : Disk) : Usage → Prop where
  /-- Nothing has happened yet. -/
  | start : Reached path start ⟨start, none, []⟩
  /-- One more step. -/
  | step {u u' : Usage} (h : Reached path start u) (hstep : Step path u u') : Reached path start u'

/-! ### The invariant -/

/-- The file is the encoding of what it should hold, and the writer has it open and counts its
records. -/
def Written (path : Path) (above : Place) (name : String) (u : Usage) : Prop :=
  ∃ id, Holds u.disk path above name id (encode u.held) ∧
    ∀ w, u.writer = some w → w.file = id ∧ w.Counts u.held.length

/-- **The file is the encoding of what it should hold**, unless it has never been written. -/
structure Faithful (path : Path) (above : Place) (name name' : String) (u : Usage) : Prop where
  /-- Files have one name each, and there are no links. -/
  sound : u.disk.Sound
  /-- There is a place for the journal and its temporary sibling. -/
  placed : Placed u.disk path above name name'
  /-- The payloads fit records. -/
  fitting : ∀ p ∈ u.held, fits p = true
  /-- The file has been written, or there is nothing to write yet. -/
  file : Written path above name u ∨ (u.writer = none ∧ u.held = [] ∧ Blank u.disk path)

/-- A file that has been written is faithful where it can be replaced. -/
theorem Written.faithful (h : Written path above name u)
    (hplaced : Placed u.disk path above name name') (hfits : ∀ p ∈ u.held, fits p = true) :
    Faithful path above name name' u where
  sound := h.elim fun _ hholds => hholds.1.sound
  placed := hplaced
  fitting := hfits
  file := .inl h

/-- **An open writer has written the file**, and counts its records. -/
theorem Faithful.written (h : Faithful path above name name' u) (hw : u.writer = some w) :
    Holds u.disk path above name w.file (encode u.held) ∧ w.Counts u.held.length := by
  rcases h.file with ⟨id, hholds, hwriter⟩ | ⟨hnone, -⟩
  · obtain ⟨rfl, hcounts⟩ := hwriter w hw
    exact ⟨hholds, hcounts⟩
  · rw [hw] at hnone
    exact absurd hnone (by simp)

/-- **Opening succeeds**, and the writer counts the records. -/
theorem Faithful.open (h : Faithful path above name name' u) :
    ∃ w d', Writer.open path u.disk = (.ok w, d') ∧ Placed d' path above name name' ∧
      Written path above name ⟨d', some w, u.held⟩ := by
  rcases h.file with ⟨id, hholds, -⟩ | ⟨-, hnil, hblank⟩
  · -- the records of the file say where to go on
    refine ⟨_, _, hholds.open_encode h.fitting, h.placed, id, hholds, ?_⟩
    rintro w hw
    obtain rfl := Option.some.inj hw
    exact ⟨rfl, nextSeq_mod u.held none, fun hle => nextSeq_of hle none⟩
  · obtain ⟨id, d', hopen, hplaced, hholds⟩ := hblank.open h.placed h.sound
    rw [hnil]
    refine ⟨_, d', hopen, hplaced, id, hholds, ?_⟩
    rintro w hw
    obtain rfl := Option.some.inj hw
    exact ⟨rfl, rfl, fun _ => rfl⟩

/-- **An appended payload is at the end of the journal.** The number that is written with it may
not be that of the record, but it is stored as the same. -/
theorem Faithful.append (h : Faithful path above name name' u) (hw : u.writer = some w)
    (hfits : fits payload = true) {d' : Disk}
    (hwrite : d' = u.disk.write w.file (Record.encode { seq := w.nextSeq, payload })) :
    Placed d' path above name name' ∧
      (∀ p ∈ u.held ++ [payload], fits p = true) ∧
      Written path above name
        ⟨d', some { w with nextSeq := w.nextSeq + 1 }, u.held ++ [payload]⟩ := by
  subst hwrite
  obtain ⟨hholds, hcounts⟩ := h.written hw
  have hwrite := hholds.write (Record.encode { seq := u.held.length, payload })
  rw [← encode_append_singleton, ← Record.encode_congr hcounts.mod_eq] at hwrite
  refine ⟨h.placed.opened ((Disk.opened_of_file hholds.node).write _), ?_, w.file, hwrite,
    ?_⟩
  · rintro p hp
    rcases List.mem_append.mp hp with hold | hnew
    · exact h.fitting p hold
    · rw [List.mem_singleton.mp hnew]
      exact hfits
  · rintro w' hw'
    obtain rfl := Option.some.inj hw'
    rw [List.length_append]
    exact ⟨rfl, hcounts.succ⟩

/-- **Every step keeps the invariant**, and the file has been written after it. -/
theorem Faithful.step (h : Faithful path above name name' u) (hstep : Step path u u') :
    Placed u'.disk path above name name' ∧ (∀ p ∈ u'.held, fits p = true) ∧
      Written path above name u' := by
  rcases hstep with hopen | happend | _ | ⟨hfits, hreplace⟩
  · -- the opening that is known to succeed is the one that did
    obtain ⟨w, d', hopen', hplaced, hwritten⟩ := h.open
    obtain ⟨hw, rfl⟩ := Prod.mk.inj (hopen'.symm.trans hopen)
    obtain rfl := Except.ok.inj hw
    exact ⟨hplaced, h.fitting, hwritten⟩
  · have hfits := fits_of_append happend
    rw [append_eq hfits] at happend
    obtain ⟨-, hrest⟩ := Prod.mk.inj happend
    obtain ⟨rfl, hdisk⟩ := Prod.mk.inj hrest
    exact h.append rfl hfits hdisk.symm
  · -- whoever closes a writer has had one, so the file has been written
    obtain ⟨hholds, -⟩ := h.written rfl
    exact ⟨h.placed, h.fitting, _, hholds, by simp⟩
  · obtain ⟨d₁, id, hreplace', hplaced, hholds⟩ := h.placed.replace h.sound hfits
    obtain ⟨-, rfl⟩ := Prod.mk.inj (hreplace'.symm.trans hreplace)
    exact ⟨hplaced, hfits, id, hholds, by simp⟩

/-- **All that is reached is faithful.** -/
theorem Reached.faithful (hsound : start.Sound) (hblank : Blank start path)
    (hcreate : ∃ r, start.create path.temporary = .ok r) (h : Reached path start u) :
    ∃ above name name', Faithful path above name name' u := by
  obtain ⟨above, name, hleads, hplain, -⟩ := hblank.obtain hsound
  obtain ⟨name', hplaced⟩ := placed_of_create hsound hleads hplain hcreate
  refine ⟨above, name, name', ?_⟩
  induction h with
  | start => exact ⟨hsound, hplaced, by simp, .inr ⟨rfl, rfl, hblank⟩⟩
  | step _ hstep ih =>
    obtain ⟨hplaced', hfits, hwritten⟩ := ih.step hstep
    exact hwritten.faithful hplaced' hfits

/-! ### Reading back -/

/-- **A journal reads back record by record**, numbered as far as a number can be stored. -/
theorem Written.reads (h : Written path above name u) (hfits : ∀ p ∈ u.held, fits p = true) :
    ∃ reader, Reader.open u.disk path = .ok reader ∧ ∀ n,
      reader.nth n = u.held[n]?.map fun p => .ok { seq := n % 2 ^ 64, payload := p } := by
  obtain ⟨id, hholds, -⟩ := h
  obtain ⟨reader, hopen, hnth⟩ := Reader.nth_of_parse (parse_encode hfits)
  refine ⟨reader, (Reader.open_eq hholds.read).trans hopen, ?_⟩
  rintro n
  rw [hnth]
  simp [Reader.items, Contents.of, getElem?_numbered, Record.wrapped, Function.comp_def]

/-- **What is written is read back.** From a disk on which there is no journal yet, and on which its
temporary sibling can be created, opening a writer always succeeds, and so does replacing the
journal by payloads that fit. An open writer has the number of records of the journal, as far as it
is stored and in full as long as that many can be numbered, and gives it to every payload that fits.
After every step, the journal reads back as what it was last replaced by and what was appended
since, numbered from zero, and nothing else. -/
theorem Reached.reads_back (hsound : start.Sound) (hblank : Blank start path)
    (hcreate : ∃ r, start.create path.temporary = .ok r) (h : Reached path start u) :
    (∃ w d', Writer.open path u.disk = (.ok w, d')) ∧
    (∀ ps, (∀ p ∈ ps, fits p = true) → ∃ d', Journal.replace path ps u.disk = (.ok (), d')) ∧
    (∀ w, u.writer = some w →
      w.nextSeq % 2 ^ 64 = u.held.length % 2 ^ 64 ∧
      (u.held.length ≤ 2 ^ 64 → w.nextSeq = u.held.length) ∧
      ∀ payload, fits payload = true →
        ∃ w' d', w.append payload u.disk = (.ok w.nextSeq, w', d')) ∧
    ∀ u', Step path u u' → ∃ reader, Reader.open u'.disk path = .ok reader ∧ ∀ n,
      reader.nth n = u'.held[n]?.map fun p => .ok { seq := n % 2 ^ 64, payload := p } := by
  obtain ⟨above, name, name', hfaithful⟩ := h.faithful hsound hblank hcreate
  refine ⟨?_, ?_, ?_, ?_⟩
  · obtain ⟨w, d', hopen, -⟩ := hfaithful.open
    exact ⟨w, d', hopen⟩
  · rintro ps hfits
    obtain ⟨d', -, hreplace, -⟩ := hfaithful.placed.replace hfaithful.sound hfits
    exact ⟨d', hreplace⟩
  · rintro w hw
    obtain ⟨-, hcounts⟩ := hfaithful.written hw
    exact ⟨hcounts.mod_eq, hcounts.eq_of_le,
      fun payload hfits => ⟨_, _, append_eq hfits u.disk⟩⟩
  · rintro u' hstep
    obtain ⟨-, hfits, hwritten⟩ := hfaithful.step hstep
    exact hwritten.reads hfits

/-- A command of one byte is the only one of a journal on a disk with nothing on it. -/
theorem reads_back_of_one_byte :
    ∃ w d w' d' reader, Writer.open logPath Disk.empty = (.ok w, d) ∧
      w.append [97] d = (.ok 0, w', d') ∧ Reader.open d' logPath = .ok reader ∧
      reader.nth 0 = some (.ok { seq := 0, payload := [97] }) ∧ reader.nth 1 = none := by
  have hsound : Disk.empty.Sound := Disk.sound_under _
  have hblank : Blank Disk.empty logPath :=
    .inl ⟨(leads_logPath Disk.empty).locate (Disk.isLeaf_of_none (by decide)), by decide⟩
  have hcreate : ∃ r, Disk.empty.create logPath.temporary = .ok r :=
    (leads_temporary_logPath Disk.empty).create (Disk.isLeaf_of_none (by decide))
  obtain ⟨⟨w, d, hopen⟩, -⟩ := Reached.reads_back hsound hblank hcreate .start
  have hopened := Reached.step .start (.open hopen)
  obtain ⟨-, -, happends, -⟩ := Reached.reads_back hsound hblank hcreate hopened
  obtain ⟨-, hseq, happend⟩ := happends w rfl
  obtain ⟨w', d', happend⟩ := happend [97] (by decide)
  rw [hseq (Nat.zero_le _)] at happend
  obtain ⟨-, -, -, hreads⟩ := Reached.reads_back hsound hblank hcreate hopened
  obtain ⟨reader, hreader, hnth⟩ := hreads _ (.append happend)
  exact ⟨w, d, w', d', reader, hopen, happend, hreader, hnth 0, hnth 1⟩

end Usage

end CommandLog.Journal
