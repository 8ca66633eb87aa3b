import CommandLog.Engine
import CommandLog.Proofs.Journal.Confined

/-!
# What an engine touches

An engine does nothing to a disk but what it does to its journal. So every operation of an engine
keeps to what the operations on the journal keep to, whether it succeeds or fails.

* `CommandLog.Engine.recordExtent` and `CommandLog.Engine.compactExtent` – what an engine may touch:
  the file that it has open, and what a replacement of its journal may touch;
* `CommandLog.Engine.open_confined`, `CommandLog.Engine.append_confined` and
  `CommandLog.Engine.close_confined` – the operations of an engine;
* `CommandLog.Engine.operations_confined` – **all operations together**, those on the journal
  included;
* `CommandLog.Engine.others_touched` – **other entries than that of the journal are touched**: the
  sibling goes, links are followed, and a file is seen under all its names.

Only replacements touch the sibling. They happen when an engine is opened and when a journal has
grown too long; nothing else that an engine does touches anything but the journal.
-/

namespace CommandLog.Engine

open Disk (Confined Extent Leaves)
open Journal (Writer appendSteps openSteps rewriteExtent rewriteSteps)

variable {d d' : Disk} {path : Path} {e : Engine} {payload : Bytes} {h : Host}

/-! ### Opening -/

/-- **Nothing is left at the sibling**, unless it and the path name one place, or the two are names
of one file or link. -/
def Vacated (d : Disk) (path : Path) (d' : Disk) : Prop :=
  ∀ p q, d.placeOf? path = some p → d.placeOf? path.temporary = some q →
    d'.node? q = none ∨ d'.node? q = d'.node? p

/-- **A journal that is replaced and opened** keeps to what a replacement may touch. -/
theorem reopen_confined {ps : List Bytes} (hok : (Journal.replace path ps d).1 = .ok ()) :
    Confined (rewriteExtent d path) d (Writer.open path (Journal.replace path ps d).2).2 ∧
      Vacated d path (Writer.open path (Journal.replace path ps d).2).2 := by
  obtain ⟨hconfined, hnode⟩ := Journal.reopen_confined hok
  refine ⟨hconfined, fun p q hp hq => ?_⟩
  rw [hnode, hnode]
  exact Journal.vacated_of_replace_ok hok hp hq

theorem renew_confined (path : Path) (ring : CommandRing) (d : Disk) :
    Confined (rewriteExtent d path) d (renew path ring d).2 ∧
      ((renew path ring d).1.isOk = true → Vacated d path (renew path ring d).2) := by
  have hreplaced := Journal.replace_confined path (retained ring) d
  unfold renew
  rcases hreplace : Journal.replace path (retained ring) d with ⟨f | _, d'⟩
  · rw [hreplace] at hreplaced
    exact ⟨hreplaced, nofun⟩
  · obtain ⟨hconfined, hvacated⟩ := reopen_confined (congrArg Prod.fst hreplace)
    rw [hreplace] at hconfined hvacated
    exact ⟨hconfined, fun _ => hvacated⟩

/-- **Opening an engine** keeps to what a replacement of its journal may touch. -/
theorem open_confined (path : Path) (h : Host) :
    Confined (rewriteExtent h.disk path) h.disk (Engine.open (some path) h).2.disk ∧
      ((Engine.open (some path) h).1.isOk = true →
        Vacated h.disk path (Engine.open (some path) h).2.disk) := by
  cases hrecover : recover path h.disk with
  | error f =>
    simp only [Engine.open, hrecover]
    exact ⟨.refl _ _, nofun⟩
  | ok ring =>
    have hrenewed := renew_confined path ring h.disk
    rcases hrenew : renew path ring h.disk with ⟨f | w, d'⟩
    all_goals
      rw [hrenew] at hrenewed
      simp only [Engine.open, hrecover, hrenew]
    · exact ⟨hrenewed.1, nofun⟩
    · exact ⟨hrenewed.1, fun _ => hrenewed.2 rfl⟩

/-! ### Appending -/

/-- **What the journal's part of an append may touch**: the file that is open. -/
def recordExtent (e : Engine) : Extent where
  entry _ := False
  file id := ∃ w, e.journal = some w ∧ id = w.file

/-- **What a replacement may touch** when the journal has grown too long. -/
def compactExtent (e : Engine) (d : Disk) : Extent where
  entry q := ∃ path, e.path = some path ∧ (rewriteExtent d path).entry q
  file id := ∃ path, e.path = some path ∧ (rewriteExtent d path).file id

/-- **Replacing a journal that has grown too long** keeps to what a replacement may touch. -/
theorem compact_confined (e : Engine) (d : Disk) :
    Confined (e.compactExtent d) d (e.compact d).2 ∧
      ∀ path, e.path = some path → (Journal.replace path (retained e.ring) d).1 = .ok () →
        Vacated d path (e.compact d).2 := by
  cases hpath : e.path with
  | none =>
    simp only [compact, hpath]
    exact ⟨.refl _ d, nofun⟩
  | some path =>
    have hmono : ∀ {d'}, Confined (rewriteExtent d path) d d' → Confined (e.compactExtent d) d d' :=
      fun hconfined =>
        hconfined.mono (fun _ hq => ⟨path, hpath, hq⟩) fun _ hid => ⟨path, hpath, hid⟩
    have hreplaced := Journal.replace_confined path (retained e.ring) d
    rcases hreplace : Journal.replace path (retained e.ring) d with ⟨f | _, d'⟩
    · rw [hreplace] at hreplaced
      simp only [compact, hpath, hreplace]
      refine ⟨hmono hreplaced, ?_⟩
      rintro path' hpath' hok
      cases hpath'
      rw [hreplace] at hok
      cases hok
    · obtain ⟨hconfined, hvacated⟩ := reopen_confined (congrArg Prod.fst hreplace)
      have hdisk : (e.compact d).2 = (Writer.open path d').2 := by
        simp only [compact, hpath, hreplace]
        rcases Writer.open path d' with ⟨_ | _, _⟩ <;> rfl
      rw [hreplace] at hconfined hvacated
      rw [hdisk]
      refine ⟨hmono hconfined, ?_⟩
      rintro path' hpath' -
      cases hpath'
      exact hvacated

/-- The journal's part of an append touches the file that is open. -/
theorem record_confined (e : Engine) (payload : Bytes) (d : Disk) :
    Confined e.recordExtent d (e.record payload d).2.2 ∧
      (e.record payload d).2.1.path = e.path ∧
      (e.record payload d).2.1.journal =
        if (e.record payload d).1.isOk then
          e.journal.map fun w => { w with nextSeq := w.nextSeq + 1 }
        else e.journal := by
  cases hjournal : e.journal with
  | none =>
    simp only [record, hjournal]
    exact ⟨.refl _ d, trivial, by simp⟩
  | some w =>
    have hconfined : Confined e.recordExtent d (w.append payload d).2.2 :=
      (Journal.append_confined w payload d).mono (fun _ hq => hq) fun _ hid => ⟨w, hjournal, hid⟩
    cases hfits : Journal.fits payload with
    | true =>
      rw [Journal.append_eq hfits] at hconfined
      simp only [record, hjournal, Journal.append_eq hfits]
      exact ⟨hconfined, trivial, rfl⟩
    | false =>
      simp only [record, hjournal, Writer.append, hfits, Bool.false_eq_true, if_false]
      exact ⟨.refl _ d, trivial, rfl⟩

/-- What a replacement may touch is the same before a record has been written and after it. -/
theorem compactExtent_congr (hhome : d'.home = d.home) (hnode : ∀ q, d'.node? q = d.node? q) :
    e.compactExtent d' = e.compactExtent d := by
  simp only [compactExtent, rewriteExtent, Disk.placeOf?_congr hhome hnode,
    Disk.targetOf?_congr hhome hnode, Disk.fileAt?_congr hhome hnode, hnode]

/-- **An append** touches the file that is open, and only if it replaces the journal what a
replacement may touch. -/
theorem append_confined (e : Engine) (payload : Bytes) (h : Host) :
    Confined (e.recordExtent ∪ e.compactExtent h.disk) h.disk (e.append payload h).2.2.disk ∧
      ((∀ w, e.journal = some w → w.nextSeq + 1 < compactRecords) →
        Confined e.recordExtent h.disk (e.append payload h).2.2.disk) := by
  obtain ⟨hrecorded, hpath, hjournal⟩ := record_confined e payload h.disk
  rcases hrecord : e.record payload h.disk with ⟨f | _, e₁, d₁⟩
  all_goals
    rw [hrecord] at hrecorded hpath hjournal
    simp only [append, hrecord]
    have hunion : Confined (e.recordExtent ∪ e.compactExtent h.disk) h.disk d₁ :=
      hrecorded.mono (fun _ => .inl) fun _ => .inl
  · exact ⟨hunion, fun _ => hrecorded⟩
  · split
    · next hoversized =>
      constructor
      · obtain ⟨hcompact, -⟩ := compact_confined (e₁.store payload h.metrics).2.1 d₁
        have hextent : (e₁.store payload h.metrics).2.1.compactExtent d₁ =
            e.compactExtent h.disk := by
          rw [← compactExtent_congr hrecorded.home fun q => hrecorded.node q fun hq => hq]
          simp only [compactExtent, store, show e₁.path = e.path from hpath]
        rw [hextent] at hcompact
        exact hunion.trans hcompact (fun _ => .inr) fun _ hid => .inl (.inr hid)
      · -- a journal that is still short is not replaced
        intro hshort
        simp only [isOversized, store] at hoversized
        rw [show e₁.journal = e.journal.map fun w => { w with nextSeq := w.nextSeq + 1 } from
          hjournal] at hoversized
        rcases hopen : e.journal with _ | w
        · rw [hopen] at hoversized
          cases hoversized
        · rw [hopen] at hoversized
          exact absurd (of_decide_eq_true hoversized) (Nat.not_le.mpr (hshort w hopen))
    · exact ⟨hunion, fun _ => hrecorded⟩

/-! ### Closing -/

/-- **What may be touched when a journal is let go of**: its entry, if it is to be removed. -/
def closeExtent (e : Engine) (purge : Bool) (d : Disk) : Extent where
  entry q := ∃ path, purge = true ∧ e.path = some path ∧ d.placeOf? path = some q
  file _ := False

/-- **Letting go of a journal** touches at most the entry of the journal itself. -/
theorem close_confined (e : Engine) (purge : Bool) (h : Host) :
    Confined (e.closeExtent purge h.disk) h.disk (e.close purge h).2.2.disk := by
  unfold close
  split
  · next path hpath =>
    split
    · next d' hremove =>
      exact (Disk.confined_remove hremove).mono (fun _ hq => ⟨path, rfl, hpath, hq⟩) fun _ => id
    · exact .refl _ _
    · exact .refl _ _
  · exact .refl _ _

/-! ### All operations -/

/-- **All operations keep to the journal and to its temporary sibling**, whether they succeed or
fail, and on whatever disk: every other entry is bound to what it was bound to, and every other file
has the contents that it had.

* A replacement may touch the entries of the path and of its sibling, and the file that the sibling
  leads to; nothing is left at the sibling when it succeeds.
* Opening a journal for appending may touch the file that the path leads to, and an append the file
  that is open.
* Opening an engine, and an append that replaces a journal, may touch what a replacement may touch,
  and nothing besides but the file that is open. An append that replaces nothing touches that file
  only.
* Letting go of a journal touches its entry, and that only if it is to be removed.

The steps of an operation on a journal keep to this wherever they are stopped. -/
theorem operations_confined (d : Disk) :
    (∀ path ps,
      (∀ k, Leaves { disk := d, file := none } (rewriteSteps path ps) k →
        Confined (rewriteExtent d path) d k.disk) ∧
      Confined (rewriteExtent d path) d (Journal.replace path ps d).2 ∧
      ((Journal.replace path ps d).1 = .ok () → Vacated d path (Journal.replace path ps d).2)) ∧
    (∀ path,
      (∀ isNew k, Leaves { disk := d, file := none } (openSteps path isNew) k →
        Confined (d.openExtent path) d k.disk) ∧
      Confined (d.openExtent path) d (Writer.open path d).2) ∧
    (∀ (w : Writer) payload,
      (∀ r k, Leaves { disk := d, file := some w.file } (appendSteps r) k →
        Confined (Disk.writeExtent w.file) d k.disk) ∧
      Confined (Disk.writeExtent w.file) d (w.append payload d).2.2) ∧
    (∀ path metrics,
      Confined (rewriteExtent d path) d (Engine.open (some path) { disk := d, metrics }).2.disk ∧
      ((Engine.open (some path) { disk := d, metrics }).1.isOk = true →
        Vacated d path (Engine.open (some path) { disk := d, metrics }).2.disk)) ∧
    (∀ (e : Engine) payload metrics,
      Confined (e.recordExtent ∪ e.compactExtent d) d
        (e.append payload { disk := d, metrics }).2.2.disk ∧
      ((∀ w, e.journal = some w → w.nextSeq + 1 < compactRecords) →
        Confined e.recordExtent d (e.append payload { disk := d, metrics }).2.2.disk)) ∧
    (∀ e : Engine,
      Confined (e.compactExtent d) d (e.compact d).2 ∧
      ∀ path, e.path = some path → (Journal.replace path (retained e.ring) d).1 = .ok () →
        Vacated d path (e.compact d).2) ∧
    (∀ (e : Engine) purge metrics,
      Confined (e.closeExtent purge d) d (e.close purge { disk := d, metrics }).2.2.disk) :=
  ⟨fun path ps => ⟨fun _ => Journal.confined_of_leaves_rewrite, Journal.replace_confined path ps d,
      fun hok _ _ => Journal.vacated_of_replace_ok hok⟩,
    fun path => ⟨fun _ _ => Journal.confined_of_leaves_open, Journal.open_confined path d⟩,
    fun w payload => ⟨fun _ _ => Journal.confined_of_leaves_append,
      Journal.append_confined w payload d⟩,
    fun path metrics => open_confined path { disk := d, metrics },
    fun e payload metrics => append_confined e payload { disk := d, metrics },
    fun e => compact_confined e d,
    fun e purge metrics => close_confined e purge { disk := d, metrics }⟩

/-- A disk with a file that is no journal, and another one beside it. -/
def twoFiles : Disk :=
  ((Journal.oneFile [111]).addFile ["home", "other"]).2.setContent 1 [98]

/-- The file beside a journal that is replaced. -/
theorem operations_confined_of_twoFiles :
    (Journal.replace Journal.logPath [[97]] twoFiles).1 = .ok () ∧
      (Journal.replace Journal.logPath [[97]] twoFiles).2.item? ["home", "other"] =
        some (.file [98]) ∧
      (Journal.replace Journal.logPath [[97]] twoFiles).2.node? ["home", "log.tmp"] = none := by
  have hfile : twoFiles.node? ["home", "log"] = some (.file 0) := rfl
  have htwin : Journal.Twin twoFiles Journal.logPath ["home"] "log" ["home"] "log.tmp" :=
    Journal.twin_logPath (Disk.isLeaf_of_file hfile) (Disk.isLeaf_of_none rfl)
  have hsound : twoFiles.Sound := ((Journal.holds_oneFile [111]).sound.addFile _).setContent _ _
  have hplace := Disk.placeOf?_of_goal htwin.leads.goal
  have hsibling := Disk.placeOf?_of_goal htwin.sibling.goal
  have htarget := Disk.targetOf?_of_reach (htwin.sibling.reach htwin.vacant)
  obtain ⟨d', hreplace, hstands, -⟩ :=
    htwin.replace hsound (by decide : ∀ p ∈ [[97]], Journal.fits p = true) none
  obtain ⟨-, hconfined, hvacated⟩ := (operations_confined twoFiles).1 Journal.logPath [[97]]
  rw [hreplace] at hconfined hvacated ⊢
  refine ⟨rfl, ?_, ?_⟩
  · refine (hconfined.item? ?_ fun id hid => ?_).trans rfl
    · simp only [rewriteExtent, hplace, hsibling, htarget]
      decide
    · obtain rfl : id = 1 := (Disk.Node.file.inj (Option.some.inj hid)).symm
      refine ⟨by decide, fun hfile => ?_⟩
      obtain ⟨q, hq, hnode⟩ := Disk.exists_target_of_fileAt? hfile
      rw [htarget] at hq
      cases hq
      cases hnode
  · exact (hvacated rfl _ _ hplace hsibling).resolve_right hstands.node?_ne

/-! ### What is not kept -/

/-- A disk with nothing on it but one file, which has the name of the temporary sibling of a
journal. -/
def oneSibling (bytes : Bytes) : Disk :=
  (Disk.empty.addFile ["home", "log.tmp"]).2.setContent 0 bytes

/-- **A file that has the name of the sibling** is gone when the journal has been replaced. -/
theorem replace_oneSibling (bytes : Bytes) :
    ∃ d', Journal.replace Journal.logPath [[97]] (oneSibling bytes) = (.ok (), d') ∧
      d'.item? ["home", "log.tmp"] = none := by
  have hfile : (oneSibling bytes).node? ["home", "log.tmp"] = some (.file 0) := rfl
  have htwin : Journal.Twin (oneSibling bytes) Journal.logPath ["home"] "log" ["home"] "log.tmp" :=
    Journal.twin_logPath (Disk.isLeaf_of_none rfl) (Disk.isLeaf_of_file hfile)
  have hsound : (oneSibling bytes).Sound :=
    ((Disk.sound_under ["home"]).addFile _).setContent _ _
  obtain ⟨d', hreplace, hstands, -⟩ :=
    htwin.replace hsound (by decide : ∀ p ∈ [[97]], Journal.fits p = true) none
  have hvacated := Journal.vacated_of_replace_ok (by rw [hreplace])
    (Disk.placeOf?_of_goal htwin.leads.goal) (Disk.placeOf?_of_goal htwin.sibling.goal)
  rw [hreplace] at hvacated
  have hnone : d'.node? ["home", "log.tmp"] = none := hvacated.resolve_right hstands.node?_ne
  exact ⟨d', hreplace, by rw [Disk.item?, hnone]⟩

theorem isName_other : Disk.IsName "other" :=
  ⟨by simp, by decide, by decide, by decide, by decide⟩

/-- A disk with one file, and a link to it that has the name of the temporary sibling of a
journal. -/
def linkedSibling (bytes : Bytes) : Disk :=
  ((Disk.empty.addFile ["home", "other"]).2.setContent 0 bytes).bind ["home", "log.tmp"]
    (.link 0 { parts := ["other"] })

/-- **A file that the sibling is a link to** has the new journal in it when the journal has been
replaced, and the link has become the journal. -/
theorem replace_linkedSibling (bytes : Bytes) :
    ∃ d', Journal.replace Journal.logPath [[97]] (linkedSibling bytes) = (.ok (), d') ∧
      d'.item? ["home", "other"] = some (.file (Journal.encode [[97]])) := by
  have hfile : (linkedSibling bytes).node? ["home", "other"] = some (.file 0) := rfl
  have hreach : (linkedSibling bytes).reach true Journal.logPath.temporary =
      .ok (.entry ["home"] "other" false) := by
    rw [Journal.temporary_logPath]
    exact Journal.isName_log_tmp.reach isName_other rfl (Disk.isLeaf_of_file hfile)
  have hchild : (linkedSibling bytes).child ["home"] "other" = .ok (some (.file 0)) :=
    isName_other.leads.child
  have hcreate : (linkedSibling bytes).create Journal.logPath.temporary =
      .ok (0, (linkedSibling bytes).setContent 0 []) := by
    simp [Disk.create, Disk.obtain, hreach, hchild, Except.map]
  obtain ⟨d₁, hd₁⟩ :
      ∃ d₁, d₁ = ((linkedSibling bytes).setContent 0 []).write 0 (Journal.encode [[97]]) := ⟨_, rfl⟩
  have hsource : d₁.Leads Journal.logPath.temporary ["home"] "log.tmp" :=
    hd₁ ▸ Journal.leads_temporary_logPath _
  have htarget : d₁.Leads Journal.logPath ["home"] "log" := hd₁ ▸ Journal.leads_logPath _
  have hlink : d₁.node? ["home", "log.tmp"] = some (.link 0 { parts := ["other"] }) := hd₁ ▸ rfl
  have hnone : d₁.node? ["home", "log"] = none := hd₁ ▸ rfl
  have hfile₁ : d₁.node? ["home", "other"] = some (.file 0) := hd₁ ▸ rfl
  have hcontent : d₁.content 0 = Journal.encode [[97]] := hd₁ ▸ rfl
  -- the rename is about the link itself
  have hrename := hsource.rename_of_none hlink (by simp) htarget hnone (by decide) (by decide)
  refine ⟨(d₁.unbind ["home", "log.tmp"]).bind ["home", "log"] (.link 0 { parts := ["other"] }),
    ?_, ?_⟩
  · rw [Journal.replace_eq (by decide), hcreate]
    simp only [← hd₁, hrename]
    rfl
  · rw [Disk.item?_congr (d := d₁), Disk.item?_of_file hfile₁, hcontent]
    · rw [Disk.node?_bind (by simp), Disk.node?_unbind (by simp)]
      rfl
    · exact fun _ _ => rfl

/-- A disk with nothing on it but a link, which has the name of a journal, to a name that nothing
has. -/
def linkedJournal : Disk :=
  Disk.empty.bind ["home", "log"] (.link 0 { parts := ["other"] })

/-- **A journal that is a link to nothing** is made where the link leads to. -/
theorem open_linkedJournal :
    ∃ w d', Writer.open Journal.logPath linkedJournal = (.ok w, d') ∧
      d'.item? ["home", "other"] = some (.file (Journal.encode [])) := by
  have hnone : linkedJournal.node? ["home", "other"] = none := rfl
  have hreach : ∀ creates, linkedJournal.reach creates Journal.logPath =
      .ok (.entry ["home"] "other" false) := fun creates =>
    Journal.isName_log.reach isName_other rfl (Disk.isLeaf_of_none hnone)
  have hchild : linkedJournal.child ["home"] "other" = .ok none := isName_other.leads.child
  have hcontent : linkedJournal.hasContent Journal.logPath = false := by
    simp [Disk.hasContent, Disk.locate, hreach, hchild]
  have hopen : linkedJournal.openAppend Journal.logPath =
      .ok (linkedJournal.addFile ["home", "other"]) := by
    simp [Disk.openAppend, Disk.obtain, hreach, hchild]
  exact ⟨_, _, Journal.open_of_empty hcontent hopen, rfl⟩

/-- A disk with nothing on it but one file without bytes, which has two names. -/
def twoNames : Disk :=
  (Journal.oneFile []).bind ["home", "other"] (.file 0)

/-- **A journal that has another name**, under which all that is written to it is seen. -/
theorem append_twoNames :
    ∃ w d', Writer.open Journal.logPath twoNames = (.ok w, d') ∧
      d'.item? ["home", "other"] = some (.file (Journal.encode [])) ∧
      (w.append [97] d').2.2.item? ["home", "other"] = some (.file (Journal.encode [[97]])) := by
  have hfile : twoNames.node? ["home", "log"] = some (.file 0) := rfl
  have hleads := Journal.leads_logPath twoNames
  have hcontent : twoNames.hasContent Journal.logPath = false :=
    Disk.hasContent_of_read (hleads.read hfile)
  have hother : ∀ data, ((twoNames.write 0 (Journal.encode [])).write 0 data).node?
      ["home", "other"] = some (.file 0) := fun _ => rfl
  refine ⟨_, _, Journal.open_of_empty hcontent (hleads.openAppend hfile), rfl, ?_⟩
  rw [Journal.append_eq (by decide), Disk.item?_of_file (hother _),
    Disk.content_write_self (by decide)]
  exact congrArg (some ∘ Disk.Item.file) (Journal.encode_append_singleton [] [97]).symm

/-- **Other entries are touched**: what has the name of the sibling goes when a journal is replaced,
and a file that the sibling is a link to is overwritten; a journal that is a link is made where it
leads to; and what is written to a journal is seen under the other names of its file. -/
theorem others_touched :
    (oneSibling [98]).item? ["home", "log.tmp"] = some (.file [98]) ∧
    (∃ d', Journal.replace Journal.logPath [[97]] (oneSibling [98]) = (.ok (), d') ∧
      d'.item? ["home", "log.tmp"] = none) ∧
    (linkedSibling [98]).item? ["home", "other"] = some (.file [98]) ∧
    (∃ d', Journal.replace Journal.logPath [[97]] (linkedSibling [98]) = (.ok (), d') ∧
      d'.item? ["home", "other"] = some (.file (Journal.encode [[97]]))) ∧
    linkedJournal.item? ["home", "other"] = none ∧
    (∃ w d', Writer.open Journal.logPath linkedJournal = (.ok w, d') ∧
      d'.item? ["home", "other"] = some (.file (Journal.encode []))) ∧
    twoNames.item? ["home", "other"] = some (.file []) ∧
    ∃ w d', Writer.open Journal.logPath twoNames = (.ok w, d') ∧
      d'.item? ["home", "other"] = some (.file (Journal.encode [])) ∧
      (w.append [97] d').2.2.item? ["home", "other"] = some (.file (Journal.encode [[97]])) :=
  ⟨rfl, replace_oneSibling [98], rfl, replace_linkedSibling [98], rfl, open_linkedJournal, rfl,
    append_twoNames⟩

end CommandLog.Engine
