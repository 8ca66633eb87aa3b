import CommandLog.Journal.File
import CommandLog.Proofs.Disk.Temporary
import CommandLog.Proofs.Journal.Codec
import Mathlib.Data.List.TakeWhile

/-!
# Journals on a disk

What reading, appending to and replacing a journal come to, on a disk on which the journal's path
leads to a file.

* `CommandLog.Journal.Holds` – **a path leads to a file with given contents**;
* `CommandLog.Journal.Holds.load` and `CommandLog.Journal.Holds.write` – such a file is read and
  written to;
* `CommandLog.Journal.Holds.open_of_parse` – **opening a file that is not empty**, for which
  `CommandLog.Journal.Holds.open_encode` is the case of a whole journal, and
  `CommandLog.Journal.open_of_empty` – opening one that is;
* `CommandLog.Journal.append_eq` – appending one more record;
* `CommandLog.Journal.replace_eq` – a replacement, step by step;
* `CommandLog.Journal.Holds.of_replace_ok` – after a replacement the path leads to the new journal,
  even if the journal is its own temporary sibling;
* `CommandLog.Journal.Holds.of_replace_error` – **a replacement that fails leaves the old journal**
  as it was, whatever it failed of.
-/

namespace CommandLog.Journal

open Disk (Leads Opened)

variable {d d' : Disk} {path : Path} {above : Place} {name : String} {id : FileId}
  {bytes data : Bytes} {ps : List Bytes}

/-- **A path leads to a file with given contents**, at a given place. -/
structure Holds (d : Disk) (path : Path) (above : Place) (name : String) (id : FileId)
    (bytes : Bytes) : Prop where
  /-- Files have one name each, and there are no links. -/
  sound : d.Sound
  /-- The path names the place. -/
  leads : d.Leads path above name
  /-- The file is there. -/
  node : d.node? (above ++ [name]) = some (.file id)
  /-- These are its contents. -/
  content : d.content id = bytes

theorem holds_of_locateFile (hsound : d.Sound) (hlocate : d.locateFile path = .ok id) :
    ∃ above name, Holds d path above name id (d.content id) := by
  obtain ⟨above, name, hleads, hnode⟩ := hsound.leads_of_locateFile hlocate
  exact ⟨above, name, hsound, hleads, hnode, rfl⟩

theorem Holds.locateFile (h : Holds d path above name id bytes) : d.locateFile path = .ok id :=
  h.leads.locateFile h.node

theorem Holds.read (h : Holds d path above name id bytes) : d.read path = .ok bytes := by
  rw [h.leads.read h.node, h.content]

theorem Holds.load (h : Holds d path above name id bytes) : Journal.load d path = parse bytes := by
  rw [Journal.load, h.read]

theorem Holds.hasContent (h : Holds d path above name id bytes) :
    d.hasContent path = !bytes.isEmpty :=
  Disk.hasContent_of_read h.read

/-- **More bytes at the end of the file.** -/
theorem Holds.write (h : Holds d path above name id bytes) (data : Bytes) :
    Holds (d.write id data) path above name id (bytes ++ data) where
  sound := h.sound.write id data
  leads := h.leads.keeps (Disk.keeps_write d id data)
  node := h.node
  content := by rw [Disk.content_write_self (h.sound.lt_size h.node), h.content]

/-- **The file's name can be removed**, and nothing is there afterwards. -/
theorem Holds.remove (h : Holds d path above name id bytes) :
    ∃ d', d.remove path = .ok d' ∧ d'.locate path = .ok none := by
  have hne := Disk.append_singleton_ne_nil above name
  have hleads := h.leads.keeps (Disk.keeps_unbind hne (Disk.isLeaf_of_file h.node))
  have hnone : (d.unbind (above ++ [name])).node? (above ++ [name]) = none := by
    rw [Disk.node?_unbind hne, if_pos rfl]
  refine ⟨d.unbind (above ++ [name]), ?_, ?_⟩
  · simp [Disk.remove, h.leads.goal, h.leads.child, h.node]
  · rw [hleads.locate (Disk.isLeaf_of_none hnone), hnone]

/-- **Another file that has been opened** does not change this one. -/
theorem Holds.opened (h : Holds d path above name id bytes) {place : Place} {id' : FileId}
    (hopened : Opened d place id' d') (hne : above ++ [name] ≠ place) :
    Holds d' path above name id bytes := by
  have hnode : d'.node? (above ++ [name]) = some (.file id) := by
    rw [hopened.of_ne hne, h.node]
  have hsound := hopened.sound h.sound
  refine ⟨hsound, h.leads.keeps hopened.keeps, hnode, ?_⟩
  have hother : id ≠ id' := hsound.ne_of_ne hnode hopened.self hne
  rw [hopened.others id (h.sound.lt_size h.node) hother, h.content]

/-! ### A disk with one file -/

/-- A name in the working directory. -/
def logPath : Path where
  parts := ["log"]

theorem isName_log : Disk.IsName "log" :=
  ⟨by simp, by decide, by decide, by decide, by decide⟩

theorem leads_logPath (d : Disk) : d.Leads logPath d.home "log" :=
  isName_log.leads

theorem temporary_logPath : logPath.temporary = { parts := ["log.tmp"] } := by decide +kernel

theorem isName_log_tmp : Disk.IsName "log.tmp" :=
  ⟨by simp, by decide, by decide, by decide, by decide⟩

theorem leads_temporary_logPath (d : Disk) : d.Leads logPath.temporary d.home "log.tmp" := by
  rw [temporary_logPath]
  exact isName_log_tmp.leads

/-- A disk with nothing on it but one file, in the working directory. -/
def oneFile (bytes : Bytes) : Disk :=
  (Disk.empty.addFile ["home", "log"]).2.setContent 0 bytes

theorem holds_oneFile (bytes : Bytes) : Holds (oneFile bytes) logPath ["home"] "log" 0 bytes where
  sound := ((Disk.sound_under ["home"]).addFile _).setContent _ _
  leads := leads_logPath _
  node := rfl
  content := Disk.content_setContent_self (by decide)

/-- A journal without records, and behind it three bytes that are the beginning of a record at
most. -/
def threeBytes : Bytes :=
  encode [] ++ [1, 2, 3]

/-! ### Opening a journal -/

/-- **A file that is there** is opened, whatever number its next record gets. -/
theorem Holds.attach (h : Holds d path above name id bytes) (nextSeq : Nat) :
    Writer.attach path false nextSeq d = (.ok { path, file := id, nextSeq }, d) := by
  simp [Writer.attach, openSteps, Disk.runSteps, Disk.Step.run, h.leads.openAppend h.node,
    Except.map]

/-- **What opening a file that is not empty comes to**, which depends on what it reads as. -/
theorem Holds.open_of_parse (h : Holds d path above name id bytes) (hne : bytes ≠ []) :
    Writer.open path d =
      match parse bytes with
      | .error e => (.error e, d)
      | .ok c =>
        match c.failure with
        | some e => (.error e, d)
        | none => (.ok { path, file := id, nextSeq := c.nextSeq }, d) := by
  have hcontent : d.hasContent path = true := by
    rw [h.hasContent, List.isEmpty_eq_false_iff.mpr hne]
    rfl
  rw [Writer.open, if_pos hcontent, h.load]
  rcases parse bytes with e | ⟨records, _ | e⟩
  · rfl
  · exact h.attach _
  · rfl

/-- **A file without contents** is opened and gets a header. -/
theorem open_of_empty (hcontent : d.hasContent path = false)
    (hopen : d.openAppend path = .ok (id, d')) :
    Writer.open path d = (.ok { path, file := id, nextSeq := 0 }, d'.write id (encode [])) := by
  rw [Writer.open, hcontent, encode_nil]
  simp [Writer.attach, openSteps, Disk.runSteps, Disk.Step.run, hopen, Except.map]

/-- **A journal that is whole can be opened**, and its numbering goes on after its last record. -/
theorem Holds.open_encode (h : Holds d path above name id (encode ps))
    (hfits : ∀ p ∈ ps, fits p = true) :
    Writer.open path d =
      (.ok { path, file := id, nextSeq := (Contents.of ps none).nextSeq }, d) := by
  rw [h.open_of_parse (encode_ne_nil ps), parse_encode hfits]
  rfl

/-- The number after the last one of a journal, as far as it is stored. -/
theorem nextSeq_mod (ps : List Bytes) (failure : Option Error) :
    (Contents.of ps failure).nextSeq % 2 ^ 64 = ps.length % 2 ^ 64 := by
  rcases List.eq_nil_or_concat ps with rfl | ⟨init, p, rfl⟩
  · rfl
  · rw [List.concat_eq_append, Contents.nextSeq_of_append, List.length_append, Nat.mod_add_mod]
    rfl

/-- The number after the last one of a journal. -/
theorem nextSeq_of (hlength : ps.length ≤ 2 ^ 64) (failure : Option Error) :
    (Contents.of ps failure).nextSeq = ps.length := by
  rcases List.eq_nil_or_concat ps with rfl | ⟨init, p, rfl⟩
  · rfl
  · rw [List.concat_eq_append, List.length_append, List.length_singleton] at hlength
    have hlt : init.length < 2 ^ 64 := hlength
    rw [List.concat_eq_append, Contents.nextSeq_of_append, List.length_append,
      Nat.mod_eq_of_lt hlt]
    rfl

theorem Holds.open_eq (h : Holds d path above name id (encode ps))
    (hfits : ∀ p ∈ ps, fits p = true) (hlength : ps.length ≤ 2 ^ 64) :
    Writer.open path d = (.ok { path, file := id, nextSeq := ps.length }, d) := by
  rw [h.open_encode hfits, nextSeq_of hlength]

/-! ### Appending to a journal -/

/-- **A payload that fits** is written at the end of the file that the writer has open. -/
theorem append_eq {w : Writer} {payload : Bytes} (hfits : fits payload = true) (d : Disk) :
    w.append payload d =
      (.ok w.nextSeq, { w with nextSeq := w.nextSeq + 1 },
        d.write w.file (Record.encode { seq := w.nextSeq, payload })) := by
  simp only [Writer.append, hfits, if_true, appendSteps, Disk.runSteps, Disk.Step.run]

/-- What could be appended fits. -/
theorem fits_of_append {w w' : Writer} {payload : Bytes} {n : Nat}
    (happend : w.append payload d = (.ok n, w', d')) : fits payload = true := by
  unfold Writer.append at happend
  split at happend
  · next hfits => exact hfits
  · exact absurd happend (by simp)

/-! ### Replacing a journal -/

/-- **A replacement, step by step.** -/
theorem replace_eq (hfits : ∀ p ∈ ps, fits p = true) :
    replace path ps d =
      match d.create path.temporary with
      | .error f => (.error (.io f), d)
      | .ok (id, d₁) =>
        match (d₁.write id (encode ps)).rename path.temporary path with
        | .error f => (.error (.io f), d₁.write id (encode ps))
        | .ok d₂ => (.ok (), d₂) := by
  have hspan : ps.span fits = (ps, []) := by
    rw [List.span_eq_takeWhile_dropWhile, List.takeWhile_eq_self_iff.mpr hfits,
      List.dropWhile_eq_nil_iff.mpr hfits]
  simp only [replace, hspan, replaceSteps, draftSteps, List.cons_append, List.nil_append,
    Disk.runSteps, Disk.Step.run]
  cases d.create path.temporary with
  | error f => rfl
  | ok r =>
    simp only [Except.map]
    cases (r.2.write r.1 (encode ps)).rename path.temporary path with
    | error f => rfl
    | ok d₂ => rfl

/-- What a replacement has written when its file is complete. -/
theorem drafted (hsound : d.Sound) {d₁ : Disk} (hcreate : d.create path.temporary = .ok (id, d₁))
    (data : Bytes) :
    ∃ above name, d.Leads path.temporary above name ∧
      Opened d (above ++ [name]) id (d₁.write id data) ∧
      Holds (d₁.write id data) path.temporary above name id data := by
  obtain ⟨above, name, hleads, hopened, hempty⟩ := hsound.create_eq_ok hcreate
  refine ⟨above, name, hleads, hopened.write data, ?_⟩
  have hholds : Holds d₁ path.temporary above name id [] :=
    ⟨hopened.sound hsound, hleads.keeps hopened.keeps, hopened.self, hempty⟩
  exact hholds.write data

/-- **A file that has been renamed** is held by the new path, with the contents it had. -/
theorem Holds.renamed {path' : Path} (h : Holds d path above name id bytes)
    (hrename : d.rename path path' = .ok d') :
    ∃ above' name', d.Leads path' above' name' ∧ Holds d' path' above' name' id bytes := by
  obtain ⟨above', name', hleads', hleaf', -, -, hd'⟩ := h.leads.of_rename h.sound h.node hrename
  refine ⟨above', name', hleads', ?_⟩
  split at hd'
  · next hplace =>
    subst hd'
    exact ⟨h.sound, hleads', hplace ▸ h.node, h.content⟩
  · subst hd'
    have hne := Disk.append_singleton_ne_nil above name
    have hne' := Disk.append_singleton_ne_nil above' name'
    have hkeeps := Disk.keeps_putAt hne hne' h.node hleaf'
    refine ⟨h.sound.rebind h.node _, hleads'.keeps hkeeps, ?_, h.content⟩
    rw [Disk.node?_putAt hne hne', if_pos rfl]

/-- **After a replacement the path leads to the new journal.** -/
theorem Holds.of_replace_ok (hsound : d.Sound) (hfits : ∀ p ∈ ps, fits p = true)
    (hreplace : replace path ps d = (.ok (), d')) :
    ∃ above name id, Holds d' path above name id (encode ps) := by
  rw [replace_eq hfits] at hreplace
  split at hreplace
  · cases hreplace
  · next id d₁ hcreate =>
    split at hreplace
    · cases hreplace
    · next d₂ hrename =>
      cases hreplace
      obtain ⟨above, name, -, -, hholds⟩ := drafted hsound hcreate (encode ps)
      obtain ⟨above', name', -, hholds'⟩ := hholds.renamed hrename
      exact ⟨above', name', id, hholds'⟩

/-- **A replacement that fails leaves the old journal as it was.** -/
theorem Holds.of_replace_error (h : Holds d path above name id bytes)
    (hfits : ∀ p ∈ ps, fits p = true) {e : Error} (hreplace : replace path ps d = (.error e, d')) :
    Holds d' path above name id bytes := by
  rw [replace_eq hfits] at hreplace
  split at hreplace
  · cases hreplace
    exact h
  · next id₁ d₁ hcreate =>
    split at hreplace
    · next f hrename =>
      cases hreplace
      obtain ⟨above₁, name₁, hleads₁, hopened, hholds₁⟩ := drafted h.sound hcreate (encode ps)
      refine h.opened hopened ?_
      intro hplace
      -- a journal that is its own sibling is written to where it is, and nothing fails
      have hleads := h.leads.keeps hopened.keeps
      have hnode := hholds₁.node
      rw [← hplace] at hnode
      have hbelow : ¬(above₁ ++ [name₁]) <+: above := by
        rw [← hplace]
        exact Disk.not_above_of_append above name
      have habove : ¬(above ++ [name]) <+: above₁ := by
        rw [hplace]
        exact Disk.not_above_of_append above₁ name₁
      have hok := hholds₁.leads.rename hholds₁.sound hholds₁.node hleads
        (Disk.isLeaf_of_file hnode) hbelow habove
      rw [hok] at hrename
      cases hrename
    · cases hreplace

end CommandLog.Journal
