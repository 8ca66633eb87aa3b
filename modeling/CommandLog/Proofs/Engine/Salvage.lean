import CommandLog.Proofs.Engine.Agreement
import CommandLog.Proofs.Journal.Corruption

/-!
# What is left of a journal with a changed byte

A changed byte of a record, outside its length, ends what can be read of the journal at that record.
Whoever reads the journal is told so, after the records in front of it, and an engine that is opened
on the journal has the last of these and no others.

* `CommandLog.Engine.recover_eq_ring_of_open` – **an engine has what was recovered**;
* `CommandLog.Engine.retained_of_open` – and that are the last payloads of what the file reads as;
* `CommandLog.Engine.detects_changed_byte` – **a changed byte is detected at its own record**.

The records behind the changed one are lost, although they are still there and in order.
-/

namespace CommandLog.Engine

open Journal (Header Record Reader Corrupt recordBytes encodeRecords logPath oneFile)

variable {e : Engine} {h h' : Host} {path : Path} {bytes : Bytes} {c : Journal.Contents}
  {rs : List Record} {r : Record} {i j : Nat} {mask : UInt8}

/-- **An engine that has been opened on a journal** has what was recovered of it. -/
theorem recover_eq_ring_of_open (hopen : Engine.open (some path) h = (.ok e, h')) :
    recover path h.disk = .ok e.ring := by
  simp only [Engine.open] at hopen
  split at hopen
  · cases hopen
  · next ring hrecover =>
    split at hopen
    · cases hopen
    · cases hopen
      exact hrecover

/-- **It retains the last payloads** of what the file reads as. -/
theorem retained_of_open (hread : h.disk.read path = .ok bytes)
    (hparse : Journal.parse bytes = .ok c) (hopen : Engine.open (some path) h = (.ok e, h')) :
    retained e.ring = c.payloads.rtake retainedCommands := by
  have hring := (recover_eq_ring_of_open hopen).symm.trans (recover_of_parse hread hparse)
  rw [Except.ok.inj hring, retained_ofList]

/-- **A changed byte is detected at its own record.** In a journal of any records, let one byte of
one of them be changed that is in its number, its checksum or its payload. A reader can be opened on
the file, and the calls for the next item give the records in front of the changed one as they were
written, then the failure that the checksum of the changed one is wrong, with its number, the
checksum that is stored and the one that is not, and nothing after that. An engine that is opened on
the file retains the last payloads of the records in front of the changed one, up to its number of
them. It can be opened wherever the temporary sibling of the journal can be created. -/
theorem detects_changed_byte (hstorable : ∀ r ∈ rs, r.Storable) (hr : rs[i]? = some r)
    (hj : j < r.encode.length) (hfield : j < 8 ∨ 12 ≤ j) (hmask : mask ≠ 0)
    (hread : h.disk.read path =
      .ok (Bytes.flip mask (Header.size + recordBytes (rs.take i) + j)
        (({} : Header).encode ++ encodeRecords rs))) :
    (∃ reader seq stored payload, Reader.open h.disk path = .ok reader ∧
      Corrupt (Bytes.flip mask j r.encode) seq stored payload ∧
      payload.length = r.payload.length ∧
      ∀ n, reader.nth n = ((rs.take i).map Except.ok ++
        [.error (.checksumMismatch seq stored (Record.checksum seq payload))])[n]?) ∧
    (∀ e h', Engine.open (some path) h = (.ok e, h') →
      retained e.ring = ((rs.take i).map Record.payload).rtake retainedCommands) ∧
    (h.disk.Sound → (∃ r, h.disk.create path.temporary = .ok r) →
      Settles path h ((rs.take i).map Record.payload)) := by
  obtain ⟨seq, stored, payload, hcorrupt, hlength, hparse⟩ :=
    Journal.parse_flip hstorable hr hj hfield hmask
  refine ⟨?_, ?_, ?_⟩
  · obtain ⟨reader, hopen, hnth⟩ := Reader.nth_of_parse hparse
    exact ⟨reader, seq, stored, payload, (Reader.open_eq hread).trans hopen, hcorrupt, hlength,
      hnth⟩
  · rintro e h' hopen
    rw [retained_of_open hread hparse hopen]
    rfl
  · rintro hsound hcreate
    obtain ⟨above, name, id, hholds⟩ := Journal.holds_of_read hsound hread
    obtain ⟨name', hplaced⟩ :=
      Journal.placed_of_create hholds.sound hholds.leads (Disk.isLeaf_of_file hholds.node) hcreate
    exact settles_of_recover hplaced hsound (recover_of_parse hread hparse)
      (fits_of_mem_payloads hparse)

/-- Two commands, whose numbers are not their positions. -/
def twoRecords : List Record :=
  [{ seq := 5, payload := [0x61] }, { seq := 9, payload := [0x62, 0x63] }]

/-- A disk with a journal of them, in which the last byte of the second command is another one. -/
def changedDisk : Disk :=
  oneFile (Bytes.flip 4 (Header.size + recordBytes (twoRecords.take 1) + 21)
    (({} : Header).encode ++ encodeRecords twoRecords))

/-- The first of the two commands is read and recovered, and the second one is found to be wrong. -/
theorem detects_changed_byte_of_two_commands :
    (∃ reader seq stored payload, Reader.open changedDisk logPath = .ok reader ∧
      reader.nth 0 = some (.ok { seq := 5, payload := [0x61] }) ∧
      reader.nth 1 =
        some (.error (.checksumMismatch seq stored (Record.checksum seq payload))) ∧
      reader.nth 2 = none) ∧
    ∃ e h', Engine.open (some logPath) { disk := changedDisk } = (.ok e, h') ∧
      retained e.ring = [[0x61]] := by
  have hholds := Journal.holds_oneFile (Bytes.flip 4
    (Header.size + recordBytes (twoRecords.take 1) + 21)
    (({} : Header).encode ++ encodeRecords twoRecords))
  have hstorable : ∀ r ∈ twoRecords, r.Storable := by
    rintro r hr
    simp only [twoRecords, List.mem_cons, List.not_mem_nil, or_false] at hr
    rcases hr with rfl | rfl
    · exact ⟨by decide, by decide⟩
    · exact ⟨by decide, by decide⟩
  have hcreate : ∃ r, changedDisk.create logPath.temporary = .ok r :=
    (Journal.leads_temporary_logPath _).create (Disk.isLeaf_of_none rfl)
  obtain ⟨⟨reader, seq, stored, payload, hreader, -, -, hnth⟩, hretained, hsettles⟩ :=
    detects_changed_byte (h := { disk := changedDisk }) hstorable rfl (by decide)
      (.inr (by decide)) (by decide) hholds.read
  obtain ⟨e, h', hopen, -⟩ := hsettles hholds.sound hcreate
  refine ⟨⟨reader, seq, stored, payload, hreader, ?_, ?_, ?_⟩, e, h', hopen, hretained e h' hopen⟩
  · rw [hnth]
    rfl
  · rw [hnth]
    rfl
  · rw [hnth]
    rfl

end CommandLog.Engine
