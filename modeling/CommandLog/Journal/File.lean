import CommandLog.Disk.Step
import CommandLog.Journal.Scan

/-!
# Journal files

A journal on a disk is read as a whole, appended to by a writer, and replaced as a whole.

* `CommandLog.Journal.load` – the journal that a path leads to;
* `CommandLog.Journal.Writer` – an open journal with the number of its next record, made by
  `CommandLog.Journal.Writer.open` and used by `CommandLog.Journal.Writer.append`;
* `CommandLog.Journal.replace` – a new journal in place of whatever a path is bound to. The
  temporary sibling is written first and takes the place of the journal in one step, so that the
  path holds the old contents or the new ones and nothing in between.

Each operation runs a list of steps, `CommandLog.Journal.appendSteps` and
`CommandLog.Journal.replaceSteps`, which are also what an interruption cuts short.
-/

namespace CommandLog.Journal

open Disk (Step Desk)

/-- The journal that a path leads to. -/
def load (d : Disk) (path : Path) : Except Error Contents :=
  match d.read path with
  | .error f => .error (.io f)
  | .ok bytes => parse bytes

/-! ### The writer -/

/-- A journal open for appending. -/
structure Writer where
  /-- Where the journal was opened. -/
  path : Path
  /-- The file that was opened, whatever its path is bound to since. -/
  file : FileId
  /-- The number that the next record gets. It has no bound here; a record stores the lower 64 bits
  of its number, and a counter of that size holds every number below `2 ^ 64`. -/
  nextSeq : Nat
deriving DecidableEq, Repr, Inhabited

/-- The steps that open a journal for appending; a new one gets its header. -/
def openSteps (path : Path) (isNew : Bool) : List Step :=
  if isNew then [.openAppend path, .write ({} : Header).encode, .sync] else [.openAppend path]

/-- Opens a journal whose next record gets the given number. -/
def Writer.attach (path : Path) (isNew : Bool) (nextSeq : Nat) (d : Disk) :
    Except Error Writer × Disk :=
  match Disk.runSteps { disk := d, file := none } (openSteps path isNew) with
  | (.error f, k) => (.error (.io f), k.disk)
  | (.ok (), k) =>
    match k.file with
    | some file => (.ok { path, file, nextSeq }, k.disk)
    | none => (.error (.io .notFound), k.disk)

/-- **Opens or makes a journal.** One that has contents must have a valid header and intact
records only, and its numbering goes on after its last record. -/
def Writer.open (path : Path) (d : Disk) : Except Error Writer × Disk :=
  if d.hasContent path then
    match load d path with
    | .error e => (.error e, d)
    | .ok c =>
      match c.failure with
      | some e => (.error e, d)
      | none => Writer.attach path false c.nextSeq d
  else
    Writer.attach path true 0 d

/-- The steps that append one record. -/
def appendSteps (r : Record) : List Step :=
  [.write r.encode, .sync]

/-- **One more record.** A payload that does not fit a record is refused before anything is
written. -/
def Writer.append (w : Writer) (payload : Bytes) (d : Disk) : Except Error Nat × Writer × Disk :=
  if fits payload then
    match Disk.runSteps { disk := d, file := some w.file }
        (appendSteps { seq := w.nextSeq, payload }) with
    | (.error f, k) => (.error (.io f), w, k.disk)
    | (.ok (), k) => (.ok w.nextSeq, { w with nextSeq := w.nextSeq + 1 }, k.disk)
  else
    (.error (.io .recordTooLong), w, d)

/-! ### Replacing a journal -/

/-- The steps that write the temporary sibling of a journal. -/
def draftSteps (path : Path) (payloads : List Bytes) : List Step :=
  [.create path.temporary, .write (encode payloads)]

/-- The steps that replace a journal, for payloads that all fit a record. -/
def replaceSteps (path : Path) (payloads : List Bytes) : List Step :=
  draftSteps path payloads ++ [.sync, .rename path.temporary path]

/-- **A new journal in place of the old one**, its records numbered from zero. When a payload
does not fit a record, the payloads before it are left in the temporary sibling and the journal
stays as it is. -/
def replace (path : Path) (payloads : List Bytes) (d : Disk) : Except Error Unit × Disk :=
  let desk : Desk := { disk := d, file := none }
  match payloads.span fits with
  | (_, []) =>
    match Disk.runSteps desk (replaceSteps path payloads) with
    | (.error f, k) => (.error (.io f), k.disk)
    | (.ok (), k) => (.ok (), k.disk)
  | (fitting, _ :: _) =>
    match Disk.runSteps desk (draftSteps path fitting) with
    | (.error f, k) => (.error (.io f), k.disk)
    | (.ok (), k) => (.error (.io .recordTooLong), k.disk)

end CommandLog.Journal
