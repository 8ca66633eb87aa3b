import CommandLog.Disk

/-!
# Disk operations one step at a time

An operation on a journal is a list of single steps, and a program that is stopped leaves the
disk as some of these steps have made it. Running an operation and stating what may be left of it
therefore go through one and the same list.

* `CommandLog.Disk.Step` – one step;
* `CommandLog.Disk.Desk` – a disk together with the file that the operation has open;
* `CommandLog.Disk.Step.run` – the effect of one step;
* `CommandLog.Disk.runSteps` – a list of steps, up to the first one that fails;
* `CommandLog.Disk.Leaves` – what an interruption can leave of a list of steps.

Opening a file and renaming can fail. Writing to a file that is open and waiting for the medium do
not fail here: a medium that is full or broken is no part of a disk. An operation that ends with
such a failure has left the disk as it was when the failure came, with the beginning of the bytes
written or none of them, and that is one of the disks that `CommandLog.Disk.Leaves` describes.
-/

namespace CommandLog.Disk

/-- One step of an operation on a disk. -/
inductive Step where
  /-- Open a file for writing from its start, emptying it. -/
  | create (path : Path)
  /-- Open a file for writing at its end. -/
  | openAppend (path : Path)
  /-- Write bytes to the open file. -/
  | write (data : Bytes)
  /-- Wait until everything written is on the medium. -/
  | sync
  /-- Put one name in place of another. -/
  | rename (source target : Path)
deriving DecidableEq, Repr

/-- A disk and the file that is open on it. -/
structure Desk where
  /-- The disk. -/
  disk : Disk
  /-- The open file. -/
  file : Option FileId
deriving Repr, Inhabited

/-- The effect of one step. A step that fails changes nothing; writing and waiting do not fail. -/
def Step.run (k : Desk) : Step → Except Fault Desk
  | .create path => (k.disk.create path).map fun (id, d) => { disk := d, file := some id }
  | .openAppend path => (k.disk.openAppend path).map fun (id, d) => { disk := d, file := some id }
  | .write data =>
    match k.file with
    | some id => .ok { k with disk := k.disk.write id data }
    | none => .error .notFound
  | .sync => .ok k
  | .rename source target => (k.disk.rename source target).map fun d => { k with disk := d }

/-- **A list of steps in order**, up to the first one that fails. -/
def runSteps (k : Desk) : List Step → Except Fault Unit × Desk
  | [] => (.ok (), k)
  | s :: rest =>
    match s.run k with
    | .error f => (.error f, k)
    | .ok k => runSteps k rest

/-- **What an interruption can leave behind.** A step has been carried out or it has not, except
that a write may have put the beginning of its bytes into the file. -/
inductive Leaves : Desk → List Step → Desk → Prop where
  /-- Nothing more was carried out. -/
  | none (k : Desk) (steps : List Step) : Leaves k steps k
  /-- A write was cut short. -/
  | torn (k : Desk) {id : FileId} (h : k.file = some id) (front rest : Bytes) (steps : List Step) :
    Leaves k (.write (front ++ rest) :: steps) { k with disk := k.disk.write id front }
  /-- The first step was carried out. -/
  | step {k k' k'' : Desk} {s : Step} {steps : List Step} (h : s.run k = .ok k')
    (later : Leaves k' steps k'') : Leaves k (s :: steps) k''

end CommandLog.Disk
