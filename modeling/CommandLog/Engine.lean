import CommandLog.Error
import CommandLog.Journal.File
import CommandLog.Metrics

/-!
# The log engine

The engine is the ring of retained entries together with the journal that makes it survive a
restart. Its operations act on a disk and on the metrics, which form its host.

* `CommandLog.Engine` – the ring, the open journal if there is one, and where it is;
* `CommandLog.Engine.open` – an engine on a journal: what the journal holds is replayed through
  the ring, and the journal is then replaced by one that holds exactly the retained entries;
* `CommandLog.Engine.append` – stores one command, journaling it before the ring takes it;
* `CommandLog.Engine.compact` – replaces a journal that has grown too long;
* `CommandLog.Engine.seek` and `CommandLog.Engine.readFrom` – the two halves of an answer;
* `CommandLog.Engine.close` – lets go of the journal, and removes it on request.

Whoever calls these holds the engine's lock, so an append and the read that answers it see one and
the same ring.
-/

namespace CommandLog

/-- Number of commands that are retained. -/
def retainedCommands : Nat := 10

/-- The ring that the engine keeps. -/
abbrev CommandRing := Ring retainedCommands

/-- Number of records at which a journal is replaced by the retained entries. -/
def compactRecords : Nat := 2 * retainedCommands

/-- What an engine acts on. -/
structure Host where
  /-- The disk that holds the journal. -/
  disk : Disk := Disk.empty
  /-- The metrics. -/
  metrics : Metrics := {}
deriving Repr, Inhabited

/-- A ring and the journal behind it. -/
structure Engine where
  /-- The retained entries. -/
  ring : CommandRing
  /-- The open journal. -/
  journal : Option Journal.Writer
  /-- Where the journal is. -/
  path : Option Path
deriving Inhabited

namespace Engine

/-- An engine without a journal. -/
def inMemory : Engine where
  ring := Ring.empty
  journal := none
  path := none

/-- What an engine retains of a journal: its records replayed through an empty ring. -/
def replay (c : Journal.Contents) : CommandRing :=
  Ring.ofList (c.records.map Journal.Record.entry)

/-- The payloads that a journal of the retained entries holds. -/
def retained (ring : CommandRing) : List Bytes :=
  ring.entries.map Entry.bytes

/-- The ring that the journal at a path stands for. A missing or empty journal stands for the
empty ring, one without a valid header for none, and one that is damaged further on for the
records before the damage. -/
def recover (path : Path) (d : Disk) : Except Journal.Error CommandRing :=
  if d.hasContent path then (Journal.load d path).map replay else .ok Ring.empty

/-- Replaces the journal by one of the retained entries and opens that one. -/
def renew (path : Path) (ring : CommandRing) (d : Disk) :
    Except Journal.Error Journal.Writer × Disk :=
  match Journal.replace path (retained ring) d with
  | (.error e, d) => (.error e, d)
  | (.ok (), d) => Journal.Writer.open path d

/-- **An engine on a journal**, or without one. -/
def «open» (path? : Option Path) (h : Host) : Except Error Engine × Host :=
  match path? with
  | none => (.ok inMemory, h)
  | some path =>
    match recover path h.disk with
    | .error e => (.error (.journal e), h)
    | .ok ring =>
      match renew path ring h.disk with
      | (.error e, disk) => (.error (.journal e), { h with disk })
      | (.ok writer, disk) =>
        (.ok { ring, journal := some writer, path := some path },
          { disk, metrics := { h.metrics with logBytes := ring.totalBytes } })

/-- Replaces the journal by one of the retained entries. When the new journal is in place but
cannot be opened, the engine goes on without one. -/
def compact (e : Engine) (d : Disk) : Engine × Disk :=
  match e.path with
  | none => (e, d)
  | some path =>
    match Journal.replace path (retained e.ring) d with
    | (.error _, d) => (e, d)
    | (.ok (), d) =>
      match Journal.Writer.open path d with
      | (.error _, d) => ({ e with journal := none }, d)
      | (.ok writer, d) => ({ e with journal := some writer }, d)

/-- Whether the journal has grown to the length at which it is replaced. -/
def isOversized (e : Engine) : Bool :=
  match e.journal with
  | none => false
  | some w => compactRecords ≤ w.nextSeq

/-- The journal's part of an append. -/
def record (e : Engine) (payload : Bytes) (d : Disk) : Except Journal.Error Unit × Engine × Disk :=
  match e.journal with
  | none => (.ok (), e, d)
  | some w =>
    match w.append payload d with
    | (.error err, w, d) => (.error err, { e with journal := some w }, d)
    | (.ok _, w, d) => (.ok (), { e with journal := some w }, d)

/-- The ring's part of an append. -/
def store (e : Engine) (payload : Bytes) (m : Metrics) : Option Entry × Engine × Metrics :=
  let (evicted, ring) := e.ring.append { bytes := payload }
  (evicted, { e with ring },
    { m with
      commandsAppended := m.commandsAppended + 1
      entriesEvicted := m.entriesEvicted + (if evicted.isSome then 1 else 0)
      logBytes := ring.totalBytes })

/-- **Stores one command** and gives the entry that it evicted. When the journal refuses it,
nothing is stored. A replacement of the journal that fails is no failure of the append. -/
def append (e : Engine) (payload : Bytes) (h : Host) :
    Except Error (Option Entry) × Engine × Host :=
  match e.record payload h.disk with
  | (.error err, e, disk) => (.error (.journal err), e, { h with disk })
  | (.ok (), e, disk) =>
    let (evicted, e, metrics) := e.store payload h.metrics
    if e.isOversized then
      let (e, disk) := e.compact disk
      (.ok evicted, e, { disk, metrics })
    else
      (.ok evicted, e, { disk, metrics })

/-- The flat offset of a command address. -/
def seek (e : Engine) (index offset : Nat) : Except Error Nat :=
  match e.ring.translate index offset with
  | .error err => .error (.seek err)
  | .ok flat => .ok flat

/-- The log from a flat offset on. -/
def readFrom (e : Engine) (offset : Nat) : Bytes :=
  e.ring.readFrom offset

/-- **Lets go of the journal**, and removes it when `purge` is set. A journal that is not there
any more counts as removed. -/
def close (e : Engine) (purge : Bool) (h : Host) : Except Error Unit × Engine × Host :=
  let detached := { e with journal := none }
  match purge, e.path with
  | true, some path =>
    match h.disk.remove path with
    | .ok disk => (.ok (), detached, { h with disk })
    | .error .notFound => (.ok (), detached, h)
    | .error f => (.error (.io f), detached, h)
  | _, _ => (.ok (), detached, h)

end Engine

end CommandLog
