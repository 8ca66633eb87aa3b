import CommandLog.Journal.File

/-!
# Reading a journal record by record

A journal can be read one record at a time, by whoever wants to stop early or to do something with
each record. A reader goes through the file once, and gives nothing more after a record that it
could not read.

* `CommandLog.Journal.Reader` – what is left of the file, where the next record starts, and
  whether reading has failed;
* `CommandLog.Journal.Reader.open` – a reader behind the header of a journal;
* `CommandLog.Journal.Reader.readRecord` – one record, field by field;
* `CommandLog.Journal.Reader.next` – **the next item**;
* `CommandLog.Journal.Reader.nth` – what the call of a given number gives, counted from zero.
-/

namespace CommandLog.Journal

/-- A journal that is being read. -/
structure Reader where
  /-- What has not been read yet. -/
  unread : Bytes
  /-- The byte of the file at which the next record starts. -/
  position : Nat
  /-- Whether a record could not be read. -/
  failed : Bool
deriving DecidableEq, Repr, Inhabited

namespace Reader

/-- A reader behind the header of a journal with the given bytes. -/
def ofBytes (bs : Bytes) : Except Error Reader :=
  match Header.read bs with
  | (.error e, _) => .error e
  | (.ok _, rest) => .ok { unread := rest, position := Header.size, failed := false }

/-- **A reader of the journal that a path leads to.** -/
def «open» (d : Disk) (path : Path) : Except Error Reader :=
  match d.read path with
  | .error f => .error (.io f)
  | .ok bytes => ofBytes bytes

/-- Exactly so many bytes of a record that starts at the given byte of the file. When they are not
there, the record is torn. -/
def exactly (start n : Nat) (input : Bytes) : Except Error (Bytes × Bytes) :=
  match input.takeExactly? n with
  | none => .error (.truncated start)
  | some parts => .ok parts

/-- **Reads one record**, field by field, and gives what follows it. There is none at the end of
the file. -/
def readRecord (r : Reader) : Except Error (Option (Record × Bytes)) :=
  if r.unread.isEmpty then .ok none
  else
    match exactly r.position 8 r.unread with
    | .error e => .error e
    | .ok (seq, input) =>
      match exactly r.position 4 input with
      | .error e => .error e
      | .ok (length, input) =>
        match exactly r.position 8 input with
        | .error e => .error e
        | .ok (stored, input) =>
          match exactly r.position (LittleEndian.decode length) input with
          | .error e => .error e
          | .ok (payload, rest) =>
            let seq := LittleEndian.decode seq
            let expected := UInt64.ofNat (LittleEndian.decode stored)
            let found := Record.checksum seq payload
            if found = expected then .ok (some ({ seq, payload }, rest))
            else .error (.checksumMismatch seq expected found)

/-- **The next item**: a record, or the failure of reading one, or nothing. What a failure has left
of the file is not looked at again. -/
def next (r : Reader) : Option (Except Error Record) × Reader :=
  if r.failed then (none, r)
  else
    match r.readRecord with
    | .ok none => (none, r)
    | .ok (some (record, rest)) =>
      (some (.ok record),
        { r with unread := rest
                 position := r.position + Record.headSize + record.payload.length })
    | .error e => (some (.error e), { r with failed := true })

/-- What the call of a given number gives, counted from zero. -/
def nth (r : Reader) : Nat → Option (Except Error Record)
  | 0 => r.next.1
  | n + 1 => nth r.next.2 n

end Reader

end CommandLog.Journal
