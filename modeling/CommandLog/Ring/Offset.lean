import CommandLog.Ring

/-!
# Flat offsets

The live entries of a ring, oldest first, concatenate into the *logical log*. A position in that
concatenation is a **flat offset**. This file goes between flat offsets, slots and command
addresses, a command address being a retention position together with an offset inside the entry.

* `CommandLog.Ring.logicalLog` – the concatenation itself, the reference for everything below;
* `CommandLog.Ring.cumulative` – each live entry with the flat offset one past its last byte;
* `CommandLog.Ring.resolve?` – flat offset to slot and offset inside the entry. A boundary
  belongs to the next entry that has bytes;
* `CommandLog.Ring.chunksFrom` and `CommandLog.Ring.readFrom` – the log from a flat offset on, as
  one piece per entry and as one string;
* `CommandLog.Ring.translate` – command address to flat offset. An address outside the log is
  refused and never clamped (`CommandLog.SeekError`).

A flat offset means something only for the ring it was computed on: whoever translates and reads
does both before anything is appended.
-/

namespace CommandLog

/-- Why a command address is refused. -/
inductive SeekError where
  /-- The position is not below the number of live entries. -/
  | indexOutOfRange (index live : Nat)
  /-- The offset is not below the length of the addressed entry. -/
  | offsetOutOfRange (offset length : Nat)
deriving DecidableEq, Repr

/-- The wording of a refused address. -/
def SeekError.message : SeekError → String
  | .indexOutOfRange index live => s!"command index {index} out of range ({live} live)"
  | .offsetOutOfRange offset length =>
    s!"command offset {offset} out of range (entry length {length})"

namespace Ring

variable {N : Nat}

/-- **The logical log**: all live entries, oldest first, as one string. -/
def logicalLog (r : Ring N) : Bytes :=
  (r.entries.map Entry.bytes).flatten

/-- Running ends of a list of entries, the first entry starting at the given offset. -/
def endsFrom : Nat → List (Nat × Entry) → List (Nat × Entry × Nat)
  | _, [] => []
  | start, (slot, e) :: rest =>
    (slot, e, start + e.size) :: endsFrom (start + e.size) rest

/-- Each live entry, oldest first, with its slot and the flat offset one past its last byte. -/
def cumulative (r : Ring N) : List (Nat × Entry × Nat) :=
  endsFrom 0 r.live

/-- The slot that holds a flat offset and the offset inside its entry; `none` past the end. An
offset on the boundary of two entries belongs to the later one. -/
def resolve? (r : Ring N) (offset : Nat) : Option (Nat × Nat) :=
  (r.cumulative.find? fun (_, _, stop) => offset < stop).map
    fun (slot, e, stop) => (slot, offset - (stop - e.size))

/-- The log from a flat offset on, one piece per entry: the rest of the entry that holds the
offset and every newer entry whole. No piece at all when the offset is past the end. -/
def chunksFrom (r : Ring N) (offset : Nat) : List Bytes :=
  match r.resolve? offset with
  | none => []
  | some (slot, inner) =>
    match r.entries.drop ((slot + N - r.tail) % N) with
    | [] => []
    | e :: newer => e.bytes.drop inner :: newer.map Entry.bytes

/-- **The log from a flat offset on.** -/
def readFrom (r : Ring N) (offset : Nat) : Bytes :=
  (r.chunksFrom offset).flatten

/-- **The flat offset of a command address**: the given byte of the live entry at the given
retention position. -/
def translate (r : Ring N) (index offset : Nat) : Except SeekError Nat :=
  match r.cumulative[index]? with
  | none => .error (.indexOutOfRange index r.size)
  | some (_, e, stop) =>
    if offset < e.size then
      .ok (stop - e.size + offset)
    else
      .error (.offsetOutOfRange offset e.size)

end Ring

end CommandLog
