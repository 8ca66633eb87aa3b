import CommandLog.Bytes

/-!
# Log entries

An entry is one accepted write command, kept verbatim. It is built once and only read
afterwards: `CommandLog.Entry.bytes` is what was accepted, and two entries are equal exactly when
their bytes are.
-/

namespace CommandLog

/-- One accepted write command, terminator included. -/
structure Entry where
  /-- The bytes of the command, as they were received. -/
  bytes : Bytes
deriving DecidableEq, Repr, Inhabited

namespace Entry

/-- Number of bytes of an entry. -/
def size (e : Entry) : Nat :=
  e.bytes.length

/-- Whether an entry has no bytes at all. -/
def isEmpty (e : Entry) : Bool :=
  e.bytes.isEmpty

end Entry

end CommandLog
