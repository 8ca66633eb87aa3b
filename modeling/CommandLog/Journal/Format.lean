import CommandLog.Bytes.LittleEndian
import CommandLog.Checksum
import CommandLog.Entry
import CommandLog.Fault

/-!
# The journal format

A journal is a header followed by records, one per stored command. All integers are little-endian.

```text
header: magic (8 bytes) | version (4) | reserved (4)
record: sequence number (8) | payload length (4) | checksum (8) | payload
```

The checksum of a record covers its sequence number, its length and its payload.

* `CommandLog.Journal.Header` with `CommandLog.Journal.Header.encode` and
  `CommandLog.Journal.Header.read`;
* `CommandLog.Journal.Record` with `CommandLog.Journal.Record.encode`;
* `CommandLog.Journal.encode` – **a whole journal**, its records numbered from zero;
* `CommandLog.Journal.Error` – why a journal, or a part of it, cannot be read or written.
-/

namespace CommandLog.Journal

/-- Why a journal cannot be read or written. -/
inductive Error where
  /-- The file does not start with the journal's magic bytes. -/
  | invalidMagic
  /-- The file has the magic bytes and a version that is not understood. -/
  | unsupportedVersion (version : UInt32)
  /-- A record's stored checksum is not the one of its contents. -/
  | checksumMismatch (seq : Nat) (expected found : UInt64)
  /-- The file ends inside the record that starts at the given byte. -/
  | truncated (position : Nat)
  /-- Reading or writing itself failed. -/
  | io (fault : Fault)
deriving DecidableEq, Repr

/-- The wording of a journal error. -/
def Error.message : Error → String
  | .invalidMagic => "Invalid magic bytes in header"
  | .unsupportedVersion version => s!"Unsupported journal version {version.toNat}"
  | .checksumMismatch seq expected found =>
    s!"Checksum mismatch at record {seq}: expected {expected.toNat}, found {found.toNat}"
  | .truncated position => s!"Truncated record at byte {position}"
  | .io fault => "IO error: " ++ fault.message

/-- The wording of an error followed by the wordings of its causes, from the outside in. -/
def Error.chain (e : Error) : List String :=
  match e with
  | .io fault => [e.message, fault.message]
  | _ => [e.message]

/-! ### The header -/

/-- What a journal starts with. -/
structure Header where
  /-- Eight bytes that mark the file as a journal. -/
  magic : Bytes := [0x41, 0x45, 0x53, 0x44, 0x4a, 0x52, 0x4e, 0x4c]
  /-- The version of the format. -/
  version : UInt32 := 1
  /-- Not used. -/
  reserved : UInt32 := 0
deriving DecidableEq, Repr, Inhabited

namespace Header

/-- The magic bytes: `AESDJRNL`. -/
def journalMagic : Bytes := ({} : Header).magic

/-- The only version that is understood. -/
def currentVersion : UInt32 := ({} : Header).version

/-- Number of bytes of a header. -/
def size : Nat := 16

/-- The bytes of a header. -/
def encode (h : Header) : Bytes :=
  h.magic ++ LittleEndian.encode 4 h.version.toNat ++ LittleEndian.encode 4 h.reserved.toNat

/-- Reads one 32-bit integer. Input that ends early is used up all the same. -/
def readNumber (input : Bytes) : Except Error UInt32 × Bytes :=
  match input.takeExactly? 4 with
  | none => (.error (.io .unexpectedEnd), [])
  | some (field, rest) => (.ok (UInt32.ofNat (LittleEndian.decode field)), rest)

/-- **Reads a header**, field by field, and gives what is left of the input. The magic bytes are
judged before the version is read, and the version before the reserved field. -/
def read (input : Bytes) : Except Error Header × Bytes :=
  match input.takeExactly? 8 with
  | none => (.error (.io .unexpectedEnd), [])
  | some (magic, rest) =>
    if magic ≠ journalMagic then (.error .invalidMagic, rest)
    else
      match readNumber rest with
      | (.error e, rest) => (.error e, rest)
      | (.ok version, rest) =>
        if version ≠ currentVersion then (.error (.unsupportedVersion version), rest)
        else
          match readNumber rest with
          | (.error e, rest) => (.error e, rest)
          | (.ok reserved, rest) => (.ok { magic, version, reserved }, rest)

/-- Writes a header at the start of a buffer that cannot grow. -/
def writeInto (h : Header) (buffer : Bytes) : Except Error Bytes :=
  if h.encode.length ≤ buffer.length then .ok (h.encode ++ buffer.drop h.encode.length)
  else .error (.io .outputFull)

end Header

/-! ### Records -/

/-- One journaled command. -/
structure Record where
  /-- The position of the command in the journal, as stored. -/
  seq : Nat
  /-- The command. -/
  payload : Bytes
deriving DecidableEq, Repr, Inhabited

namespace Record

/-- Number of bytes in front of a payload. -/
def headSize : Nat := 20

/-- Payloads are shorter than this, because their length is stored in four bytes. -/
def payloadLimit : Nat := UInt32.size

/-- The checksum of a record. -/
def checksum (seq : Nat) (payload : Bytes) : UInt64 :=
  Checksum.of (LittleEndian.encode 8 seq ++ LittleEndian.encode 4 payload.length ++ payload)

/-- The bytes of a record. -/
def encode (r : Record) : Bytes :=
  LittleEndian.encode 8 r.seq ++ LittleEndian.encode 4 r.payload.length ++
    LittleEndian.encode 8 (checksum r.seq r.payload).toNat ++ r.payload

/-- The entry that a record brings back. -/
def entry (r : Record) : Entry :=
  { bytes := r.payload }

end Record

/-- Whether a payload fits a record. -/
def fits (payload : Bytes) : Bool :=
  payload.length < Record.payloadLimit

/-- Payloads as records, numbered upwards from `first`. -/
def numbered (first : Nat) : List Bytes → List Record
  | [] => []
  | p :: rest => { seq := first, payload := p } :: numbered (first + 1) rest

/-- The bytes of a list of records. -/
def encodeRecords (rs : List Record) : Bytes :=
  (rs.map Record.encode).flatten

/-- **A whole journal**: the header and the payloads as records numbered from zero. -/
def encode (payloads : List Bytes) : Bytes :=
  ({} : Header).encode ++ encodeRecords (numbered 0 payloads)

end CommandLog.Journal
