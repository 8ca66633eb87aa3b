import CommandLog.Address.Text
import CommandLog.Disk
import CommandLog.Json.Typed
import CommandLog.Settings

/-!
# Settings files

Settings are read from a file that holds a JSON text: an object with a field for every setting, or
a list of the settings in a fixed order. What is not there is taken for granted, and fields of an
object that are no settings are read over.

* `CommandLog.Settings.Field` – the settings, and their names and order in a file;
* `CommandLog.Settings.reader` – reads settings;
* `CommandLog.Settings.load` – reads a file and refuses settings that make no sense.
-/

namespace CommandLog.Settings

open Json (Reader)

/-- The settings that a file can hold. -/
inductive Field where
  /-- Where to listen. -/
  | bindAddress
  /-- Seconds between two timestamps. -/
  | timestampInterval
  /-- Where the journal is. -/
  | journalPath
  /-- Whether the journal is removed at the end. -/
  | purgesJournal
  /-- Length of the longest command. -/
  | maxCommandBytes
  /-- Where to serve the metrics. -/
  | metricsAddress
deriving DecidableEq, Repr

namespace Field

/-- All settings, in the order in which a list holds them. -/
def all : List Field :=
  [bindAddress, timestampInterval, journalPath, purgesJournal, maxCommandBytes, metricsAddress]

/-- The name of a setting. -/
def name : Field → String
  | bindAddress => "bind_addr"
  | timestampInterval => "timestamp_interval_secs"
  | journalPath => "journal_path"
  | purgesJournal => "purge_journal_on_exit"
  | maxCommandBytes => "max_command_bytes"
  | metricsAddress => "metrics_addr"

/-- The setting with a name. -/
def ofName? (key : String) : Option Field :=
  all.find? (·.name = key)

end Field

/-! ### Reading -/

/-- An address. -/
def address : Reader Address := do
  match Address.ofText? (← Reader.text "socket address") with
  | some a => return a
  | none => .fail (.malformed "invalid socket address syntax")

/-- A path. -/
def path : Reader String := do
  return String.ofList (← Reader.text "path string")

/-- The value of one setting. -/
def readField (s : Settings) : Field → Reader Settings
  | .bindAddress => do return { s with bindAddress := ← address }
  | .timestampInterval => do
    return { s with timestampInterval := ← Reader.nullable (Reader.natural "u64") }
  | .journalPath => do return { s with journalPath := ← Reader.nullable path }
  | .purgesJournal => do return { s with purgesJournal := ← Reader.boolean }
  | .maxCommandBytes => do return { s with maxCommandBytes := ← Reader.natural "usize" }
  | .metricsAddress => do return { s with metricsAddress := ← Reader.nullable address }

/-- What follows a key, given the settings read so far and which ones these are. -/
def readKeyed (s : List Field × Settings) (key : List Char) :
    Reader (List Field × Settings) := do
  match Field.ofName? (String.ofList key) with
  | none =>
    Reader.colon
    Reader.skip
    return s
  | some f =>
    if f ∈ s.1 then .fail (.repeatedField f.name)
    else
      Reader.colon
      return (f :: s.1, ← readField s.2 f)

/-- Elements of a list that hold the given settings, as far as there are elements. -/
def readListed (s : Settings) : Bool → List Field → Reader Settings
  | _, [] => return s
  | first, f :: fs => do
    match ← Reader.element first (readField s f) with
    | none => return s
    | some s => readListed s false fs

/-- **Settings as an object or a list.** -/
def reader : Reader Settings := do
  let c ← Reader.firstOfValue
  if c = '\x7b' then return (← Reader.fields readKeyed ([], standard)).2
  else if c = '[' then
    let s ← readListed standard true Field.all
    Reader.endOfList
    return s
  else Reader.mismatch "struct NodeConfig" c

/-! ### Files -/

/-- The text that bytes encode. -/
def decode (bs : Bytes) : Except Error (List Char) :=
  match String.fromUTF8? (ByteArray.mk bs.toArray) with
  | some text => .ok text.toList
  | none => .error (.io .invalidText)

/-- **The settings in a file**, refused when they make no sense. -/
def load (d : Disk) (file : String) : Except Error Settings := do
  let bytes ← (d.read (Path.ofString file)).mapError Error.io
  let text ← decode bytes
  let s ← (reader.readAll text).mapError fun e => Error.config (file ++ ": " ++ e.message)
  s.check
  return s

end CommandLog.Settings
