import CommandLog.Journal.File
import CommandLog.Text.Escape
import CommandLog.Text.Grid
import CommandLog.Text.Lossy

/-!
# Inspecting a journal

A journal is shown as a table of its records, up to the first one that cannot be read, with their
number and total size below, and with what is wrong with the journal, if anything is.

* `CommandLog.Summary` and `CommandLog.Summary.load` – what is shown. Damage is no failure: it
  is part of the summary;
* `CommandLog.Inspect.preview` – the beginning of a command, escaped;
* `CommandLog.Inspect.report` – **the whole text**, in front of a failure the part that was
  printed before it.
-/

namespace CommandLog

/-- What a journal holds, up to the first record that cannot be read. -/
structure Summary where
  /-- The records. -/
  records : List Journal.Record
  /-- Total number of bytes in their payloads. -/
  totalBytes : Nat
  /-- Why reading stopped early, if it did. -/
  damage : Option Journal.Error
deriving DecidableEq, Repr

/-- The summary of the journal that a path leads to. -/
def Summary.load (d : Disk) (path : Path) : Except Journal.Error Summary :=
  (Journal.load d path).map fun c =>
    { records := c.records, totalBytes := c.totalBytes, damage := c.failure }

namespace Inspect

/-- Number of characters of a command that are shown. -/
def previewChars : Nat := 48

/-- **The beginning of a command**, escaped; dots stand for what is left out. Every character has
an escape of one character or more, so no more characters than are shown need to be read, and one
more to see that something is left out. -/
def preview (payload : Bytes) : String :=
  let escaped := Text.escapeRun (Text.firstChars (previewChars + 1) payload)
  if previewChars < escaped.length then String.ofList (escaped.take previewChars) ++ "..."
  else String.ofList escaped

/-- The row of a record. -/
def row (r : Journal.Record) : List String :=
  [toString r.seq, toString r.payload.length, preview r.payload]

/-- The lines of a summary. -/
def body (s : Summary) (modified : String) : List String :=
  Text.Grid.render ["Seq", "Bytes", "Command"] (s.records.map row) ++
    [s!"{s.records.length} records, {s.totalBytes} bytes, modified {modified}"] ++
    (match s.damage with
      | none => []
      | some e => ["CORRUPT: " ++ e.message]) ++
    [""]

/-- Lines as one text, each with its end. -/
def unlines (ls : List String) : String :=
  String.join (ls.map (· ++ "\n"))

/-- The lines that come before anything is read. -/
def heading (name : String) : List String :=
  ["", "Journal " ++ name, "--------------------"]

/-- **What is printed about the journal of a name**, and the failure that came after it, if one
did. The time of the last change is given as text. -/
def report (d : Disk) (name modified : String) : String × Option Journal.Error :=
  let path := Path.ofString name
  if d.hasPath path then
    match Summary.load d path with
    | .ok s => (unlines (heading name ++ body s modified), none)
    | .error e => (unlines (heading name), some e)
  else (unlines (heading name ++ ["MISSING", ""]), none)

end Inspect

end CommandLog
