import CommandLog.Outcome
import CommandLog.Server
import CommandLog.Settings.File
import CommandLog.Text.Escape

/-!
# The server program

The server program takes its settings from a file, if it is given one, and from its command line,
which counts more.

* `CommandLog.Serve.scan` – the command line;
* `CommandLog.Serve.settings` – the settings that result from it;
* `CommandLog.Serve.start` – the server that is then started;
* `CommandLog.Settings.describe` – settings as text.

Whatever fails on the way is reported as a chain of causes, with what was being done in front.
-/

namespace CommandLog

/-! ### Settings as text -/

/-- A value that may be missing, as text. -/
def Settings.describeOption (text? : Option String) : String :=
  match text? with
  | none => "None"
  | some text => "Some(" ++ text ++ ")"

/-- A text between quotes. -/
def Settings.quoted (text : String) : String :=
  String.ofList (Text.quote text.toList)

/-- **Settings as text**, each with its name. -/
def Settings.describe (s : Settings) : String :=
  let fields :=
    [("bind_addr", s.bindAddress.render),
      ("timestamp_interval_secs", Settings.describeOption (s.timestampInterval.map toString)),
      ("journal_path", Settings.describeOption (s.journalPath.map Settings.quoted)),
      ("purge_journal_on_exit", toString s.purgesJournal),
      ("max_command_bytes", toString s.maxCommandBytes),
      ("metrics_addr", Settings.describeOption (s.metricsAddress.map Address.render))]
  "NodeConfig \x7b " ++ ", ".intercalate (fields.map fun (name, text) => name ++ ": " ++ text) ++
    " \x7d"

namespace Serve

/-! ### The command line -/

/-- Whether a text is an address. -/
def isAddress (text : String) : Bool :=
  (Address.ofText? text.toList).isSome

/-- The options. -/
def options : List Arguments.Opt :=
  [{ name := "config", short := some 'c', value := some (· ≠ "") },
    { name := "bind", value := some isAddress },
    { name := "timestamp-interval"
      value := some fun v => (Arguments.number? UInt64.size v).isSome
      conflict := some "no-timestamps" },
    { name := "no-timestamps", conflict := some "timestamp-interval" },
    { name := "journal", value := some (· ≠ "") },
    { name := "keep-journal" },
    { name := "metrics-addr", value := some isAddress }]

/-- **The command line**, which has no operands. -/
def scan (args : List String) : Except Arguments.Refusal Arguments.Given :=
  Arguments.scan { options, operands := [] } args

/-- The chain of causes of an error, with what was being done in front. -/
def during (activity : String) (e : Error) : List String :=
  activity :: e.chain

/-- What the command line says instead of other settings. -/
def override (g : Arguments.Given) (s : Settings) : Settings :=
  let address? := fun name => (g.value? name).bind fun v => Address.ofText? v.toList
  let interval? := (g.value? "timestamp-interval").bind (Arguments.number? UInt64.size)
  { s with
    bindAddress := (address? "bind").getD s.bindAddress
    timestampInterval :=
      if g.has "no-timestamps" then none else interval?.or s.timestampInterval
    journalPath := (g.value? "journal").or s.journalPath
    purgesJournal := s.purgesJournal && !g.has "keep-journal"
    metricsAddress := (address? "metrics-addr").or s.metricsAddress }

/-- **The settings that result from a command line**, checked once more at the end. -/
def settings (disk : Disk) (g : Arguments.Given) : Except (List String) Settings := do
  let start ← match g.value? "config" with
    | none => pure Settings.standard
    | some file =>
      (Settings.load disk file).mapError (during ("loading config " ++ Settings.quoted file))
  let s := override g start
  s.check.mapError Error.chain
  return s

/-- **The server on some settings**, with the disk as it is then. Timestamps count from `epoch`,
in milliseconds since the start of 1970. -/
def start (s : Settings) (listening : Except Fault Unit) (host : Host) (epoch : Nat) :
    Except (List String) Server :=
  match Engine.open (s.journalPath.map Path.ofString) host with
  | (.error e, _) => .error (during "opening log" e)
  | (.ok engine, host) =>
    (Server.start s listening engine host epoch).mapError (during "binding listener")

end Serve

end CommandLog
