import CommandLog.Address
import CommandLog.Error

/-!
# Settings of a server

What a server can be told, with what it takes for granted: `CommandLog.Settings` and
`CommandLog.Settings.standard`. Settings that make no sense are refused by
`CommandLog.Settings.check`.
-/

namespace CommandLog

/-- What a server can be told. -/
structure Settings where
  /-- Where to listen. -/
  bindAddress : Address := .v4 { octets := #v[0, 0, 0, 0] } 9000
  /-- Seconds between two timestamps, or no timestamps. -/
  timestampInterval : Option Nat := some 10
  /-- Where the journal is, or no journal. -/
  journalPath : Option String := none
  /-- Whether the journal is removed when the server stops. -/
  purgesJournal : Bool := true
  /-- Length of the longest command, in bytes. -/
  maxCommandBytes : Nat := 1024 * 1024
  /-- Where to serve the metrics, or nowhere. -/
  metricsAddress : Option Address := none
deriving DecidableEq, Repr

namespace Settings

/-- What a server takes for granted. -/
def standard : Settings where

/-- **Refuses settings that make no sense.** -/
def check (s : Settings) : Except Error Unit :=
  if s.timestampInterval = some 0 then .error (.config "timestamp_interval_secs must be > 0")
  else if s.maxCommandBytes = 0 then .error (.config "max_command_bytes must be > 0")
  else .ok ()

/-- Milliseconds between two timestamps. -/
def timestampPeriod (s : Settings) : Option Nat :=
  s.timestampInterval.map (1000 * ·)

end Settings

end CommandLog
