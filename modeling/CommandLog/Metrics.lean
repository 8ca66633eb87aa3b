/-!
# Metrics

Six counters and two gauges tell from outside what the log does. A counter grows by one per
event; a gauge holds what it was last set to, and it is set only by the operations that say so.

`CommandLog.Metrics` holds all eight values, and `CommandLog.Metrics.report` lists them under the
names they are published with.
-/

namespace CommandLog

/-- The values of all metrics. -/
structure Metrics where
  /-- Commands stored in the log. -/
  commandsAppended : Nat := 0
  /-- Entries evicted to make room for newer ones. -/
  entriesEvicted : Nat := 0
  /-- Well-formed seek control lines received. -/
  seeks : Nat := 0
  /-- Seek control lines rejected as malformed or out of range. -/
  seeksRejected : Nat := 0
  /-- Commands dropped for exceeding the size limit. -/
  commandsAborted : Nat := 0
  /-- Timestamp entries stored by annotators. -/
  timestampsAppended : Nat := 0
  /-- Gauge: sessions registered. -/
  sessionsActive : Nat := 0
  /-- Gauge: length of the logical log in bytes. -/
  logBytes : Nat := 0
deriving DecidableEq, Repr, Inhabited

namespace Metrics

/-- All metrics with their published names. -/
def report (m : Metrics) : List (String × Nat) :=
  [("aesd_commands_appended_total", m.commandsAppended),
    ("aesd_entries_evicted_total", m.entriesEvicted),
    ("aesd_seeks_total", m.seeks),
    ("aesd_seeks_rejected_total", m.seeksRejected),
    ("aesd_commands_aborted_total", m.commandsAborted),
    ("aesd_timestamps_appended_total", m.timestampsAppended),
    ("aesd_sessions_active", m.sessionsActive),
    ("aesd_log_bytes", m.logBytes)]

/-- What is published as long as nothing has been set up to collect metrics. -/
def uninitializedText : String :=
  "# metrics not initialized"

end Metrics

end CommandLog
