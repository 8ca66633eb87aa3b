import CommandLog.Journal.Format
import CommandLog.Ring.Offset

/-!
# Errors of the log and the server

Everything that can go wrong between the configuration and the log, by cause:
`CommandLog.Error`. Its wording, `CommandLog.Error.message`, puts the kind of cause in front of
the cause's own wording, and `CommandLog.Error.chain` goes on to the cause, and to the cause of the
cause, each with its own wording.
-/

namespace CommandLog

/-- Why an operation of the log or the server failed. -/
inductive Error where
  /-- The journal cannot be read or written. -/
  | journal (cause : Journal.Error)
  /-- A file or network operation failed. -/
  | io (fault : Fault)
  /-- A command address lies outside the log. -/
  | seek (cause : SeekError)
  /-- The configuration cannot be read or makes no sense. -/
  | config (detail : String)
  /-- Metrics cannot be collected. -/
  | telemetry (detail : String)
deriving DecidableEq, Repr

/-- The wording of an error. -/
def Error.message : Error → String
  | .journal cause => "Journal error: " ++ cause.message
  | .io fault => "IO error: " ++ fault.message
  | .seek cause => "Seek rejected: " ++ cause.message
  | .config detail => "Invalid config: " ++ detail
  | .telemetry detail => "Telemetry error: " ++ detail

/-- The wording of an error, of its cause, and so on. -/
def Error.chain (e : Error) : List String :=
  match e with
  | .journal cause => e.message :: cause.chain
  | .io fault => [e.message, fault.message]
  | .seek cause => [e.message, cause.message]
  | .config _ => [e.message]
  | .telemetry _ => [e.message]

end CommandLog
