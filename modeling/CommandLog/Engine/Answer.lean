import CommandLog.Engine
import CommandLog.Session

/-!
# Carrying out requests

What a session's request does to the engine, and what it is answered with, in one piece:
`CommandLog.Engine.answer`. It is done while the lock is held, so that no other command comes
between a command and the log that is sent back for it.

A stored command is answered with the whole log, an accepted position with the log from there on.
A command that cannot be journaled, a position outside the log and a malformed control line are
answered with nothing.
-/

namespace CommandLog.Engine

/-- **Carries out a request** and gives the answer to send, if there is one. -/
def answer (e : Engine) (h : Host) : Request → Option Bytes × Engine × Host
  | .append line =>
    match e.append line h with
    | (.ok _, e, h) => (some (e.readFrom 0), e, h)
    | (.error _, e, h) => (none, e, h)
  | .seek index offset =>
    let counted := { h.metrics with seeks := h.metrics.seeks + 1 }
    match e.seek index.toNat offset.toNat with
    | .ok flat => (some (e.readFrom flat), e, { h with metrics := counted })
    | .error _ =>
      (none, e, { h with metrics := { counted with seeksRejected := counted.seeksRejected + 1 } })
  | .rejected =>
    (none, e,
      { h with metrics := { h.metrics with seeksRejected := h.metrics.seeksRejected + 1 } })

end CommandLog.Engine
