import CommandLog.Timestamp

/-!
# Annotators

An annotator stores a timestamp once per period, the first one a full period after it was
started. It waits for its timer, makes the timestamp of the time at which it looks at it, and then
waits for the engine's lock. However long that takes, the timestamp that it stores is this one.

A timer that is looked at late does not catch up: the next deadline is a full period after the
moment at which it was looked at, unless it was late by no more than
`CommandLog.Annotator.slack`, which keeps the rhythm.

* `CommandLog.Annotator` and `CommandLog.Annotator.start`;
* `CommandLog.Annotator.nextDeadline` – the rule for deadlines;
* `CommandLog.Annotator.weight` – how many steps an annotator can still take at a given time.
-/

namespace CommandLog

/-- Where an annotator stands. -/
inductive Annotator.Phase where
  /-- Waiting for its timer. -/
  | waiting (deadline : Nat)
  /-- Its timer has fired and its timestamp is made; waiting for the engine's lock, with the next
  deadline set. -/
  | queued (deadline : Nat) (stamp : Timestamp)
  /-- Done. -/
  | ended
deriving DecidableEq, Repr

/-- An annotator. Times are in milliseconds. -/
structure Annotator where
  /-- The time between two timestamps. -/
  period : Nat
  /-- Where the annotator stands. -/
  phase : Annotator.Phase
deriving DecidableEq, Repr

namespace Annotator

/-- An annotator started at a given time. -/
def start (period now : Nat) : Annotator where
  period := period
  phase := .waiting (now + period)

/-- A timer may be looked at so late, in milliseconds, without losing its rhythm. -/
def slack : Nat := 5

/-- **The deadline after one that is looked at now.** -/
def nextDeadline (period deadline now : Nat) : Nat :=
  if deadline + slack < now then now + period else deadline + period

/-- Whether an annotator has reached its end. -/
def hasEnded (a : Annotator) : Bool :=
  a.phase == .ended

/-- **A step of an annotator by its timer**: it ends when shutdown was requested, and when its
deadline has come it makes the timestamp of the current time and asks for the lock. A period of zero
is none, and ends the annotator at once. -/
def advance? (cancelled : Bool) (now : Nat) (time : Instant) (a : Annotator) : Option Annotator :=
  match a.phase with
  | .waiting deadline =>
    if cancelled || a.period == 0 then some { a with phase := .ended }
    else if deadline ≤ now then
      some { a with phase := .queued (nextDeadline a.period deadline now) (.ofInstant time) }
    else none
  | .queued _ _ => none
  | .ended => none

/-- **A bound on the steps left** at a given time: every tick moves the deadline on. -/
def weight (now : Nat) (a : Annotator) : Nat :=
  match a.phase with
  | .waiting deadline => 3 * (now + 1 - deadline) + 1
  | .queued deadline _ => 3 * (now + 1 - deadline) + 2
  | .ended => 0

theorem lt_nextDeadline {period deadline now : Nat} (h : period ≠ 0) :
    deadline < nextDeadline period deadline now := by
  unfold nextDeadline
  split <;> omega

theorem weight_advance?_lt {cancelled : Bool} {now : Nat} {time : Instant} {a a' : Annotator}
    (h : a.advance? cancelled now time = some a') : a'.weight now < a.weight now := by
  unfold advance? at h
  split at h
  · next deadline hphase =>
    split at h
    · cases h
      simp [weight, hphase]
    · next hgo =>
      split at h
      · next hdue =>
        cases h
        have hperiod : a.period ≠ 0 := by
          intro hzero
          simp [hzero] at hgo
        have hlt : deadline < nextDeadline a.period deadline now := lt_nextDeadline hperiod
        simp only [weight, hphase]
        omega
      · cases h
  · cases h
  · cases h

end Annotator

end CommandLog
