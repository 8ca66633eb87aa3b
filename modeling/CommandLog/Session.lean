import CommandLog.Command
import CommandLog.Session.Backlog
import CommandLog.Session.Transport

/-!
# Sessions

A session serves one connection. It frames its input into lines, has each line carried out under
the engine's lock, sends the answer, and goes on with its input:

```text
framing -> queued -> sending -> framing -> ... -> receiving -> framing
                        |                             |
                        +--> leaving -> signingOff <--+
                                          |
                                        ended
```

* `CommandLog.Session.Phase` – where a session stands;
* `CommandLog.Session` – a session: its phase, its backlog, its transport and its size limit;
* `CommandLog.Request` – what a line asks of the engine. A malformed control line asks for
  nothing, but it takes its turn as well;
* `CommandLog.Session.advance?` – **one step of a session by itself**. A session that waits for
  the lock, for input or for its peer has no such step;
* `CommandLog.Session.answered` – a session after its request was carried out;
* `CommandLog.Session.weight` – how many steps a session can still take by itself, at most.

A line longer than the limit is dropped, whether it is complete or still growing; a growing one
is given up as soon as it exceeds the limit, and the rest of it is skipped.

Shutdown is noticed in two places only: before a receive, and while the peer takes no output. So
complete lines that have arrived are still carried out, and an answer is only given up when it
cannot be sent.
-/

namespace CommandLog

/-- What a line asks of the engine. -/
inductive Request where
  /-- To store the line. -/
  | append (line : Bytes)
  /-- To answer from a position in the log. -/
  | seek (index offset : UInt32)
  /-- Nothing: the line was a malformed control line. -/
  | rejected
deriving DecidableEq, Repr

/-- What a complete line asks for. -/
def Request.ofLine (line : Bytes) : Request :=
  match Command.parse line with
  | .ok (.write line) => .append line
  | .ok (.seek index offset) => .seek index offset
  | .error .malformedSeek => .rejected

/-- Where a session stands. -/
inductive Session.Phase where
  /-- About to look for the next complete line. -/
  | framing
  /-- Without a complete line, waiting for input. -/
  | receiving
  /-- With a request, waiting for the engine's lock. -/
  | queued (request : Request)
  /-- With output that is still to be sent. -/
  | sending (left : Bytes)
  /-- About to shut its transport down. -/
  | leaving
  /-- About to report its completion. -/
  | signingOff
  /-- Done. -/
  | ended
deriving DecidableEq, Repr

/-- A session. -/
structure Session where
  /-- Length, in bytes, of the longest command that is accepted. -/
  limit : Nat
  /-- Where the session stands. -/
  phase : Session.Phase := .framing
  /-- Input received and not dealt with yet. -/
  backlog : Backlog := .empty
  /-- The session's end of the connection. -/
  transport : Transport := {}
deriving Repr

instance : Inhabited Session := ⟨{ limit := 0 }⟩

namespace Session

/-- What a session's own step means to its surroundings. -/
inductive Effect where
  /-- Nothing. -/
  | none
  /-- A command was dropped for its size. -/
  | commandAborted
  /-- The session asks for the engine's lock. -/
  | lockRequested
  /-- The session reports its completion. -/
  | completed
deriving DecidableEq, Repr

/-- Looks for the next complete line. -/
def frame (s : Session) : Effect × Session :=
  match s.backlog.next with
  | .line line rest =>
    if s.limit < line.length then (.commandAborted, { s with backlog := rest })
    else (.lockRequested, { s with backlog := rest, phase := .queued (.ofLine line) })
  | .unfinished b =>
    if s.limit < b.size then (.commandAborted, { s with backlog := .abort, phase := .receiving })
    else (.none, { s with backlog := b, phase := .receiving })

/-- Receives input, unless shutdown was requested. -/
def receive? (cancelled : Bool) (s : Session) : Option (Effect × Session) :=
  if cancelled then some (.none, { s with phase := .leaving })
  else
    match s.transport.receive with
    | (.piece bytes, transport) =>
      some (.none, { s with transport, backlog := s.backlog.ingest bytes, phase := .framing })
    | (.over, transport) => some (.none, { s with transport, phase := .leaving })
    | (.nothing, _) => none

/-- Sends output; shutdown is only noticed when the peer takes none. -/
def send? (cancelled : Bool) (s : Session) (left : Bytes) : Option (Effect × Session) :=
  match s.transport.send left with
  | (.progress [], transport) => some (.none, { s with transport, phase := .framing })
  | (.progress left, transport) => some (.none, { s with transport, phase := .sending left })
  | (.failed, transport) => some (.none, { s with transport, phase := .leaving })
  | (.blocked, _) => if cancelled then some (.none, { s with phase := .leaving }) else none

/-- **One step of a session by itself**, if it has one. -/
def advance? (cancelled : Bool) (s : Session) : Option (Effect × Session) :=
  match s.phase with
  | .framing => some s.frame
  | .receiving => s.receive? cancelled
  | .queued _ => none
  | .sending left => s.send? cancelled left
  | .leaving => some (.none, { s with transport := s.transport.shutdown, phase := .signingOff })
  | .signingOff => some (.completed, { s with phase := .ended })
  | .ended => none

/-- The session after its request was carried out: with an answer to send, or back to framing. -/
def answered (s : Session) (answer : Option Bytes) : Session :=
  match answer with
  | some bytes => { s with phase := .sending bytes }
  | none => { s with phase := .framing }

/-- Whether a session has reached its end. -/
def hasEnded (s : Session) : Bool :=
  s.phase == .ended

/-! ### Sessions come to rest -/

/-- The weight of a phase. Sending weighs more as long as the peer has room, since output that is
taken in part is followed by a step that finds no room. -/
def phaseWeight (s : Session) : Nat :=
  match s.phase with
  | .queued _ => 7
  | .sending _ => if s.transport.room = some 0 then 5 else 6
  | .framing => 4
  | .receiving => 3
  | .leaving => 2
  | .signingOff => 1
  | .ended => 0

/-- **A bound on the steps left.** A byte weighs more before it is received than after, and more
than all phases together while it is in the backlog. -/
def weight (s : Session) : Nat :=
  8 * s.transport.backlogSize + 5 * s.backlog.size + s.phaseWeight

theorem backlogSize_receive_over {t t' : Transport} (h : t.receive = (.over, t')) :
    t'.backlogSize ≤ t.backlogSize := by
  unfold Transport.receive at h
  split at h
  · next hin =>
    split at h
    · cases h
      simp [Transport.backlogSize, hin]
    · cases h
  · split at h
    · cases h; exact Nat.le_refl _
    · cases h

theorem backlogSize_send {t t' : Transport} {output : Bytes} {r : Transport.Sent}
    (h : t.send output = (r, t')) : t'.backlogSize = t.backlogSize := by
  unfold Transport.send at h
  split at h
  · cases h; rfl
  · split at h
    · cases h; rfl
    · split at h <;> cases h <;> rfl

theorem weight_frame_lt {s : Session} (h : s.phase = .framing) : s.frame.2.weight < s.weight := by
  unfold frame
  split
  · next hnext =>
    have hsize := Backlog.size_lt_of_next_eq_line hnext
    split
    · simp only [weight, phaseWeight, h]
      omega
    · simp only [weight, phaseWeight, h]
      omega
  · next hnext =>
    have hsize := Backlog.size_eq_of_next_eq_unfinished hnext
    split
    · simp only [weight, phaseWeight, h, Backlog.size_abort]
      omega
    · simp only [weight, phaseWeight, h, hsize]
      omega

theorem weight_receive?_lt {cancelled : Bool} {s s' : Session} {e : Effect}
    (hphase : s.phase = .receiving) (h : s.receive? cancelled = some (e, s')) :
    s'.weight < s.weight := by
  unfold receive? at h
  split at h
  · cases h
    simp [weight, phaseWeight, hphase]
  · split at h
    · next bytes transport hreceive =>
      cases h
      obtain ⟨hpos, hsum⟩ := Transport.backlogSize_receive_piece hreceive
      have hingest := Backlog.size_ingest_le s.backlog bytes
      simp only [weight, phaseWeight, hphase]
      omega
    · next hreceive =>
      cases h
      have hle := backlogSize_receive_over hreceive
      simp only [weight, phaseWeight, hphase]
      omega
    · cases h

theorem weight_send?_lt {cancelled : Bool} {s s' : Session} {e : Effect} {left : Bytes}
    (hphase : s.phase = .sending left) (h : s.send? cancelled left = some (e, s')) :
    s'.weight < s.weight := by
  have hheavy : 5 ≤ s.phaseWeight := by
    simp only [phaseWeight, hphase]
    split <;> omega
  unfold send? at h
  split at h
  · next hsend =>
    cases h
    have hsize := backlogSize_send hsend
    simp only [weight, hsize] at hheavy ⊢
    simp only [phaseWeight] at hheavy ⊢
    omega
  · next left' transport hne hsend =>
    cases h
    have hsize := backlogSize_send hsend
    obtain ⟨hroom, hroom'⟩ := Transport.room_of_send_progress hsend (fun h => hne h)
    simp only [weight, hsize, phaseWeight, hphase, hroom, hroom', if_true, if_false]
    omega
  · next hsend =>
    cases h
    have hsize := backlogSize_send hsend
    simp only [weight, hsize] at hheavy ⊢
    simp only [phaseWeight] at hheavy ⊢
    omega
  · split at h
    · cases h
      simp only [weight] at hheavy ⊢
      simp only [phaseWeight] at hheavy ⊢
      omega
    · cases h

/-- **Every step of a session by itself makes it lighter**, so it comes to rest. -/
theorem weight_advance?_lt {cancelled : Bool} {s s' : Session} {e : Effect}
    (h : s.advance? cancelled = some (e, s')) : s'.weight < s.weight := by
  unfold advance? at h
  split at h
  · next hphase =>
    have hlt := weight_frame_lt hphase
    rw [Option.some.injEq] at h
    rw [h] at hlt
    exact hlt
  · next hphase => exact weight_receive?_lt hphase h
  · cases h
  · next hphase => exact weight_send?_lt hphase h
  · next hphase =>
    cases h
    simp [weight, phaseWeight, hphase, Transport.shutdown, Transport.backlogSize]
  · next hphase =>
    cases h
    simp [weight, phaseWeight, hphase]
  · cases h

/-- Carrying out a request makes a session lighter as well. -/
theorem weight_answered_lt {s : Session} {r : Request} (h : s.phase = .queued r)
    (answer : Option Bytes) : (s.answered answer).weight < s.weight := by
  cases answer with
  | none => simp [answered, weight, phaseWeight, h]
  | some bytes =>
    by_cases hroom : s.transport.room = some 0 <;> simp [answered, weight, phaseWeight, h, hroom]

end Session

end CommandLog
