import CommandLog.Bytes
import CommandLog.Total

/-!
# The transport of a session

A transport is one end of a connection, seen from the session that serves it: pieces of input
that have arrived, what comes after them, and how much output the peer takes.

* `CommandLog.Transport.deliver` – a piece of input arrives;
* `CommandLog.Transport.receive` – the next piece of input, at most
  `CommandLog.Transport.receiveLimit` bytes of it;
* `CommandLog.Transport.send` – as much output as the peer takes now;
* `CommandLog.Transport.shutdown` – the end of the output.

What was sent stays on record, piece by piece, as does the number of shutdowns.
-/

namespace CommandLog

/-- What follows the input that has arrived. -/
inductive Transport.Ending where
  /-- The peer has closed its side. -/
  | closed
  /-- Receiving fails. -/
  | broken
deriving DecidableEq, Repr

/-- One end of a connection. -/
structure Transport where
  /-- Pieces of input, the next one first. -/
  inbound : List Bytes := []
  /-- What follows them; nothing is known to follow otherwise. -/
  ending : Option Transport.Ending := none
  /-- Whether sending and shutting down fail. -/
  outputBroken : Bool := false
  /-- Number of bytes that the peer takes before it blocks the sender; without one it takes
  everything. -/
  room : Option Nat := none
  /-- The pieces of output sent, the latest one first. -/
  delivered : List Bytes := []
  /-- How often the output was shut down. -/
  shutdowns : Nat := 0
deriving DecidableEq, Repr, Inhabited

namespace Transport

/-- A piece of input arrives. A piece without bytes is none. -/
def deliver (t : Transport) (piece : Bytes) : Transport :=
  if piece.isEmpty then t else { t with inbound := t.inbound ++ [piece] }

/-- Number of bytes that one receive gives at most. -/
def receiveLimit : Nat := 1024

/-- Pieces of input with what is left of the first one put back at the front. -/
def requeue (left : Bytes) (rest : List Bytes) : List Bytes :=
  if left.isEmpty then rest else left :: rest

/-- The outcome of a receive. -/
inductive Received where
  /-- A piece of input. -/
  | piece (bytes : Bytes)
  /-- The end of the input, be it in order or by a failure. -/
  | over
  /-- Nothing yet. -/
  | nothing

/-- **The next piece of input.** A piece without bytes is taken for the end of the input. -/
def receive (t : Transport) : Received × Transport :=
  match t.inbound with
  | p :: rest =>
    if p.isEmpty then (.over, { t with inbound := rest })
    else
      (.piece (p.take receiveLimit), { t with inbound := requeue (p.drop receiveLimit) rest })
  | [] => (if t.ending.isSome then .over else .nothing, t)

/-- The outcome of a send. -/
inductive Sent where
  /-- The peer took output; these bytes are still to be sent. -/
  | progress (left : Bytes)
  /-- The peer takes nothing now. -/
  | blocked
  /-- Sending fails. -/
  | failed

/-- **As much output as the peer takes now.** -/
def send (t : Transport) (output : Bytes) : Sent × Transport :=
  if output.isEmpty then (.progress [], t)
  else if t.outputBroken then (.failed, t)
  else
    match t.room with
    | none => (.progress [], { t with delivered := output :: t.delivered })
    | some 0 => (.blocked, t)
    | some room =>
      (.progress (output.drop room),
        { t with
          delivered := output.take room :: t.delivered
          room := some (room - output.length) })

/-- The end of the output. It counts even when it fails. -/
def shutdown (t : Transport) : Transport :=
  { t with shutdowns := t.shutdowns + 1 }

/-- All bytes sent so far. -/
def output (t : Transport) : Bytes :=
  t.delivered.reverse.flatten

/-- Number of bytes that have arrived and were not received. -/
def backlogSize (t : Transport) : Nat :=
  total (t.inbound.map List.length)

/-! ### Laws -/

theorem total_requeue (left : Bytes) (rest : List Bytes) :
    total ((requeue left rest).map List.length) = left.length + total (rest.map List.length) := by
  unfold requeue
  split
  · next h => simp [List.isEmpty_iff.1 h]
  · simp

/-- Receiving takes from what has arrived. -/
theorem backlogSize_receive_piece {t t' : Transport} {bytes : Bytes}
    (h : t.receive = (.piece bytes, t')) :
    0 < bytes.length ∧ t'.backlogSize + bytes.length = t.backlogSize := by
  unfold receive at h
  split at h
  · next p rest hin =>
    split at h
    · cases h
    · next hp =>
      have hpos : 0 < p.length := by
        simpa [List.isEmpty_iff, List.length_pos_iff] using hp
      obtain ⟨hb, rfl⟩ := Prod.mk.inj h
      cases hb
      simp only [backlogSize, hin, total_requeue, List.map_cons, total_cons, List.length_take,
        List.length_drop, receiveLimit]
      omega
  · split at h <;> cases h

/-- Output that is only taken in part leaves no room. -/
theorem room_of_send_progress {t t' : Transport} {output left : Bytes}
    (h : t.send output = (.progress left, t')) (hleft : left ≠ []) :
    t.room ≠ some 0 ∧ t'.room = some 0 := by
  unfold send at h
  split at h
  · cases h; exact absurd rfl hleft
  · split at h
    · cases h
    · split at h
      · cases h; exact absurd rfl hleft
      · cases h
      · next room hroom hne =>
        cases h
        have hlen : room < output.length := by
          rcases Nat.lt_or_ge room output.length with hlt | hge
          · exact hlt
          · exact absurd (List.drop_eq_nil_of_le hge) hleft
        refine ⟨by simpa [hne] using hroom, ?_⟩
        simp only [Option.some.injEq]
        omega

end Transport

end CommandLog
