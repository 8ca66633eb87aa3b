import CommandLog.Proofs.Lines
import CommandLog.Proofs.Session.History

/-!
# Framing

A session finds the lines of its input however the input is cut into pieces. The whole point is
one invariant, `CommandLog.Session.Framed`: what was received is a list of lines that are dealt
with, followed by bytes that are not. The lines up to the limit were dispatched and the others
counted as dropped; the bytes that are left are in the backlog, unless they are the beginning of a
line that was given up, and then the backlog is empty and the line counts as dropped already.

A line longer than the limit can be dropped in two ways, at once when it is complete and in advance
when it is not. Which one it is depends on the pieces, and the invariant is where the difference
ends: a line given up in advance is counted when it is given up and not again when it is complete.

* `CommandLog.Backlog.next_line` and `CommandLog.Backlog.next_unfinished` – what looking for a line
  does to the bytes held;
* `CommandLog.Session.Framed` and `CommandLog.Session.Framed.step` – **the invariant, kept by every
  step** (`CommandLog.Session.Past.framed` for a whole life);
* `CommandLog.Session.accepted` and `CommandLog.Session.overlong` – what a stream asks for, and how
  many commands of it are dropped, by the stream alone;
* `CommandLog.Session.Framed.quiescent` – **a session that waits for input has dispatched what its
  stream asks for**, and nothing else.
-/

namespace CommandLog

open Bytes (IsLine terminator)

namespace Backlog

/-! ### The bytes held -/

/-- The scanned bytes are what they are said to be. -/
def Clean (b : Backlog) : Prop :=
  terminator ∉ b.scanned

theorem clean_empty : empty.Clean := List.not_mem_nil

theorem clean_abort : abort.Clean := List.not_mem_nil

/-- **A line that is found** is the first one of the bytes held. -/
theorem next_line {b rest : Backlog} {l : Bytes} (hb : b.Clean) (h : b.next = .line l rest) :
    IsLine l ∧ b.bytes = l ++ rest.bytes ∧ rest.Clean ∧ rest.discarding = b.discarding := by
  unfold next at h
  split at h
  · next l' rest' hsplit =>
    obtain ⟨hfresh, -⟩ := Bytes.eq_append_of_splitLine?_eq_some hsplit
    obtain ⟨body, hbody, rfl⟩ := Bytes.isLine_of_splitLine?_eq_some hsplit
    cases h
    refine ⟨⟨b.scanned.reverse ++ body, ?_, ?_⟩, ?_, List.not_mem_nil, rfl⟩
    · rw [List.mem_append, List.mem_reverse, not_or]
      exact ⟨hb, hbody⟩
    · rw [List.reverseAux_eq, List.append_assoc]
    · simp [bytes, hfresh, List.reverseAux_eq]
  · cases h

/-- **When no line is found**, there is none, and the bytes held stay as they are. -/
theorem next_unfinished {b b' : Backlog} (hb : b.Clean) (h : b.next = .unfinished b') :
    terminator ∉ b'.bytes ∧ b'.bytes = b.bytes ∧ b'.Clean ∧ b'.discarding = b.discarding := by
  unfold next at h
  split at h
  · cases h
  · next hsplit =>
    have hfresh := Bytes.splitLine?_eq_none_iff.mp hsplit
    cases h
    refine ⟨?_, ?_, ?_, rfl⟩
    · simpa [bytes, List.reverseAux_eq] using ⟨hb, hfresh⟩
    · simp [bytes, List.reverseAux_eq]
    · change terminator ∉ b.fresh.reverseAux b.scanned
      rw [List.reverseAux_eq, List.mem_append, List.mem_reverse, not_or]
      exact ⟨hfresh, hb⟩

/-- Input is added behind the bytes held, as long as nothing is skipped. -/
theorem ingest_kept {b : Backlog} (h : b.discarding = false) (piece : Bytes) :
    (b.ingest piece).bytes = b.bytes ++ piece ∧ (b.ingest piece).discarding = false ∧
      (b.ingest piece).scanned = b.scanned := by
  simp [ingest, h, bytes]

/-- **Input that is skipped**: all of it when the line goes on, and otherwise up to the end of the
line. -/
theorem ingest_skipped {b : Backlog} (h : b.discarding = true) (piece : Bytes) :
    (terminator ∉ piece ∧ b.ingest piece = b) ∨
      ∃ l rest, IsLine l ∧ piece = l ++ rest ∧ (b.ingest piece).bytes = b.bytes ++ rest ∧
        (b.ingest piece).discarding = false ∧ (b.ingest piece).scanned = b.scanned := by
  unfold ingest
  rw [if_pos h]
  split
  · next hsplit => exact Or.inl ⟨Bytes.splitLine?_eq_none_iff.mp hsplit, rfl⟩
  · next l rest hsplit =>
    obtain ⟨hpiece, -⟩ := Bytes.eq_append_of_splitLine?_eq_some hsplit
    exact Or.inr ⟨l, rest, Bytes.isLine_of_splitLine?_eq_some hsplit, hpiece, by simp [bytes],
      rfl, rfl⟩

end Backlog

namespace Session

/-! ### What a stream asks for -/

/-- **The commands of a stream**: its lines that are not longer than the limit. -/
def accepted (limit : Nat) (stream : Bytes) : List Bytes :=
  stream.lines.filter (·.length ≤ limit)

/-- Number of lines longer than the limit. -/
def excess (limit : Nat) (ls : List Bytes) : Nat :=
  ls.countP (limit < ·.length)

/-- **The number of commands of a stream that are dropped**: its lines longer than the limit, and
the line at its end, though not complete, when that one is longer already. -/
def overlong (limit : Nat) (stream : Bytes) : Nat :=
  excess limit stream.lines + if limit < stream.unterminated.length then 1 else 0

/-- No line is too long when the stream is not. -/
theorem accepted_of_length_le {limit : Nat} {stream : Bytes} (hfits : stream.length ≤ limit) :
    accepted limit stream = stream.lines := by
  refine List.filter_eq_self.mpr fun l hl => decide_eq_true ?_
  have hstream := (Bytes.cut_spec stream).1
  have hle := (List.sublist_flatten_of_mem hl).length_le
  rw [← hstream, List.length_append] at hfits
  omega

@[simp] theorem excess_nil (limit : Nat) : excess limit [] = 0 := rfl

@[simp] theorem excess_append (limit : Nat) (ls ls' : List Bytes) :
    excess limit (ls ++ ls') = excess limit ls + excess limit ls' := by
  simp [excess]

/-! ### The invariant -/

/-- The request that a session has made and that is not carried out yet. -/
def Phase.waiting : Phase → List Request
  | .queued r => [r]
  | _ => []

/-- Whether a session is past its last receive. -/
def Phase.isOver : Phase → Bool
  | .leaving | .signingOff | .ended => true
  | _ => false

/-- **How far a session is with its input**: some lines are dealt with, and some bytes are not. -/
structure Framed (x : Session) (ds : List Deed) (done : List Bytes) (pending : Bytes) : Prop where
  /-- The two make up what was received. -/
  stream : received ds = done.flatten ++ pending
  /-- What is dealt with are whole lines. -/
  isLine : ∀ l ∈ done, IsLine l
  /-- The lines up to the limit were dispatched; the last one may still wait for the lock. -/
  dispatched : requests ds ++ x.phase.waiting =
    (done.filter (·.length ≤ x.limit)).map Request.ofLine
  /-- The other lines were dropped, and so was the line that input is skipped for. -/
  dropped : aborts ds = excess x.limit done + if x.backlog.discarding then 1 else 0
  /-- The scanned part of the backlog holds no terminator. -/
  clean : x.backlog.Clean
  /-- The bytes that are not dealt with are in the backlog. -/
  kept : x.backlog.discarding = false → x.backlog.bytes = pending
  /-- The bytes that are skipped are not, and the line is too long as far as it has come. -/
  skipped : x.backlog.discarding = true →
    x.backlog.bytes = [] ∧ terminator ∉ pending ∧ x.limit < pending.length
  /-- Before a receive, no line is complete and none has grown too long. -/
  quiet : x.phase = .receiving ∨ .inputEnded ∈ ds →
    terminator ∉ x.backlog.bytes ∧ x.backlog.bytes.length ≤ x.limit
  /-- There is no receive after the end of the input. -/
  ended : .inputEnded ∈ ds → x.phase.isOver

variable {x x' : Session} {ds ds' : List Deed} {done : List Bytes} {pending : Bytes}

theorem framed_start (limit : Nat) : Framed { limit } [] [] [] where
  stream := rfl
  isLine := by simp
  dispatched := rfl
  dropped := rfl
  clean := Backlog.clean_empty
  kept _ := rfl
  skipped h := by cases h
  quiet h := by simp at h
  ended h := by cases h

/-- A step that leaves the backlog alone, has nothing to do with receiving and dispatches nothing
keeps the invariant. -/
theorem Framed.of_same_input (h : Framed x ds done pending) (hlimit : x'.limit = x.limit)
    (hbacklog : x'.backlog = x.backlog) (hstream : received ds' = [])
    (hwaiting : requests ds' ++ x'.phase.waiting = x.phase.waiting) (hdropped : aborts ds' = 0)
    (hended : .inputEnded ∉ ds') (hphase : x'.phase ≠ .receiving)
    (hover : x.phase.isOver → x'.phase.isOver) : Framed x' (ds ++ ds') done pending where
  stream := by rw [received_append, hstream, List.append_nil, h.stream]
  isLine := h.isLine
  dispatched := by
    rw [requests_append, List.append_assoc, hwaiting, hlimit]
    exact h.dispatched
  dropped := by rw [aborts_append, hdropped, hlimit, hbacklog, h.dropped, Nat.add_zero]
  clean := hbacklog ▸ h.clean
  kept := hbacklog ▸ h.kept
  skipped := by rw [hbacklog, hlimit]; exact h.skipped
  quiet hquiet := by
    rw [List.mem_append, or_iff_left hended] at hquiet
    rw [hbacklog, hlimit]
    exact h.quiet (hquiet.imp (absurd · hphase) id)
  ended hmem := by
    rw [List.mem_append, or_iff_left hended] at hmem
    exact hover (h.ended hmem)

theorem Framed.inputEnded_notMem (h : Framed x ds done pending) (hover : x.phase.isOver = false) :
    .inputEnded ∉ ds := by
  intro hmem
  rw [h.ended hmem] at hover
  cases hover

theorem Framed.requests_eq (h : Framed x ds done pending) (hwaiting : x.phase.waiting = []) :
    requests ds = (done.filter (·.length ≤ x.limit)).map Request.ofLine := by
  rw [← h.dispatched, hwaiting, List.append_nil]

/-- Nothing is held while input is skipped. -/
theorem Framed.discarding_eq_false (h : Framed x ds done pending) (hne : x.backlog.bytes ≠ []) :
    x.backlog.discarding = false := by
  rw [Bool.eq_false_iff]
  intro hdiscarding
  exact hne (h.skipped hdiscarding).1

/-! ### Looking for a line -/

/-- **A line is found**: it is dealt with, by being dispatched or by being dropped. -/
theorem Framed.take_line (h : Framed x ds done pending) (hphase : x.phase = .framing)
    {l : Bytes} {rest : Backlog} (hnext : x.backlog.next = .line l rest)
    (hwaiting : requests ds' ++ x'.phase.waiting =
      if l.length ≤ x.limit then [Request.ofLine l] else [])
    (hdropped : aborts ds' = if l.length ≤ x.limit then 0 else 1) (hlimit : x'.limit = x.limit)
    (hbacklog : x'.backlog = rest) (hstream : received ds' = []) (hended : .inputEnded ∉ ds')
    (hreceiving : x'.phase ≠ .receiving) :
    Framed x' (ds ++ ds') (done ++ [l]) rest.bytes := by
  obtain ⟨hline, hbytes, hclean, hdiscarding⟩ := Backlog.next_line h.clean hnext
  have hne : x.backlog.bytes ≠ [] := by simp [hbytes, hline.ne_nil]
  -- a line that was found was not skipped
  have hkeeps := h.discarding_eq_false hne
  have hnotOver : .inputEnded ∉ ds ++ ds' := by
    rw [List.mem_append, not_or]
    exact ⟨h.inputEnded_notMem (by rw [hphase]; rfl), hended⟩
  subst hbacklog
  refine ⟨?_, ?_, ?_, ?_, hclean, fun _ => rfl, ?_, ?_, fun hmem => absurd hmem hnotOver⟩
  · rw [received_append, hstream, List.append_nil, h.stream, ← h.kept hkeeps, hbytes,
      List.flatten_append, List.flatten_singleton, List.append_assoc]
  · intro l' hl'
    rcases List.mem_append.mp hl' with hl' | hl'
    · exact h.isLine l' hl'
    · rw [List.mem_singleton.mp hl']
      exact hline
  · rw [requests_append, List.append_assoc, hwaiting, h.requests_eq (by rw [hphase]; rfl), hlimit,
      List.filter_append, List.map_append]
    by_cases hle : l.length ≤ x.limit <;> simp [hle]
  · have hcount : excess x.limit [l] = if l.length ≤ x.limit then 0 else 1 := by
      by_cases hle : l.length ≤ x.limit
      · simp [excess, hle]
      · simp [excess, hle, Nat.lt_of_not_le hle]
    rw [aborts_append, hdropped, h.dropped, hlimit, excess_append, hcount, hdiscarding, hkeeps]
    simp
  · intro hskip
    rw [hdiscarding, hkeeps] at hskip
    cases hskip
  · intro hquiet
    exact absurd hquiet (by simp [hreceiving, hnotOver])

/-- **No line is found, and what is held is too long**: it is given up and counted, and whatever
comes up to the next terminator is skipped. -/
theorem Framed.giveUp (h : Framed x ds done pending) (hphase : x.phase = .framing)
    {b : Backlog} (hnext : x.backlog.next = .unfinished b) (hlong : x.limit < b.size) :
    Framed { x with backlog := .abort, phase := .receiving } (ds ++ [.aborted]) done pending := by
  obtain ⟨hnone, hbytes, -, -⟩ := Backlog.next_unfinished h.clean hnext
  rw [Backlog.size_eq_length_bytes] at hlong
  -- something is held, so it was not skipped before
  have hne : x.backlog.bytes ≠ [] := by
    rw [← hbytes]
    exact List.ne_nil_of_length_pos (Nat.zero_lt_of_lt hlong)
  have hkeeps := h.discarding_eq_false hne
  refine ⟨?_, h.isLine, ?_, ?_, Backlog.clean_abort, ?_, ?_, ?_, ?_⟩
  · rw [received_append, h.stream]
    exact List.append_nil _
  · rw [requests_append, ← h.requests_eq (by rw [hphase]; rfl)]
    simp [requests, Phase.waiting]
  · rw [aborts_append, h.dropped, hkeeps]
    simp [aborts, Backlog.abort]
  · intro hkeep
    cases hkeep
  · rintro -
    rw [← h.kept hkeeps, ← hbytes]
    exact ⟨rfl, hnone, hlong⟩
  · rintro -
    exact ⟨List.not_mem_nil, Nat.zero_le _⟩
  · intro hmem
    exact absurd hmem (by simp [h.inputEnded_notMem (by rw [hphase]; rfl)])

/-- **No line is found yet**: the session goes on to receive, and may still find one. -/
theorem Framed.await (h : Framed x ds done pending) (hphase : x.phase = .framing)
    {b : Backlog} (hnext : x.backlog.next = .unfinished b) (hshort : ¬x.limit < b.size) :
    Framed { x with backlog := b, phase := .receiving } (ds ++ []) done pending := by
  obtain ⟨hnone, hbytes, hclean, hdiscarding⟩ := Backlog.next_unfinished h.clean hnext
  rw [Backlog.size_eq_length_bytes] at hshort
  rw [List.append_nil]
  refine ⟨h.stream, h.isLine, ?_, ?_, hclean, ?_, ?_, ?_, ?_⟩
  · rw [← h.requests_eq (by rw [hphase]; rfl)]
    simp [Phase.waiting]
  · rw [h.dropped, hdiscarding]
  · rw [hdiscarding, hbytes]
    exact h.kept
  · rw [hdiscarding, hbytes]
    exact h.skipped
  · rintro -
    exact ⟨hnone, Nat.le_of_not_lt hshort⟩
  · intro hmem
    exact absurd hmem (h.inputEnded_notMem (by rw [hphase]; rfl))

/-! ### Receiving -/

/-- A receive keeps the invariant when the backlog after it holds what is pending then. -/
theorem Framed.of_received (h : Framed x ds done pending) (hphase : x.phase = .receiving)
    {piece pending' : Bytes} {done' : List Bytes} {b : Backlog} (t : Transport)
    (hstream : done.flatten ++ pending ++ piece = done'.flatten ++ pending')
    (hline : ∀ l ∈ done', IsLine l)
    (haccepted : done'.filter (·.length ≤ x.limit) = done.filter (·.length ≤ x.limit))
    (hdropped : aborts ds = excess x.limit done' + if b.discarding then 1 else 0)
    (hclean : b.Clean) (hkept : b.discarding = false → b.bytes = pending')
    (hskipped : b.discarding = true →
      b.bytes = [] ∧ terminator ∉ pending' ∧ x.limit < pending'.length) :
    Framed { x with transport := t, backlog := b, phase := .framing } (ds ++ [.received piece])
      done' pending' := by
  have hnotOver : .inputEnded ∉ ds ++ [Deed.received piece] := by
    simp [h.inputEnded_notMem (by rw [hphase]; rfl)]
  refine ⟨?_, hline, ?_, ?_, hclean, hkept, hskipped, ?_, fun hmem => absurd hmem hnotOver⟩
  · rw [received_append, h.stream, ← hstream]
    simp [received]
  · rw [requests_append, h.requests_eq (by rw [hphase]; rfl), haccepted]
    simp [requests, Phase.waiting]
  · rw [aborts_append, hdropped]
    simp [aborts]
  · intro hquiet
    exact absurd hquiet (by simp [hnotOver])

/-- **Nothing is skipped**, and the piece goes behind what is held. -/
theorem Framed.receive_kept (h : Framed x ds done pending) (hphase : x.phase = .receiving)
    (hdiscarding : x.backlog.discarding = false) (piece : Bytes) (t : Transport) :
    Framed { x with transport := t, backlog := x.backlog.ingest piece, phase := .framing }
      (ds ++ [.received piece]) done (pending ++ piece) := by
  obtain ⟨hbytes, hkeeps, hscanned⟩ := Backlog.ingest_kept hdiscarding piece
  refine h.of_received hphase t ?_ h.isLine rfl ?_ ?_ ?_ ?_
  · rw [List.append_assoc]
  · rw [h.dropped, hdiscarding, hkeeps]
  · rw [Backlog.Clean, hscanned]
    exact h.clean
  · rintro -
    rw [hbytes, h.kept hdiscarding]
  · intro hskip
    rw [hkeeps] at hskip
    cases hskip

/-- **The line that is skipped goes on**, and all of the piece belongs to it. -/
theorem Framed.receive_skipped (h : Framed x ds done pending) (hphase : x.phase = .receiving)
    (hdiscarding : x.backlog.discarding = true) {piece : Bytes} (hpiece : terminator ∉ piece)
    (t : Transport) :
    Framed { x with transport := t, phase := .framing } (ds ++ [.received piece]) done
      (pending ++ piece) := by
  obtain ⟨hempty, hnone, hlong⟩ := h.skipped hdiscarding
  refine h.of_received hphase t ?_ h.isLine rfl h.dropped h.clean ?_ ?_
  · rw [List.append_assoc]
  · intro hkeep
    rw [hdiscarding] at hkeep
    cases hkeep
  · rintro -
    refine ⟨hempty, ?_, ?_⟩
    · rw [List.mem_append, not_or]
      exact ⟨hnone, hpiece⟩
    · rw [List.length_append]
      exact Nat.lt_of_lt_of_le hlong (Nat.le_add_right _ _)

/-- **The line that is skipped ends inside the piece.** It is too long by what came before, and
counts as dropped already. -/
theorem Framed.receive_rest (h : Framed x ds done pending) (hphase : x.phase = .receiving)
    (hdiscarding : x.backlog.discarding = true) {l rest : Bytes} {b : Backlog} (hl : IsLine l)
    (hbytes : b.bytes = x.backlog.bytes ++ rest) (hkeeps : b.discarding = false)
    (hscanned : b.scanned = x.backlog.scanned) (t : Transport) :
    Framed { x with transport := t, backlog := b, phase := .framing }
      (ds ++ [.received (l ++ rest)]) (done ++ [pending ++ l]) rest := by
  obtain ⟨hempty, hnone, hlong⟩ := h.skipped hdiscarding
  have hlength : ¬(pending ++ l).length ≤ x.limit := by
    rw [List.length_append]
    omega
  refine h.of_received hphase t (by simp) ?_ ?_ ?_ ?_ ?_ ?_
  · intro l' hl'
    rcases List.mem_append.mp hl' with hl' | hl'
    · exact h.isLine l' hl'
    · rw [List.mem_singleton.mp hl']
      exact hl.append_left hnone
  · rw [List.filter_append, List.filter_cons_of_neg (by simpa using hlength), List.filter_nil,
      List.append_nil]
  · have hexcess : excess x.limit [pending ++ l] = 1 :=
      List.countP_cons_of_pos (by simpa using hlength)
    rw [h.dropped, hdiscarding, hkeeps, excess_append, hexcess]
    rfl
  · rw [Backlog.Clean, hscanned]
    exact h.clean
  · rintro -
    rw [hbytes, hempty, List.nil_append]
  · intro hskip
    rw [hkeeps] at hskip
    cases hskip

/-- **A piece of input**: it goes to the backlog, except for what belongs to the line that is
skipped. -/
theorem Framed.receive (h : Framed x ds done pending) (hphase : x.phase = .receiving)
    (piece : Bytes) (t : Transport) :
    ∃ done' pending',
      Framed { x with transport := t, backlog := x.backlog.ingest piece, phase := .framing }
        (ds ++ [.received piece]) done' pending' := by
  cases hdiscarding : x.backlog.discarding with
  | false => exact ⟨_, _, h.receive_kept hphase hdiscarding piece t⟩
  | true =>
    rcases Backlog.ingest_skipped hdiscarding piece with
      ⟨hpiece, hsame⟩ | ⟨l, rest, hl, rfl, hbytes, hkeeps, hscanned⟩
    · rw [hsame]
      exact ⟨_, _, h.receive_skipped hphase hdiscarding hpiece t⟩
    · exact ⟨_, _, h.receive_rest hphase hdiscarding hl hbytes hkeeps hscanned t⟩

/-- **The input is found at an end**, and the session leaves. -/
theorem Framed.endInput (h : Framed x ds done pending) (hphase : x.phase = .receiving)
    (t : Transport) :
    Framed { x with transport := t, phase := .leaving } (ds ++ [.inputEnded]) done pending := by
  have hquiet := h.quiet (.inl hphase)
  refine ⟨?_, h.isLine, ?_, ?_, h.clean, h.kept, h.skipped, fun _ => hquiet, fun _ => rfl⟩
  · rw [received_append, h.stream]
    exact List.append_nil _
  · rw [requests_append, ← h.requests_eq (by rw [hphase]; rfl)]
    simp [requests, Phase.waiting]
  · rw [aborts_append, h.dropped]
    rfl

/-! ### A whole life -/

/-- **Whatever a session does by itself** keeps the invariant. -/
theorem Framed.act (h : Framed x ds done pending) {cancelled : Bool} {e : Effect}
    (hact : x.Act cancelled e ds' x') : ∃ done' pending', Framed x' (ds ++ ds') done' pending' := by
  cases hact with
  | drop hphase hnext hlong =>
    refine ⟨_, _, h.take_line hphase hnext ?_ ?_ rfl rfl rfl (by simp) (by simp [hphase])⟩
    · simp [hphase, Phase.waiting, requests, hlong]
    · simp [aborts, hlong]
  | ask hphase hnext hshort =>
    have hle := Nat.le_of_not_lt hshort
    refine ⟨_, _, h.take_line hphase hnext ?_ ?_ rfl rfl rfl (by simp) (by simp)⟩
    · simp [Phase.waiting, hle]
    · simp [hle]
  | giveUp hphase hnext hlong => exact ⟨_, _, h.giveUp hphase hnext hlong⟩
  | await hphase hnext hshort => exact ⟨_, _, h.await hphase hnext hshort⟩
  | receive hphase _ => exact h.receive hphase _ _
  | @send output left t hphase _ =>
    refine ⟨_, _, h.of_same_input rfl rfl rfl ?_ rfl (by simp) ?_ ?_⟩
    · rw [hphase]
      cases left <;> rfl
    · cases left <;> simp
    · intro hover
      rw [hphase] at hover
      cases hover
  | leaveAtEnd hphase _ => exact ⟨_, _, h.endInput hphase _⟩
  | leaveBroken hphase | leaveWaiting hphase | leaveBlocked hphase | shutDown hphase
  | signOff hphase =>
    exact ⟨_, _, h.of_same_input rfl rfl rfl (by rw [hphase]; rfl) rfl (by simp) (by simp)
      fun _ => rfl⟩

theorem Framed.served (h : Framed x ds done pending) {r : Request} (hphase : x.phase = .queued r)
    (answer : Option Bytes) :
    Framed (x.answered answer) (ds ++ [.served r answer]) done pending := by
  have hphase' : (x.answered answer).phase.waiting = [] ∧
      (x.answered answer).phase ≠ .receiving := by
    cases answer <;> exact ⟨rfl, by simp [answered]⟩
  refine h.of_same_input ?_ ?_ rfl ?_ rfl (by simp) hphase'.2 ?_
  · cases answer <;> rfl
  · cases answer <;> rfl
  · rw [hphase'.1, hphase]
    rfl
  · intro hover
    rw [hphase] at hover
    cases hover

/-- **Every step keeps the invariant**, for some more lines that are dealt with. -/
theorem Framed.step (h : Framed x ds done pending) (hstep : Step x ds' x') :
    ∃ done' pending', Framed x' (ds ++ ds') done' pending' := by
  cases hstep with
  | own hadvance => exact h.act (act_of_advance? hadvance)
  | served hphase answer => exact ⟨done, pending, h.served hphase answer⟩
  | outside _ =>
    rw [List.append_nil]
    exact ⟨done, pending, ⟨h.stream, h.isLine, h.dispatched, h.dropped, h.clean, h.kept, h.skipped,
      h.quiet, h.ended⟩⟩

theorem Steps.framed (hsteps : Steps x ds' x') (h : Framed x ds done pending) :
    ∃ done' pending', Framed x' (ds ++ ds') done' pending' := by
  induction hsteps with
  | refl =>
    rw [List.append_nil]
    exact ⟨done, pending, h⟩
  | step _ hstep ih =>
    obtain ⟨_, _, hframed⟩ := ih
    rw [← List.append_assoc]
    exact hframed.step hstep

theorem Past.framed {limit : Nat} (h : Past limit ds x) : ∃ done pending, Framed x ds done pending :=
  h.steps.framed (framed_start limit)

/-! ### What the invariant says of a stream -/

/-- **The requests carried out are the first ones that the stream asks for**, at every moment. -/
theorem Framed.requests_prefix_accepted (h : Framed x ds done pending) :
    requests ds <+: (accepted x.limit (received ds)).map Request.ofLine := by
  rw [accepted, h.stream, Bytes.lines_flatten_append h.isLine, List.filter_append, List.map_append,
    ← h.dispatched, List.append_assoc]
  exact List.prefix_append _ _

/-- **The bytes that are not dealt with hold no terminator**, whether they are kept or skipped, and
they are skipped just when there are too many of them. -/
theorem Framed.unfinished (h : Framed x ds done pending)
    (hquiet : x.phase = .receiving ∨ .inputEnded ∈ ds) :
    terminator ∉ pending ∧ (x.limit < pending.length ↔ x.backlog.discarding = true) := by
  obtain ⟨hnone, hshort⟩ := h.quiet hquiet
  cases hdiscarding : x.backlog.discarding with
  | false =>
    rw [← h.kept hdiscarding]
    exact ⟨hnone, by simp [Nat.not_lt.mpr hshort]⟩
  | true =>
    obtain ⟨-, hskipped, hlong⟩ := h.skipped hdiscarding
    exact ⟨hskipped, by simp [hlong]⟩

/-- **A session that waits for input, or has come to the end of it, has dispatched what its stream
asks for**, and has counted every command of the stream that is too long. -/
theorem Framed.quiescent (h : Framed x ds done pending)
    (hquiet : x.phase = .receiving ∨ .inputEnded ∈ ds) :
    requests ds = (accepted x.limit (received ds)).map Request.ofLine ∧
      aborts ds = overlong x.limit (received ds) := by
  have hwaiting : x.phase.waiting = [] := by
    rcases hquiet with hphase | hended
    · rw [hphase]
      rfl
    · have hover := h.ended hended
      revert hover
      cases x.phase <;> simp [Phase.isOver, Phase.waiting]
  obtain ⟨hnone, hskips⟩ := h.unfinished hquiet
  obtain ⟨hlines, hrest⟩ := Bytes.lines_eq h.stream h.isLine hnone
  constructor
  · rw [accepted, hlines, h.requests_eq hwaiting]
  · rw [overlong, hlines, hrest, h.dropped]
    simp only [hskips]

/-- **Behind whole lines nothing is held**, and nothing is skipped. -/
theorem Framed.nothing_held (h : Framed x ds done pending) (hphase : x.phase = .receiving)
    (hwhole : (received ds).unterminated = []) :
    x.backlog.bytes = [] ∧ x.backlog.discarding = false := by
  obtain ⟨hnone, hskips⟩ := h.unfinished (.inl hphase)
  obtain ⟨-, hrest⟩ := Bytes.lines_eq h.stream h.isLine hnone
  rw [hwhole] at hrest
  have hkeeps : x.backlog.discarding = false := by
    rw [Bool.eq_false_iff, ne_eq, ← hskips, ← hrest]
    exact Nat.not_lt_zero _
  exact ⟨(h.kept hkeeps).trans hrest.symm, hkeeps⟩

end Session

end CommandLog
