import CommandLog.Session

/-!
# What a session has done

A session keeps neither what it has received nor what it has asked for. To state what it does over
time, its steps are written down as they happen:

* `CommandLog.Session.Deed` – one thing that a session did, or that was done for it;
* `CommandLog.Session.deeds` – the deeds of a step that a session takes by itself;
* `CommandLog.Session.Step` – **one step in the life of a session**, with its deeds: a step by
  itself, its request carried out, or a change of its transport from outside;
* `CommandLog.Session.Past` – a session with everything it has done since it was started, and
  `CommandLog.Session.Steps`, which starts from any session;
* `CommandLog.Session.Act` – **everything that a session can do by itself**, with
  `CommandLog.Session.act_of_advance?`.

What a list of deeds amounts to is read off it: the bytes received
(`CommandLog.Session.received`), the requests carried out (`CommandLog.Session.requests`), the
answers given (`CommandLog.Session.replies`) and the number of commands dropped
(`CommandLog.Session.aborts`). None of these is a part of the session, so that nothing that a
session does can depend on them.
-/

namespace CommandLog

/-- What the peer, or whoever else is outside, does to a transport. -/
inductive Transport.Outside : Transport → Transport → Prop where
  /-- A piece of input arrives. -/
  | deliver (t : Transport) (piece : Bytes) : Outside t (t.deliver piece)
  /-- The input comes to an end behind what has arrived. -/
  | endInput (t : Transport) (ending : Ending) : Outside t { t with ending := some ending }
  /-- Sending begins to fail. -/
  | breakOutput (t : Transport) : Outside t { t with outputBroken := true }
  /-- The peer takes so much output from now on. -/
  | allow (t : Transport) (room : Option Nat) : Outside t { t with room }

namespace Session

/-- One thing that a session did, or that was done for it. -/
inductive Deed where
  /-- It received a piece of input. -/
  | received (piece : Bytes)
  /-- It found its input at an end. -/
  | inputEnded
  /-- It dropped a command for its size. -/
  | aborted
  /-- Its request was carried out under the lock, with this answer if there was one. -/
  | served (request : Request) (answer : Option Bytes)
  /-- It sent these bytes. -/
  | sent (bytes : Bytes)
  /-- It shut its transport down. -/
  | shutDown
  /-- It reported its completion. -/
  | completed
deriving DecidableEq, Repr

/-- The deeds of a receive with the given outcome. -/
def receiptDeeds : Transport.Received → List Deed
  | .piece bytes => [.received bytes]
  | .over => [.inputEnded]
  | .nothing => []

/-- The deeds of a send with the given outcome. -/
def sendDeeds (output : Bytes) : Transport.Sent → List Deed
  | .progress left => [.sent (output.take (output.length - left.length))]
  | .blocked => []
  | .failed => []

/-- **The deeds of a step that a session takes by itself.** -/
def deeds (cancelled : Bool) (x : Session) : List Deed :=
  match x.phase with
  | .framing => if x.frame.1 = .commandAborted then [.aborted] else []
  | .receiving => if cancelled then [] else receiptDeeds x.transport.receive.1
  | .sending left => sendDeeds left (x.transport.send left).1
  | .leaving => [.shutDown]
  | .signingOff => [.completed]
  | .queued _ => []
  | .ended => []

/-- **One step in the life of a session**, with its deeds. -/
inductive Step : Session → List Deed → Session → Prop where
  /-- It takes a step by itself. -/
  | own {cancelled : Bool} {x x' : Session} {e : Effect} (h : x.advance? cancelled = some (e, x')) :
    Step x (x.deeds cancelled) x'
  /-- Its request is carried out. -/
  | served {x : Session} {r : Request} (h : x.phase = .queued r) (answer : Option Bytes) :
    Step x [.served r answer] (x.answered answer)
  /-- Something happens to its transport. -/
  | outside {x : Session} {t : Transport} (h : x.transport.Outside t) :
    Step x [] { x with transport := t }

/-- **A session with its past**, from its start with the given size limit on. -/
inductive Past (limit : Nat) : List Deed → Session → Prop where
  /-- It has just been started. -/
  | start : Past limit [] { limit }
  /-- One step further. -/
  | step {ds ds' : List Deed} {x x' : Session} (h : Past limit ds x) (hstep : Step x ds' x') :
    Past limit (ds ++ ds') x'

/-- **A session that goes on**, with everything it does meanwhile. -/
inductive Steps (x : Session) : List Deed → Session → Prop where
  /-- It has not gone on yet. -/
  | refl : Steps x [] x
  /-- One step further. -/
  | step {ds ds' : List Deed} {y y' : Session} (h : Steps x ds y) (hstep : Step y ds' y') :
    Steps x (ds ++ ds') y'

theorem Past.steps {limit : Nat} {ds : List Deed} {x : Session} (h : Past limit ds x) :
    Steps { limit } ds x := by
  induction h with
  | start => exact .refl
  | step _ hstep ih => exact ih.step hstep

theorem Past.trans {limit : Nat} {ds ds' : List Deed} {x y : Session} (h : Past limit ds x)
    (h' : Steps x ds' y) : Past limit (ds ++ ds') y := by
  induction h' with
  | refl =>
    rw [List.append_nil]
    exact h
  | step _ hstep ih =>
    rw [← List.append_assoc]
    exact ih.step hstep

/-! ### What deeds amount to -/

/-- The input received. -/
def received (ds : List Deed) : Bytes :=
  (ds.filterMap fun | .received piece => some piece | _ => none).flatten

/-- The requests carried out, in order. -/
def requests (ds : List Deed) : List Request :=
  ds.filterMap fun | .served request _ => some request | _ => none

/-- The answers given, in order. -/
def replies (ds : List Deed) : List Bytes :=
  ds.filterMap fun | .served _ (some answer) => some answer | _ => none

/-- Number of commands dropped. -/
def aborts (ds : List Deed) : Nat :=
  ds.count .aborted

variable (ds ds' : List Deed)

@[simp] theorem received_nil : received [] = [] := rfl

@[simp] theorem received_append : received (ds ++ ds') = received ds ++ received ds' := by
  simp [received]

@[simp] theorem requests_nil : requests [] = [] := rfl

@[simp] theorem requests_append : requests (ds ++ ds') = requests ds ++ requests ds' := by
  simp [requests]

@[simp] theorem replies_nil : replies [] = [] := rfl

@[simp] theorem replies_append : replies (ds ++ ds') = replies ds ++ replies ds' := by
  simp [replies]

@[simp] theorem aborts_nil : aborts [] = 0 := rfl

@[simp] theorem aborts_append : aborts (ds ++ ds') = aborts ds + aborts ds' := by
  simp [aborts]

/-! ### The steps that a session takes by itself -/

/-- **What a session can do by itself**, with its effect and its deeds. A session that leaves does
so for one of four reasons. -/
inductive Act (cancelled : Bool) (x : Session) : Effect → List Deed → Session → Prop where
  /-- It has found a line that is too long. -/
  | drop {line : Bytes} {rest : Backlog} (hphase : x.phase = .framing)
    (hnext : x.backlog.next = .line line rest) (hlong : x.limit < line.length) :
    Act cancelled x .commandAborted [.aborted] { x with backlog := rest }
  /-- It has found another line. -/
  | ask {line : Bytes} {rest : Backlog} (hphase : x.phase = .framing)
    (hnext : x.backlog.next = .line line rest) (hshort : ¬x.limit < line.length) :
    Act cancelled x .lockRequested [] { x with backlog := rest, phase := .queued (.ofLine line) }
  /-- It has found no line, and what it holds is too long already. -/
  | giveUp {b : Backlog} (hphase : x.phase = .framing) (hnext : x.backlog.next = .unfinished b)
    (hlong : x.limit < b.size) :
    Act cancelled x .commandAborted [.aborted] { x with backlog := .abort, phase := .receiving }
  /-- It has found no line, and goes on to receive. -/
  | await {b : Backlog} (hphase : x.phase = .framing) (hnext : x.backlog.next = .unfinished b)
    (hshort : ¬x.limit < b.size) :
    Act cancelled x .none [] { x with backlog := b, phase := .receiving }
  /-- It receives. -/
  | receive {piece : Bytes} {t : Transport} (hphase : x.phase = .receiving)
    (hreceive : x.transport.receive = (.piece piece, t)) :
    Act cancelled x .none [.received piece]
      { x with transport := t, backlog := x.backlog.ingest piece, phase := .framing }
  /-- It sends. -/
  | send {output left : Bytes} {t : Transport} (hphase : x.phase = .sending output)
    (hsend : x.transport.send output = (.progress left, t)) :
    Act cancelled x .none [.sent (output.take (output.length - left.length))]
      { x with transport := t, phase := if left.isEmpty then .framing else .sending left }
  /-- It leaves, because there is no more input. -/
  | leaveAtEnd {t : Transport} (hphase : x.phase = .receiving)
    (hreceive : x.transport.receive = (.over, t)) :
    Act cancelled x .none [.inputEnded] { x with transport := t, phase := .leaving }
  /-- It leaves, because sending fails. -/
  | leaveBroken {output : Bytes} {t : Transport} (hphase : x.phase = .sending output)
    (hsend : x.transport.send output = (.failed, t)) :
    Act cancelled x .none [] { x with transport := t, phase := .leaving }
  /-- It leaves, because shutdown was requested while it waits for input. -/
  | leaveWaiting (hphase : x.phase = .receiving) (hcancelled : cancelled = true) :
    Act cancelled x .none [] { x with phase := .leaving }
  /-- It leaves, because shutdown was requested while its peer takes nothing. -/
  | leaveBlocked {output : Bytes} {t : Transport} (hphase : x.phase = .sending output)
    (hsend : x.transport.send output = (.blocked, t)) (hcancelled : cancelled = true) :
    Act cancelled x .none [] { x with phase := .leaving }
  /-- It shuts its transport down. -/
  | shutDown (hphase : x.phase = .leaving) :
    Act cancelled x .none [.shutDown]
      { x with transport := x.transport.shutdown, phase := .signingOff }
  /-- It reports its completion. -/
  | signOff (hphase : x.phase = .signingOff) :
    Act cancelled x .completed [.completed] { x with phase := .ended }

variable {cancelled : Bool} {x x' : Session} {e : Effect}

theorem act_of_frame (hphase : x.phase = .framing) :
    x.Act cancelled x.frame.1 (if x.frame.1 = .commandAborted then [.aborted] else []) x.frame.2 := by
  rw [frame]
  rcases hnext : x.backlog.next with ⟨line, rest⟩ | b
  · by_cases hlong : x.limit < line.length
    · simp only [if_pos hlong]
      exact .drop hphase hnext hlong
    · simp only [if_neg hlong]
      exact .ask hphase hnext hlong
  · by_cases hlong : x.limit < b.size
    · simp only [if_pos hlong]
      exact .giveUp hphase hnext hlong
    · simp only [if_neg hlong]
      exact .await hphase hnext hlong

theorem act_of_receive? (hphase : x.phase = .receiving)
    (h : x.receive? cancelled = some (e, x')) :
    x.Act cancelled e (if cancelled then [] else receiptDeeds x.transport.receive.1) x' := by
  rw [receive?] at h
  by_cases hcancelled : cancelled = true
  · rw [if_pos hcancelled] at h ⊢
    cases h
    exact .leaveWaiting hphase hcancelled
  · rw [if_neg hcancelled] at h ⊢
    rcases hreceive : x.transport.receive with ⟨piece | _ | _, t⟩
    · rw [hreceive] at h
      cases h
      exact .receive hphase hreceive
    · rw [hreceive] at h
      cases h
      exact .leaveAtEnd hphase hreceive
    · rw [hreceive] at h
      cases h

theorem act_of_send? {output : Bytes} (hphase : x.phase = .sending output)
    (h : x.send? cancelled output = some (e, x')) :
    x.Act cancelled e (sendDeeds output (x.transport.send output).1) x' := by
  rw [send?] at h
  rcases hsend : x.transport.send output with ⟨left | _ | _, t⟩
  · rw [hsend] at h
    have hact : x.Act cancelled _ _ _ := .send hphase hsend
    rcases left with _ | ⟨b, left⟩
    · cases h
      exact hact
    · cases h
      exact hact
  · rw [hsend] at h
    simp only [Option.ite_none_right_eq_some] at h
    obtain ⟨hcancelled, h⟩ := h
    cases h
    exact .leaveBlocked hphase hsend hcancelled
  · rw [hsend] at h
    cases h
    exact .leaveBroken hphase hsend

/-- **Every step of a session by itself is one of these**, with the deeds of the step. -/
theorem act_of_advance? (h : x.advance? cancelled = some (e, x')) :
    x.Act cancelled e (x.deeds cancelled) x' := by
  rw [advance?] at h
  rw [deeds]
  rcases hphase : x.phase with _ | _ | r | output | _ | _ | _
  all_goals rw [hphase] at h
  case framing =>
    have hframe := Option.some.inj h
    have hact : x.Act cancelled _ _ _ := act_of_frame hphase
    simp only [hframe] at hact ⊢
    exact hact
  case receiving => exact act_of_receive? hphase h
  case queued => cases h
  case sending => exact act_of_send? hphase h
  case leaving =>
    cases h
    exact .shutDown hphase
  case signingOff =>
    cases h
    exact .signOff hphase
  case ended => cases h

end Session

end CommandLog
