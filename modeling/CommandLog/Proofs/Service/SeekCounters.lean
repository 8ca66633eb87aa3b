import CommandLog.Proofs.Service.Framing
import CommandLog.Proofs.Service.Whole

/-!
# The counters of seeks

A line that starts with the seek mark comes to one of three ends when it is carried out: its
position is answered from the log, its position is outside the log, or it holds no position at all.
Two counters are kept of this. The one of the seeks that were rejected grows in the last two cases,
and the one of the seeks in the first two.

* `CommandLog.Session.dispatched` – the lines that a session has had carried out, as a part of its
  input, and `CommandLog.Service.carriedOut` – how many lines of a kind all sessions have;
* `CommandLog.Service.Run.seekCounters` – **what the two counters count**, in every run;
* `CommandLog.Service.Run.seeks_add_up` – **how they add up**: each of them, together with the case
  that it leaves out, makes up the number of lines with the mark. So as long as no line without a
  position is among them, every line with the mark counts once as a seek, and the seeks that are not
  rejected are those that were answered;
* `CommandLog.Service.not_seeks_add_up` – that a single malformed line is enough to have more seeks
  rejected than received.
-/

namespace CommandLog

open Session (Deed received requests)

/-! ### Control lines -/

/-- Whether a request comes from a line with the seek mark. -/
def Request.isControl : Request → Bool
  | .append _ => false
  | .seek _ _ | .rejected => true

/-- Whether a request asks for a position. -/
def Request.isSeek : Request → Bool
  | .seek _ _ => true
  | .append _ | .rejected => false

theorem Request.isControl_ofLine (l : Bytes) :
    (ofLine l).isControl = decide (Command.seekMark <+: l) := by
  by_cases hmarked : Command.seekMark <+: l
  · have hne : ∀ line, ofLine l ≠ .append line := fun line heq =>
      (ofLine_eq_append_iff.mp heq).2 hmarked
    cases hof : ofLine l with
    | append line => exact absurd hof (hne line)
    | seek | rejected => simp [isControl, hmarked]
  · rw [ofLine_eq_append_iff.mpr ⟨rfl, hmarked⟩]
    simp [isControl, hmarked]

namespace Session

variable {x : Session} {ds : List Deed} {done : List Bytes} {pending : Bytes}

/-- Whether a request was carried out that is of a certain kind, together with its answer. -/
def Deed.ends (q : Request → Option Bytes → Bool) : Deed → Bool
  | .served r answer => q r answer
  | _ => false

/-- Whether a request of a certain kind was carried out. -/
def Deed.asks (q : Request → Bool) : Deed → Bool :=
  Deed.ends fun r _ => q r

/-- Whether a position was answered from the log. -/
def Deed.isAnswered : Deed → Bool :=
  Deed.ends fun
    | .seek _ _, some _ => true
    | _, _ => false

/-- Whether a line with the seek mark was carried out and not answered. -/
def Deed.isRefused : Deed → Bool :=
  Deed.ends fun
    | .seek _ _, none | .rejected, _ => true
    | _, _ => false

/-- **The lines that a session has had carried out**: the first ones of those that its input asks
for. -/
def dispatched (x : Session) (ds : List Deed) : List Bytes :=
  (accepted x.limit (received ds)).take (requests ds).length

theorem Framed.requests_eq_dispatched (h : Framed x ds done pending) :
    requests ds = (x.dispatched ds).map Request.ofLine := by
  have hprefix := List.prefix_iff_eq_take.mp h.requests_prefix_accepted
  rwa [← List.map_take] at hprefix

theorem countP_asks (q : Request → Bool) (ds : List Deed) :
    ds.countP (Deed.asks q) = (requests ds).countP q := by
  rw [requests, List.countP_filterMap]
  refine List.countP_congr fun d _ => ?_
  cases d <;> simp [Deed.asks, Deed.ends]

end Session

/-- Two kinds that make up a third one, as far as numbers go. -/
theorem countP_add_countP {α : Type} {p q r : α → Bool}
    (h : ∀ a, [a].countP p + [a].countP q = [a].countP r) (l : List α) :
    l.countP p + l.countP q = l.countP r := by
  induction l with
  | nil => rfl
  | cons a l ih =>
    have ha := h a
    rw [← List.singleton_append]
    simp only [List.countP_append]
    omega

namespace Service

variable {start s s' : Service} {notes : List Note}

/-! ### The lines of all sessions -/

/-- **Number of lines of a kind that were carried out**, for whichever session. -/
def carriedOut (s : Service) (notes : List Note) (p : Bytes → Bool) : Nat :=
  total (s.sessions.mapIdx fun id x => (x.dispatched (deedsOf id notes)).countP p)

/-- **Requests of a kind are lines of a kind**, in every run. -/
theorem Run.countP_asks (hnew : start.sessions = []) (hrun : Run start notes s)
    (q : Request → Bool) :
    notes.countP (Note.tells (Deed.asks q)) = s.carriedOut notes fun l => q (.ofLine l) := by
  rw [hrun.countP_eq_total, carriedOut]
  refine congrArg total (List.ext_getElem (by simp) fun id hid _ => ?_)
  rw [List.length_map, List.length_range] at hid
  obtain ⟨limit, hpast⟩ := hrun.past hnew (List.getElem?_eq_getElem hid)
  obtain ⟨done, pending, hframed⟩ := hpast.framed
  rw [List.getElem_map, List.getElem_range, List.getElem_mapIdx, Session.countP_asks,
    hframed.requests_eq_dispatched, List.countP_map]
  rfl

/-! ### What the counters count -/

/-- **What the two counters count** when a request is carried out. -/
theorem seekCounters_answer (e : Engine) (h : Host) (r : Request) :
    (e.answer h r).2.2.metrics.seeks =
        h.metrics.seeks + [Deed.served r (e.answer h r).1].countP (Deed.asks Request.isSeek) ∧
      (e.answer h r).2.2.metrics.seeksRejected =
        h.metrics.seeksRejected + [Deed.served r (e.answer h r).1].countP Deed.isRefused := by
  cases r with
  | append line =>
    rw [Engine.after_answer_append]
    exact ⟨Engine.metric_append (f := Metrics.seeks) (fun _ _ _ => rfl) e line h,
      Engine.metric_append (f := Metrics.seeksRejected) (fun _ _ _ => rfl) e line h⟩
  | seek index offset =>
    simp only [Engine.answer]
    split <;> exact ⟨rfl, rfl⟩
  | rejected => exact ⟨rfl, rfl⟩

/-- Nobody counts seeks but whoever carries out requests. -/
theorem seekCounters_absorb (s : Service) (id : SessionId) (e : Session.Effect) :
    (s.absorb id e).host.metrics.seeks = s.host.metrics.seeks ∧
      (s.absorb id e).host.metrics.seeksRejected = s.host.metrics.seeksRejected := by
  cases e <;> exact ⟨rfl, rfl⟩

/-- What a session does by itself is no request carried out. -/
theorem countP_ends_eq_zero {id : SessionId} {x x' : Session} {e : Session.Effect}
    {cancelled : Bool} (hadvance : x.advance? cancelled = some (e, x'))
    (q : Request → Option Bytes → Bool) :
    ((x.deeds cancelled).map (.session id)).countP (Note.tells (Deed.ends q)) = 0 := by
  rw [countP_map_session, List.countP_eq_zero]
  intro d hd hends
  cases d with
  | served r answer => exact served_notMem_of_act (Session.act_of_advance? hadvance) r answer hd
  | _ => cases hends

/-- **What the two counters count**, one move at a time. -/
theorem seekCounters_of_act (hact : s.Act notes s') :
    s'.host.metrics.seeks =
        s.host.metrics.seeks + notes.countP (Note.tells (Deed.asks Request.isSeek)) ∧
      s'.host.metrics.seeksRejected =
        s.host.metrics.seeksRejected + notes.countP (Note.tells Deed.isRefused) := by
  cases hact with
  | event e =>
    rw [countP_noted_event, countP_noted_event]
    exact ⟨metric_handle (f := Metrics.seeks) (fun _ _ _ => rfl) (fun _ _ => rfl) s e,
      metric_handle (f := Metrics.seeksRejected) (fun _ _ _ => rfl) (fun _ _ => rfl) s e⟩
  | @serve id x r =>
    rw [← List.map_singleton, countP_map_session, countP_map_session]
    exact seekCounters_answer s.engine s.host r
  | @session id x x' e hx hadvance =>
    rw [Deed.asks, Deed.isRefused, countP_ends_eq_zero hadvance, countP_ends_eq_zero hadvance]
    exact seekCounters_absorb (s.setSession id x') id e
  | annotate =>
    exact ⟨Engine.metric_append (f := Metrics.seeks) (fun _ _ _ => rfl) _ _ _,
      Engine.metric_append (f := Metrics.seeksRejected) (fun _ _ _ => rfl) _ _ _⟩
  | wake => exact ⟨rfl, rfl⟩

/-- **What the two counters count**, in every run. -/
theorem Run.seekCounters (hrun : Run start notes s) :
    s.host.metrics.seeks = start.host.metrics.seeks +
        notes.countP (Note.tells (Deed.asks Request.isSeek)) ∧
      s.host.metrics.seeksRejected = start.host.metrics.seeksRejected +
        notes.countP (Note.tells Deed.isRefused) := by
  induction hrun with
  | refl => exact ⟨rfl, rfl⟩
  | move _ c hnext ih =>
    obtain ⟨hseeks, hrejected⟩ := seekCounters_of_act (act_of_next? hnext)
    rw [hseeks, hrejected, ih.1, ih.2, List.countP_append, List.countP_append, Nat.add_assoc,
      Nat.add_assoc]
    exact ⟨rfl, rfl⟩

/-! ### How they add up -/

/-- A line with the mark has a position or is malformed. -/
theorem seeks_add_malformed (notes : List Note) :
    notes.countP (Note.tells (Deed.asks Request.isSeek)) +
        notes.countP (Note.tells (Deed.asks (· == .rejected))) =
      notes.countP (Note.tells (Deed.asks Request.isControl)) := by
  refine countP_add_countP (fun note => ?_) notes
  rcases note with ⟨id, d⟩ | _ | _
  · cases d with
    | served r a => cases r <;> rfl
    | _ => rfl
  · rfl
  · rfl

/-- It is answered or refused. -/
theorem refused_add_answered (notes : List Note) :
    notes.countP (Note.tells Deed.isRefused) + notes.countP (Note.tells Deed.isAnswered) =
      notes.countP (Note.tells (Deed.asks Request.isControl)) := by
  refine countP_add_countP (fun note => ?_) notes
  rcases note with ⟨id, d⟩ | _ | _
  · cases d with
    | served r a =>
      cases r with
      | seek => cases a <;> rfl
      | _ => rfl
    | _ => rfl
  · rfl
  · rfl

/-- **The counters of seeks add up.** In every run from a service without sessions that has counted
no seeks,

* the seeks and the malformed control lines together are the lines carried out that start with the
  seek mark;
* so are the seeks rejected and those answered from the log together;
* as long as no malformed control line was carried out, every line with the mark counts once as a
  seek, no more seeks are rejected than there are, and the others are those that were answered from
  the log. -/
theorem Run.seeks_add_up (hnew : start.sessions = []) (hseeks : start.host.metrics.seeks = 0)
    (hrejected : start.host.metrics.seeksRejected = 0) (hrun : Run start notes s) :
    s.host.metrics.seeks + s.carriedOut notes (fun l => Request.ofLine l == .rejected) =
      s.carriedOut notes (fun l => Command.seekMark <+: l) ∧
    s.host.metrics.seeksRejected + notes.countP (Note.tells Deed.isAnswered) =
      s.carriedOut notes (fun l => Command.seekMark <+: l) ∧
    (s.carriedOut notes (fun l => Request.ofLine l == .rejected) = 0 →
      s.host.metrics.seeksRejected ≤ s.host.metrics.seeks ∧
      s.host.metrics.seeks - s.host.metrics.seeksRejected =
        notes.countP (Note.tells Deed.isAnswered) ∧
      s.host.metrics.seeks = s.carriedOut notes (fun l => Command.seekMark <+: l)) := by
  have hcontrol := hrun.countP_asks hnew Request.isControl
  simp only [Request.isControl_ofLine] at hcontrol
  have hmalformed := hrun.countP_asks hnew (· == .rejected)
  obtain ⟨hseeks', hrejected'⟩ := hrun.seekCounters
  have hreceived := seeks_add_malformed notes
  have hended := refused_add_answered notes
  rw [hseeks, Nat.zero_add] at hseeks'
  rw [hrejected, Nat.zero_add] at hrejected'
  rw [← hseeks', hcontrol, hmalformed] at hreceived
  rw [← hrejected', hcontrol] at hended
  exact ⟨hreceived, hended, fun hnone => by omega⟩

/-- A session gets a command and two positions, of which only the first one is in the log. -/
def twoPositions : List Choice :=
  [.event (.connect 64), .event (.deliver 0 ([0x61, 0x0a] ++ Command.controlLine 0 1)),
    .event (.deliver 0 (Command.controlLine 1 0))] ++ List.replicate 16 (.actor (.session 0))

/-- Two seeks are counted, and one of them as rejected. -/
theorem seeks_add_up_of_twoPositions :
    ∃ notes s, Run { engine := .inMemory, host := {} } notes s ∧ s.host.metrics.seeks = 2 ∧
      s.host.metrics.seeksRejected ≤ 2 ∧
      2 - s.host.metrics.seeksRejected = notes.countP (Note.tells Deed.isAnswered) ∧
      notes.countP (Note.tells Deed.isAnswered) = 1 := by
  have hrun := Run.play (.refl : Run { engine := .inMemory, host := {} } [] _) twoPositions
  have hseeks : (play { engine := .inMemory, host := {} } twoPositions).2.host.metrics.seeks =
      2 := by decide +kernel
  obtain ⟨-, -, hadds⟩ := Run.seeks_add_up rfl rfl rfl hrun
  obtain ⟨hle, hanswered, -⟩ := hadds (by decide +kernel)
  rw [hseeks] at hle hanswered
  exact ⟨_, _, hrun, hseeks, hle, hanswered, by decide +kernel⟩

/-- A session gets a line with the seek mark and letters instead of numbers. -/
def letters : List Choice :=
  [.event (.connect 64), .event (.deliver 0 (Command.seekMark ++ [0x78, 0x2c, 0x79, 0x0a]))] ++
    List.replicate 6 (.actor (.session 0))

/-- **A malformed control line is rejected without being received**, going by the counters. -/
theorem not_seeks_add_up :
    ¬∀ notes s, Run { engine := .inMemory, host := {} } notes s →
      s.host.metrics.seeksRejected ≤ s.host.metrics.seeks := by
  intro hall
  have hrun := Run.play (.refl : Run { engine := .inMemory, host := {} } [] _) letters
  exact absurd (hall _ _ hrun) (by decide +kernel)

end Service

end CommandLog
