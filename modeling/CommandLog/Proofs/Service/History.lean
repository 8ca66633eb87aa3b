import CommandLog.Proofs.Session.History
import CommandLog.Service.Event

/-!
# The history of a service

A run of a service is any sequence of events from outside and of steps of its sessions and
annotators. Along a run, notes are taken of what everybody did, in the order in which it happened:

* `CommandLog.Service.Choice` and `CommandLog.Service.next?` – a move that can be chosen, and the
  service after it;
* `CommandLog.Service.Note` and `CommandLog.Service.noted` – one note, and the notes of a move;
* `CommandLog.Service.Act` – **everything that can happen in one move**, told apart by who makes
  it, with `CommandLog.Service.act_of_next?`;
* `CommandLog.Service.Run` – **a run with its notes**. Every state that can be reached is reached
  by a run (`CommandLog.Service.reachable_iff_exists_run`), and `CommandLog.Service.play` carries
  out a given one;
* `CommandLog.Service.deedsOf` and `CommandLog.Service.stored` – what the notes say about one
  session, and what they say about the log.

Everything that is said about one session is proved of its own life and brought here by one
lemma, `CommandLog.Service.Run.past`: in every run, a session together with the notes about it is a
session with its past. Sessions see nothing of each other but the answers of the engine, and a
past may contain any answers at all.
-/

namespace CommandLog.Service

/-- A move of a service, chosen by whoever runs it. -/
inductive Choice where
  /-- Something happens outside. -/
  | event (e : Event)
  /-- A session or an annotator takes its step. -/
  | actor (a : Actor)
deriving DecidableEq, Repr

/-- **The service after a move**, if it can be made. -/
def next? (s : Service) : Choice → Option Service
  | .event e => some (s.handle e)
  | .actor a => s.step? a

/-- What somebody did. Notes about the engine are taken while its lock is held. -/
inductive Note where
  /-- A session did something, or had it done. -/
  | session (id : SessionId) (deed : Session.Deed)
  /-- An annotator asked the engine to store a timestamp, and it did or refused to. -/
  | annotated (index : Nat) (payload : Bytes) (stored : Bool)
  /-- Someone outside asked the engine to store a command, and it did or refused to. -/
  | appended (payload : Bytes) (stored : Bool)
deriving DecidableEq, Repr

/-- The deeds of a session's next step. -/
def deeds (s : Service) (x : Session) : List Session.Deed :=
  match x.phase with
  | .queued r => [.served r (s.engine.answer s.host r).1]
  | _ => x.deeds s.cancelled

/-- Whether the engine stores a payload. -/
def stores (s : Service) (payload : Bytes) : Bool :=
  (s.engine.append payload s.host).1.isOk

/-- **The notes of a move.** -/
def noted (s : Service) : Choice → List Note
  | .event (.append payload) =>
    if s.held || s.queue.isEmpty then [.appended payload (s.stores payload)] else []
  | .event _ => []
  | .actor (.session id) =>
    match s.sessions[id]? with
    | some x => (s.deeds x).map (.session id)
    | none => []
  | .actor (.annotator index) =>
    match s.annotators[index]?.map Annotator.phase with
    | some (.queued _ stamp) => [.annotated index stamp.bytes (s.stores stamp.bytes)]
    | _ => []

/-- **A run with its notes**, from a given service on. -/
inductive Run (start : Service) : List Note → Service → Prop where
  /-- Nothing has happened yet. -/
  | refl : Run start [] start
  /-- One move further. -/
  | move {notes : List Note} {s s' : Service} (h : Run start notes s) (c : Choice)
    (hnext : s.next? c = some s') : Run start (notes ++ s.noted c) s'

/-- The service after some moves, with their notes. Moves that cannot be made are left out. -/
def play (s : Service) : List Choice → List Note × Service
  | [] => ([], s)
  | c :: rest =>
    match s.next? c with
    | none => play s rest
    | some s' => (s.noted c ++ (play s' rest).1, (play s' rest).2)

theorem Run.trans {start s s' : Service} {notes notes' : List Note} (h : Run start notes s)
    (h' : Run s notes' s') : Run start (notes ++ notes') s' := by
  induction h' with
  | refl => simpa using h
  | move _ c hnext ih =>
    rw [← List.append_assoc]
    exact ih.move c hnext

theorem run_of_next? {s s' : Service} {c : Choice} (hnext : s.next? c = some s') :
    Run s (s.noted c) s' := by
  have h := Run.refl.move c hnext
  rwa [List.nil_append] at h

theorem run_of_event (s : Service) (e : Event) : Run s (s.noted (.event e)) (s.handle e) :=
  run_of_next? (c := .event e) rfl

/-- Whatever is played is a run. -/
theorem Run.play {start s : Service} {notes : List Note} (hrun : Run start notes s)
    (cs : List Choice) : Run start (notes ++ (s.play cs).1) (s.play cs).2 := by
  induction cs generalizing notes s with
  | nil => simpa [Service.play] using hrun
  | cons c cs ih =>
    simp only [Service.play]
    cases hnext : s.next? c with
    | none => exact ih hrun
    | some s' =>
      have hlater := ih (hrun.move c hnext)
      rwa [List.append_assoc] at hlater

/-- **Every state that can be reached is reached by a run.** -/
theorem reachable_iff_exists_run {start s : Service} :
    Reachable start s ↔ ∃ notes, Run start notes s := by
  constructor
  · intro h
    induction h with
    | refl => exact ⟨[], .refl⟩
    | step _ m ih =>
      obtain ⟨notes, hrun⟩ := ih
      cases m with
      | event e => exact ⟨_, hrun.move (.event e) rfl⟩
      | @actor _ a hstep => exact ⟨_, hrun.move (.actor a) hstep⟩
  · rintro ⟨notes, hrun⟩
    induction hrun with
    | refl => exact .refl
    | @move _ s _ _ c hnext ih =>
      cases c with
      | event e =>
        cases hnext
        exact ih.step (.event s e)
      | actor a => exact ih.step (.actor hnext)

/-! ### What notes amount to -/

/-- What one session did. -/
def deedsOf (id : SessionId) (notes : List Note) : List Session.Deed :=
  notes.filterMap fun
    | .session id' deed => if id' = id then some deed else none
    | _ => none

/-- What a note says was stored. A session's command was stored exactly when it was answered. -/
def Note.stored : Note → List Bytes
  | .session _ (.served (.append line) (some _)) => [line]
  | .annotated _ payload true => [payload]
  | .appended payload true => [payload]
  | _ => []

/-- **What was stored**, in the order in which it was. -/
def stored (notes : List Note) : List Entry :=
  (notes.flatMap Note.stored).map Entry.mk

variable (id : SessionId) (notes notes' : List Note)

@[simp] theorem deedsOf_nil : deedsOf id [] = [] := rfl

@[simp] theorem deedsOf_append :
    deedsOf id (notes ++ notes') = deedsOf id notes ++ deedsOf id notes' := by
  simp [deedsOf]

theorem deedsOf_map_session (id' : SessionId) (ds : List Session.Deed) :
    deedsOf id (ds.map (.session id')) = if id' = id then ds else [] := by
  rw [deedsOf, List.filterMap_map]
  by_cases h : id' = id
  · have hsome : (fun n : Note => match n with
        | .session id'' deed => if id'' = id then some deed else none
        | _ => none) ∘ Note.session id' = some := by
      funext d
      simp [h]
    rw [hsome, if_pos h, List.filterMap_some]
  · simp [h]

@[simp] theorem stored_nil : stored [] = [] := rfl

@[simp] theorem stored_append : stored (notes ++ notes') = stored notes ++ stored notes' := by
  simp [stored]

/-! ### What a move can be -/

/-- **What can happen to a service in one move**, with the notes of it. -/
inductive Act (s : Service) : List Note → Service → Prop where
  /-- Something happens outside. -/
  | event (e : Event) : Act s (s.noted (.event e)) (s.handle e)
  /-- A session has got the lock, and its request is carried out. -/
  | serve {id : SessionId} {x : Session} {r : Request} (hx : s.sessions[id]? = some x)
    (hphase : x.phase = .queued r) (hgrants : s.grants (.session id) = true) :
    Act s [.session id (.served r (s.engine.answer s.host r).1)] (s.serve id x r)
  /-- A session does something by itself. -/
  | session {id : SessionId} {x x' : Session} {e : Session.Effect}
    (hx : s.sessions[id]? = some x) (hadvance : x.advance? s.cancelled = some (e, x')) :
    Act s ((x.deeds s.cancelled).map (.session id)) ((s.setSession id x').absorb id e)
  /-- An annotator has got the lock, and its timestamp is stored. -/
  | annotate {index deadline : Nat} {stamp : Timestamp} {a : Annotator}
    (ha : s.annotators[index]? = some a) (hphase : a.phase = .queued deadline stamp)
    (hgrants : s.grants (.annotator index) = true) :
    Act s [.annotated index stamp.bytes (s.stores stamp.bytes)]
      (s.annotate index a deadline stamp)
  /-- An annotator looks at its timer: it ends, or it asks for the lock. -/
  | wake {index : Nat} {a a' : Annotator} {queue : List Actor} (ha : s.annotators[index]? = some a)
    (hadvance : a.advance? s.cancelled s.clock s.now = some a')
    (hqueue : queue = if a'.hasEnded then s.queue else s.queue ++ [.annotator index]) :
    Act s [] { s.setAnnotator index a' with queue }

variable {id notes notes'} {s s' : Service} {x x' : Session}

theorem deeds_of_queued {r : Request} (hphase : x.phase = .queued r) :
    s.deeds x = [.served r (s.engine.answer s.host r).1] := by
  simp only [deeds, hphase]

theorem deeds_of_not_queued (hphase : ∀ r, x.phase ≠ .queued r) :
    s.deeds x = x.deeds s.cancelled := by
  unfold deeds
  split
  · next r hr => exact absurd hr (hphase r)
  · rfl

theorem act_of_stepSession? (hx : s.sessions[id]? = some x)
    (hstep : s.stepSession? id x = some s') : s.Act ((s.deeds x).map (.session id)) s' := by
  unfold stepSession? at hstep
  split at hstep
  · next r hphase =>
    rw [Option.ite_none_right_eq_some] at hstep
    obtain ⟨hgrants, hstep⟩ := hstep
    cases hstep
    rw [deeds_of_queued hphase]
    exact .serve hx hphase hgrants
  · next hqueued =>
    split at hstep
    · next e y hadvance =>
      cases hstep
      rw [deeds_of_not_queued hqueued]
      exact .session hx hadvance
    · cases hstep

/-- A session whose request does not wait for the lock takes its step by itself. -/
theorem stepSession?_of_advance? {e : Session.Effect}
    (hqueued : ∀ r, x.phase ≠ .queued r) (hadvance : x.advance? s.cancelled = some (e, x')) :
    s.stepSession? id x = some ((s.setSession id x').absorb id e) := by
  unfold stepSession?
  split
  · next r hphase => exact absurd hphase (hqueued r)
  · rw [hadvance]

theorem noted_of_queued {index deadline : Nat} {stamp : Timestamp} {a : Annotator}
    (ha : s.annotators[index]? = some a) (hphase : a.phase = .queued deadline stamp) :
    s.noted (.actor (.annotator index)) =
      [.annotated index stamp.bytes (s.stores stamp.bytes)] := by
  simp only [noted, ha, Option.map_some, hphase]

theorem noted_of_not_queued {index : Nat} {a : Annotator} (ha : s.annotators[index]? = some a)
    (hphase : ∀ deadline stamp, a.phase ≠ .queued deadline stamp) :
    s.noted (.actor (.annotator index)) = [] := by
  simp only [noted, ha, Option.map_some]
  split
  · next deadline stamp heq => exact absurd (Option.some.inj heq) (hphase deadline stamp)
  · rfl

theorem act_of_stepAnnotator? {index : Nat} {a : Annotator} (ha : s.annotators[index]? = some a)
    (hstep : s.stepAnnotator? index a = some s') :
    s.Act (s.noted (.actor (.annotator index))) s' := by
  unfold stepAnnotator? at hstep
  split at hstep
  · next deadline stamp hphase =>
    rw [Option.ite_none_right_eq_some] at hstep
    obtain ⟨hgrants, hstep⟩ := hstep
    cases hstep
    rw [noted_of_queued ha hphase]
    exact .annotate ha hphase hgrants
  · next hqueued =>
    rw [noted_of_not_queued ha hqueued]
    split at hstep
    · next a' hadvance =>
      have hact := Act.wake ha hadvance rfl
      cases hstep
      split at hact
      · next hended =>
        rw [if_pos hended]
        exact hact
      · next hgoing =>
        rw [if_neg hgoing]
        exact hact
    · cases hstep

/-- **Every move is one of these**, with the notes of the move. -/
theorem act_of_next? {c : Choice} (hnext : s.next? c = some s') : s.Act (s.noted c) s' := by
  rcases c with e | id | index
  · cases hnext
    exact .event e
  · simp only [next?, step?] at hnext
    simp only [noted]
    rcases hx : s.sessions[id]? with _ | x
    · rw [hx] at hnext
      cases hnext
    · rw [hx] at hnext
      exact act_of_stepSession? hx hnext
  · simp only [next?, step?] at hnext
    rcases ha : s.annotators[index]? with _ | a
    · rw [ha] at hnext
      cases hnext
    · rw [ha] at hnext
      exact act_of_stepAnnotator? ha hnext

theorem act_of_step? {a : Actor} (hstep : s.step? a = some s') :
    s.Act (s.noted (.actor a)) s' :=
  act_of_next? (c := .actor a) hstep

/-! ### Moves of a service and steps of its sessions -/

@[simp] theorem sessions_absorb (s : Service) (id : SessionId) (e : Session.Effect) :
    (s.absorb id e).sessions = s.sessions := by
  cases e <;> rfl

/-- An event is no deed of a session. -/
theorem deedsOf_noted_event (id : SessionId) (s : Service) (e : Event) :
    deedsOf id (s.noted (.event e)) = [] := by
  cases e with
  | append payload =>
    simp only [noted]
    split <;> rfl
  | _ => rfl

/-- **What becomes of one session by one move**: it takes a step with the deeds that are noted, or
it is started by the move, or it stays as it is and nothing is noted about it. -/
inductive Turn (s : Service) (id : SessionId) (ds : List Session.Deed) (x' : Session) : Prop where
  /-- It takes a step. -/
  | step {x : Session} (hx : s.sessions[id]? = some x) (h : x.Step ds x')
  /-- It is started. -/
  | start (hid : id = s.sessions.length) (hds : ds = []) {limit : Nat} (hx' : x' = { limit })
  /-- It stays as it is. -/
  | rest (hx : s.sessions[id]? = some x') (hds : ds = [])

theorem turn_onTransport {id' : SessionId} {f : Transport → Transport}
    (hf : ∀ t : Transport, t.Outside (f t))
    (hx' : (s.onTransport id' f).sessions[id]? = some x') : Turn s id [] x' := by
  rw [onTransport, List.getElem?_modify, Option.map_eq_map, Option.map_eq_some_iff] at hx'
  obtain ⟨x, hx, hmodified⟩ := hx'
  split at hmodified
  · cases hmodified
    exact .step hx (.outside (hf x.transport))
  · cases hmodified
    exact .rest hx rfl

theorem turn_handle {e : Event} (hx' : (s.handle e).sessions[id]? = some x') :
    Turn s id (deedsOf id (s.noted (.event e))) x' := by
  cases e with
  | connect limit =>
    change (s.sessions ++ [({ limit } : Session)])[id]? = some x' at hx'
    rcases Nat.lt_or_ge id s.sessions.length with hlt | hge
    · rw [List.getElem?_append_left hlt] at hx'
      exact .rest hx' rfl
    · -- the new session has the next number
      rw [List.getElem?_append_right hge, List.getElem?_singleton] at hx'
      split at hx'
      · next hzero =>
        cases hx'
        exact .start (Nat.le_antisymm (Nat.le_of_sub_eq_zero hzero) hge) rfl rfl
      · cases hx'
  | deliver id' piece => exact turn_onTransport (fun t => .deliver t piece) hx'
  | endInput id' ending => exact turn_onTransport (fun t => .endInput t ending) hx'
  | breakOutput id' => exact turn_onTransport (fun t => .breakOutput t) hx'
  | allow id' room => exact turn_onTransport (fun t => .allow t room) hx'
  | append payload =>
    refine .rest ?_ (deedsOf_noted_event id s (.append payload))
    simp only [handle] at hx'
    split at hx' <;> exact hx'
  | cancel | hold | release | reap | annotate | tick => exact .rest hx' rfl

/-- One session takes a step, and the others stay as they are. -/
theorem turn_set {id' : SessionId} {x y : Session} {ds : List Session.Deed}
    (hx : s.sessions[id']? = some x) (hstep : x.Step ds y)
    (hx' : (s.sessions.set id' y)[id]? = some x') :
    Turn s id (deedsOf id (ds.map (.session id'))) x' := by
  rw [deedsOf_map_session]
  by_cases hid : id' = id
  · -- this session took the step
    subst hid
    rw [List.getElem?_set_self', hx] at hx'
    cases hx'
    rw [if_pos rfl]
    exact .step hx hstep
  · rw [List.getElem?_set_ne hid] at hx'
    rw [if_neg hid]
    exact .rest hx' rfl

/-- **Every move is a turn of every session.** -/
theorem turn_of_act (hact : s.Act notes s') (hx' : s'.sessions[id]? = some x') :
    Turn s id (deedsOf id notes) x' := by
  cases hact with
  | event e => exact turn_handle hx'
  | serve hx hphase hgrants =>
    rw [← List.map_singleton]
    exact turn_set hx (.served hphase _) hx'
  | session hx hadvance =>
    rw [sessions_absorb] at hx'
    exact turn_set hx (.own hadvance) hx'
  | annotate | wake => exact .rest hx' rfl

/-! ### A session's life in a run -/

theorem length_sessions_le_handle (s : Service) (e : Event) :
    s.sessions.length ≤ (s.handle e).sessions.length := by
  cases e with
  | connect limit =>
    change s.sessions.length ≤ (s.sessions ++ [({ limit } : Session)]).length
    rw [List.length_append]
    exact Nat.le_add_right _ _
  | append payload =>
    simp only [handle]
    split <;> exact Nat.le_refl _
  | deliver | endInput | breakOutput | allow =>
    simp only [handle, onTransport, List.length_modify]
    exact Nat.le_refl _
  | cancel | hold | release | reap | annotate | tick => exact Nat.le_refl _

theorem length_sessions_le_of_act (hact : s.Act notes s') :
    s.sessions.length ≤ s'.sessions.length := by
  cases hact with
  | event e => exact length_sessions_le_handle s e
  | serve => exact Nat.le_of_eq List.length_set.symm
  | session =>
    rw [sessions_absorb]
    exact Nat.le_of_eq List.length_set.symm
  | annotate | wake => exact Nat.le_refl _

/-- The sessions that there are have smaller numbers than the others. -/
theorem deedsOf_map_of_le {id' : SessionId} {ds : List Session.Deed}
    (hx : s.sessions[id']? = some x) (hle : s.sessions.length ≤ id) :
    deedsOf id (ds.map (.session id')) = [] := by
  have hlt := (List.getElem?_eq_some_iff.mp hx).1
  rw [deedsOf_map_session, if_neg]
  rintro rfl
  exact Nat.not_le.mpr hlt hle

/-- Nothing is noted about sessions that there are not. -/
theorem deedsOf_of_act (hact : s.Act notes s') (hle : s.sessions.length ≤ id) :
    deedsOf id notes = [] := by
  cases hact with
  | event e => exact deedsOf_noted_event id s e
  | serve hx =>
    rw [← List.map_singleton]
    exact deedsOf_map_of_le hx hle
  | session hx => exact deedsOf_map_of_le hx hle
  | annotate | wake => rfl

theorem Run.deedsOf_of_le {start : Service} (hrun : Run start notes s)
    (hle : s.sessions.length ≤ id) : deedsOf id notes = [] := by
  induction hrun with
  | refl => rfl
  | move _ c hnext ih =>
    have hact := act_of_next? hnext
    have hle' := Nat.le_trans (length_sessions_le_of_act hact) hle
    rw [deedsOf_append, ih hle', deedsOf_of_act hact hle', List.append_nil]

/-- **In every run a session has a past**, and its past is what is noted about it. -/
theorem Run.past {start : Service} (hnew : start.sessions = []) (hrun : Run start notes s)
    (hx : s.sessions[id]? = some x) : ∃ limit, Session.Past limit (deedsOf id notes) x := by
  induction hrun generalizing x with
  | refl =>
    rw [hnew] at hx
    cases hx
  | move hrun c hnext ih =>
    rw [deedsOf_append]
    cases turn_of_act (act_of_next? hnext) hx with
    | step hx' hstep =>
      obtain ⟨limit, hpast⟩ := ih hx'
      exact ⟨limit, hpast.step hstep⟩
    | @start hid hds limit hx' =>
      subst hx'
      rw [hds, hrun.deedsOf_of_le (Nat.le_of_eq hid.symm), List.append_nil]
      exact ⟨limit, .start⟩
    | rest hx' hds =>
      rw [hds, List.append_nil]
      exact ih hx'

end CommandLog.Service
