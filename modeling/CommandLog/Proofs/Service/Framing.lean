import CommandLog.Proofs.Engine.Append
import CommandLog.Proofs.Service.History
import CommandLog.Proofs.Session.Memory

/-!
# What the sessions of a service dispatch

Input is cut into pieces by the network. Neither the requests of a session nor the number of
commands it drops depends on the cuts.

* `CommandLog.Service.Run.countP_eq_total` – **whatever is noted about sessions** is the sum of what
  is noted about the single ones;
* `CommandLog.Service.dropped` – the number of commands that the notes of a run say were dropped,
  by whichever session;
* `CommandLog.Service.commandsAborted_of_act` and `CommandLog.Service.Run.commandsAborted_eq` –
  **the counter of dropped commands counts them** and nothing else, move by move and in every run;
* `CommandLog.Service.Run.bounded` – every session keeps within its memory;
* `CommandLog.Service.Run.framing` – **the requests and the drops of a session are read off its
  stream**, whatever the pieces were that the stream came in.
-/

namespace CommandLog

variable {start s s' : Service} {notes : List Service.Note} {id : SessionId} {x x' : Session}

/-- A session reports a drop exactly when it drops a command. -/
theorem Session.Act.aborts_eq {cancelled : Bool} {e : Session.Effect} {ds : List Session.Deed}
    (hact : x.Act cancelled e ds x') :
    Session.aborts ds = if e = .commandAborted then 1 else 0 := by
  cases hact <;> simp [Session.aborts]

namespace Service

/-! ### Counting what sessions did -/

/-- Whether a note says that a session did something of a certain kind. -/
def Note.tells (p : Session.Deed → Bool) : Note → Bool
  | .session _ deed => p deed
  | _ => false

variable {p : Session.Deed → Bool}

theorem countP_map_session (id : SessionId) (ds : List Session.Deed) :
    (ds.map (.session id)).countP (Note.tells p) = ds.countP p := by
  rw [List.countP_map]
  rfl

/-- What happens outside is no deed of a session. -/
theorem countP_noted_event (s : Service) (e : Event) :
    (s.noted (.event e)).countP (Note.tells p) = 0 := by
  cases e with
  | append payload =>
    simp only [noted]
    split <;> rfl
  | _ => rfl

theorem total_eq_zero {ns : List Nat} (h : ∀ n ∈ ns, n = 0) : total ns = 0 := by
  induction ns with
  | nil => rfl
  | cons n ns ih =>
    rw [total_cons, h n List.mem_cons_self, ih fun m hm => h m (List.mem_cons_of_mem n hm)]

theorem total_map_add {α : Type} (l : List α) (f g : α → Nat) :
    total (l.map fun a => f a + g a) = total (l.map f) + total (l.map g) := by
  induction l with
  | nil => rfl
  | cons a l ih =>
    simp only [List.map_cons, total_cons, ih]
    omega

/-- A number that counts at one place only. -/
theorem total_map_range_ite {n i : Nat} (hi : i < n) (k : Nat) :
    total ((List.range n).map fun j => if i = j then k else 0) = k := by
  induction n with
  | zero => exact absurd hi (Nat.not_lt_zero i)
  | succ n ih =>
    rw [List.range_succ, List.map_append, total_append]
    rcases Nat.lt_succ_iff_lt_or_eq.mp hi with hlt | rfl
    · rw [ih hlt]
      simp [Nat.ne_of_lt hlt]
    · rw [total_eq_zero]
      · simp
      · rintro m hm
        obtain ⟨j, hj, rfl⟩ := List.mem_map.mp hm
        exact if_neg (Nat.ne_of_gt (List.mem_range.mp hj))

/-- A deed that is noted is one session's. -/
theorem countP_singleton_eq_total {n : Nat} {note : Note}
    (hnone : ∀ id, n ≤ id → deedsOf id [note] = []) :
    [note].countP (Note.tells p) =
      total ((List.range n).map fun id => (deedsOf id [note]).countP p) := by
  cases note with
  | session id deed =>
    have hsingle : ∀ id', deedsOf id' [.session id deed] = if id = id' then [deed] else [] :=
      fun id' => deedsOf_map_session id' id [deed]
    have hlt : id < n := by
      refine Nat.lt_of_not_le ?_
      intro hle
      have hdeeds := hnone id hle
      rw [hsingle, if_pos rfl] at hdeeds
      cases hdeeds
    have hcount : ∀ id', (deedsOf id' [.session id deed]).countP p =
        if id = id' then [deed].countP p else 0 := by
      intro id'
      rw [hsingle]
      split <;> rfl
    simp only [hcount, total_map_range_ite hlt]
    exact countP_map_session id [deed]
  | annotated | appended =>
    rw [total_eq_zero]
    · rfl
    · rintro m hm
      obtain ⟨j, -, rfl⟩ := List.mem_map.mp hm
      rfl

/-- **Every deed is one session's**: the notes about single sessions account for all of them, once
there are notes about the first `n` sessions only. -/
theorem countP_eq_total {n : Nat} (hnone : ∀ id, n ≤ id → deedsOf id notes = []) :
    notes.countP (Note.tells p) =
      total ((List.range n).map fun id => (deedsOf id notes).countP p) := by
  induction notes with
  | nil =>
    rw [total_eq_zero]
    · rfl
    · rintro m hm
      obtain ⟨j, -, rfl⟩ := List.mem_map.mp hm
      rfl
  | cons note notes ih =>
    have hcons : ∀ id, deedsOf id (note :: notes) = deedsOf id [note] ++ deedsOf id notes :=
      fun id => deedsOf_append id [note] notes
    have hboth : ∀ id, n ≤ id → deedsOf id [note] = [] ∧ deedsOf id notes = [] := by
      intro id hle
      rw [← List.append_eq_nil_iff, ← hcons]
      exact hnone id hle
    simp only [hcons, List.countP_append, total_map_add]
    rw [← countP_singleton_eq_total fun id hle => (hboth id hle).1,
      ← ih fun id hle => (hboth id hle).2, ← List.countP_append, List.singleton_append]

theorem Run.countP_eq_total (hrun : Run start notes s) (p : Session.Deed → Bool) :
    notes.countP (Note.tells p) =
      total ((List.range s.sessions.length).map fun id => (deedsOf id notes).countP p) :=
  Service.countP_eq_total fun _ hle => hrun.deedsOf_of_le hle

/-! ### The counter of dropped commands -/

/-- Whether a note says that a command was dropped. -/
def Note.isDrop : Note → Bool
  | .session _ .aborted => true
  | _ => false

/-- **The number of commands dropped**, by whichever session. -/
def dropped (notes : List Note) : Nat :=
  notes.countP Note.isDrop

@[simp] theorem dropped_append (notes notes' : List Note) :
    dropped (notes ++ notes') = dropped notes + dropped notes' := by
  simp [dropped]

theorem dropped_eq_countP (notes : List Note) :
    dropped notes = notes.countP (Note.tells (· == .aborted)) := by
  refine List.countP_congr ?_
  rintro note -
  rcases note with ⟨id, d⟩ | _ | _
  · cases d <;> simp [Note.isDrop, Note.tells]
  · rfl
  · rfl

/-- Whatever happens outside has to do with the number of sessions only, unless it is an append. -/
theorem metric_handle_of_ne_append {α : Type} {f : Metrics → α}
    (hsessions : ∀ m sessionsActive, f { m with sessionsActive } = f m) (s : Service) {e : Event}
    (he : ∀ payload, e ≠ .append payload) : f (s.handle e).host.metrics = f s.host.metrics := by
  cases e with
  | append payload => exact absurd rfl (he payload)
  | connect limit => exact hsessions ..
  | reap =>
    simp only [handle, reap, Registry.reap]
    split
    · split
      · rfl
      · exact hsessions ..
    · rfl
  | _ => rfl

/-- A metric that appends and the number of sessions have nothing to do with is left alone by
whatever happens outside. -/
theorem metric_handle {α : Type} {f : Metrics → α}
    (hcounted : ∀ ring payload m, f (Engine.counted ring payload m) = f m)
    (hsessions : ∀ m sessionsActive, f { m with sessionsActive } = f m) (s : Service) (e : Event) :
    f (s.handle e).host.metrics = f s.host.metrics := by
  cases e with
  | append payload =>
    simp only [handle]
    split
    · exact Engine.metric_append hcounted s.engine payload s.host
    · rfl
  | _ => exact metric_handle_of_ne_append hsessions s (by simp)

@[simp] theorem commandsAborted_absorb (s : Service) (id : SessionId) (e : Session.Effect) :
    (s.absorb id e).host.metrics.commandsAborted =
      s.host.metrics.commandsAborted + if e = .commandAborted then 1 else 0 := by
  cases e <;> rfl

/-- **The counter counts what is dropped**, one move at a time. -/
theorem commandsAborted_of_act (hact : s.Act notes s') :
    s'.host.metrics.commandsAborted = s.host.metrics.commandsAborted + dropped notes := by
  cases hact with
  | event e =>
    rw [dropped_eq_countP, countP_noted_event, Nat.add_zero]
    exact metric_handle (f := Metrics.commandsAborted) (fun _ _ _ => rfl) (fun _ _ => rfl) s e
  | @serve _ _ r => exact Engine.commandsAborted_answer s.engine s.host r
  | session hx hadvance =>
    rw [commandsAborted_absorb, ← (Session.act_of_advance? hadvance).aborts_eq, dropped_eq_countP,
      countP_map_session]
    rfl
  | @annotate _ _ stamp => exact Engine.commandsAborted_append s.engine stamp.bytes s.host
  | wake => rfl

theorem Run.commandsAborted_eq (hrun : Run start notes s) :
    s.host.metrics.commandsAborted = start.host.metrics.commandsAborted + dropped notes := by
  induction hrun with
  | refl => rfl
  | move _ c hnext ih =>
    rw [commandsAborted_of_act (act_of_next? hnext), ih, dropped_append, Nat.add_assoc]

/-- **All drops together are the drops of the single sessions.** -/
theorem Run.dropped_eq (hrun : Run start notes s) :
    dropped notes =
      total ((List.range s.sessions.length).map fun id => Session.aborts (deedsOf id notes)) :=
  (dropped_eq_countP notes).trans (hrun.countP_eq_total _)

/-! ### Framing -/

/-- **No session of a service holds more than a command and one piece of input.** -/
theorem Run.bounded (hnew : start.sessions = []) (hrun : Run start notes s)
    (hx : s.sessions[id]? = some x) : x.Bounded x.limit := by
  obtain ⟨limit, hpast⟩ := hrun.past hnew hx
  have hbounded := hpast.life.bounded (Session.bounded_start limit)
  rw [hbounded.limit_eq]
  exact hbounded

/-- **What a session dispatches and what it drops does not depend on the pieces its input came
in.** In every run, a session that waits for input, or has come to the end of it, has had exactly
those lines of its stream carried out that are not longer than its limit, each once and in order.
It has dropped one command for every longer line, and one more when what follows the last line is
longer already. The counter has grown by what all sessions dropped. -/
theorem Run.framing (hnew : start.sessions = []) (hrun : Run start notes s) :
    (∀ id x, s.sessions[id]? = some x →
      (x.phase = .receiving ∨ .inputEnded ∈ deedsOf id notes) →
      Session.requests (deedsOf id notes) =
          (Session.accepted x.limit (Session.received (deedsOf id notes))).map Request.ofLine ∧
        Session.aborts (deedsOf id notes) =
          Session.overlong x.limit (Session.received (deedsOf id notes))) ∧
    s.host.metrics.commandsAborted = start.host.metrics.commandsAborted +
      total ((List.range s.sessions.length).map fun id => Session.aborts (deedsOf id notes)) := by
  refine ⟨?_, ?_⟩
  · intro id x hx hquiet
    obtain ⟨limit, hpast⟩ := hrun.past hnew hx
    obtain ⟨done, pending, hframed⟩ := hpast.framed
    exact hframed.quiescent hquiet
  · rw [hrun.commandsAborted_eq, hrun.dropped_eq]

/-- A session with room for two bytes gets three lines in two pieces. -/
def twoPieces : List Choice :=
  [.event (.connect 2), .event (.deliver 0 [0x61, 0x0a, 0x62]),
    .event (.deliver 0 [0x62, 0x62, 0x0a, 0x63, 0x63, 0x63])] ++
      List.replicate 12 (.actor (.session 0))

/-- The first of three lines is stored, the second one is too long and ends in the second piece,
and the third one is too long before it ends. -/
theorem framing_of_twoPieces :
    ∃ notes s, Run { engine := .inMemory, host := {} } notes s ∧
      Session.requests (deedsOf 0 notes) = [.append [0x61, 0x0a]] ∧
      Session.aborts (deedsOf 0 notes) = 2 ∧ s.host.metrics.commandsAborted = 2 := by
  have hrun := Run.play (.refl : Run { engine := .inMemory, host := {} } [] _) twoPieces
  refine ⟨_, _, hrun, ?_⟩
  obtain ⟨hsessions, hcounter⟩ := Run.framing rfl hrun
  have hquiet : (play { engine := .inMemory, host := {} } twoPieces).2.sessions[0]?.any
      (fun x => x.phase = .receiving ∧ x.limit = 2) := by decide +kernel
  obtain ⟨x, hx, hx'⟩ := (Option.any_eq_true _ _).mp hquiet
  obtain ⟨hphase, hlimit⟩ := of_decide_eq_true hx'
  obtain ⟨hrequests, haborts⟩ := hsessions 0 x hx (.inl hphase)
  rw [hlimit] at hrequests haborts
  refine ⟨hrequests.trans ?_, haborts.trans ?_, hcounter.trans ?_⟩ <;> decide +kernel

end Service

end CommandLog
