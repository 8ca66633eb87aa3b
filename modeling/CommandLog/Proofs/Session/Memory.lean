import CommandLog.Proofs.Session.Framing

/-!
# The memory of a session

A session looks at the size of what it holds in one place only, before it receives, and it adds to
what it holds in another. Still it never holds more than a command of the size limit and one piece
of input, whatever arrives and in whatever pieces, and even when memory is refused to it.

* `CommandLog.Session.ScarceStep` and `CommandLog.Session.Life` – **a session whose memory may run
  out**: it may be refused whatever it asks for in a receive. All its other steps are as usual, so
  the life of a session to which nothing is refused is one of these
  (`CommandLog.Session.Past.life`);
* `CommandLog.Backlog.Accounts` – what one piece of input does to the bytes held, with
  `CommandLog.Backlog.accounts_ingestWithin`;
* `CommandLog.Session.Bounded` – **the bound**, with what is known of the bytes held;
* `CommandLog.Session.Sifted` – **what becomes of the input**: each of its lines is dispatched whole
  or dropped, and only what belongs to neither is held;
* `CommandLog.Session.Life.memory_bounded` – both of them for every moment of a life, and all the
  time from there on.

What a session does with a line that does not fit into its memory is what it does with one that is
too long: the line is dropped and counted, as far as it has come, and the rest of it is skipped. So
which lines are dropped is not determined by the input any more, while their number still is what
is counted.
-/

namespace CommandLog

open Bytes (IsLine terminator)

namespace Backlog

variable {grants : Nat → Bool} {b b' : Backlog} {front piece pending : Bytes} {n : Nat}
  {ls : List Bytes}

/-! ### One piece of input -/

/-- **What is left of some bytes**: a number of lines is gone, and what follows them is held unless
it is skipped. -/
structure Accounts (stream : Bytes) (b : Backlog) (ls : List Bytes) (pending : Bytes) : Prop where
  /-- The lines and what follows them make up the bytes. -/
  stream_eq : stream = ls.flatten ++ pending
  /-- They are lines. -/
  isLine : ∀ l ∈ ls, IsLine l
  /-- What follows is held. -/
  kept : b.discarding = false → b.bytes = pending
  /-- Or it is skipped, and then it is the beginning of one line, of which nothing is held. -/
  skipped : b.discarding = true → b.bytes = [] ∧ terminator ∉ pending
  /-- The scanned bytes are what they are said to be. -/
  clean : b.Clean

/-- One line more at the front is gone as well. -/
theorem Accounts.cons {stream l : Bytes} (h : Accounts stream b ls pending) (hl : IsLine l) :
    Accounts (l ++ stream) b (l :: ls) pending where
  stream_eq := by rw [h.stream_eq, List.flatten_cons, List.append_assoc]
  isLine l' hl' := by
    rcases List.mem_cons.mp hl' with rfl | hrest
    · exact hl
    · exact h.isLine l' hrest
  kept := h.kept
  skipped := h.skipped
  clean := h.clean

/-- **A piece of input that is kept as far as memory goes**: whatever is refused is counted, line by
line, and so is the line that is skipped in the end. -/
theorem accounts_keepWithin (grants : Nat → Bool) (hclean : b.Clean)
    (hkeeps : b.discarding = false) (hopen : terminator ∉ b.bytes) (piece : Bytes) :
    ∃ ls pending, Accounts (b.bytes ++ piece) (b.keepWithin grants piece).2 ls pending ∧
      (b.keepWithin grants piece).1 =
        ls.length + (b.keepWithin grants piece).2.discarding.toNat := by
  fun_induction keepWithin grants b piece with
  | case1 b piece hgranted =>
    refine ⟨[], b.bytes ++ piece, ⟨rfl, List.forall_mem_nil _, ?_, ?_, hclean⟩, ?_⟩
    · intro _
      simp [bytes]
    · intro hskips
      rw [hkeeps] at hskips
      cases hskips
    · rw [hkeeps]
      rfl
  | case2 b piece hrefused hsplit =>
    have hnone := Bytes.splitLine?_eq_none_iff.mp hsplit
    refine ⟨[], b.bytes ++ piece, ⟨rfl, List.forall_mem_nil _, ?_, ?_, clean_abort⟩, rfl⟩
    · intro hkept
      cases hkept
    · intro _
      refine ⟨rfl, ?_⟩
      rw [List.mem_append, not_or]
      exact ⟨hopen, hnone⟩
  | case3 b piece hrefused l rest hsplit n b' heq ih =>
    -- the line that was begun ends in this piece, and is the first one that is gone
    obtain ⟨hpiece, -⟩ := Bytes.eq_append_of_splitLine?_eq_some hsplit
    have hline := (Bytes.isLine_of_splitLine?_eq_some hsplit).append_left hopen
    obtain ⟨ls, pending, haccounts, hcount⟩ := ih clean_empty rfl List.not_mem_nil
    rw [heq] at haccounts hcount
    refine ⟨(b.bytes ++ l) :: ls, pending, ?_, ?_⟩
    · rw [hpiece, ← List.append_assoc]
      exact haccounts.cons hline
    · simp only [List.length_cons] at hcount ⊢
      rw [hcount, Nat.add_right_comm]

/-- **A piece of input**, with the line that is skipped counted once, be it before or by this
piece. -/
theorem accounts_ingestWithin (grants : Nat → Bool) (hclean : b.Clean)
    (hkept : b.discarding = false → b.bytes = front)
    (hskipped : b.discarding = true → b.bytes = []) (hopen : terminator ∉ front) (piece : Bytes) :
    ∃ ls pending, Accounts (front ++ piece) (b.ingestWithin grants piece).2 ls pending ∧
      (b.ingestWithin grants piece).1 + b.discarding.toNat =
        ls.length + (b.ingestWithin grants piece).2.discarding.toNat := by
  unfold ingestWithin
  split
  · next hskips =>
    have hnothing := hskipped hskips
    split
    · next hsplit =>
      -- all of it belongs to the line that is skipped
      have hnone := Bytes.splitLine?_eq_none_iff.mp hsplit
      refine ⟨[], front ++ piece, ⟨rfl, List.forall_mem_nil _, ?_, ?_, hclean⟩, rfl⟩
      · intro hkeeps
        rw [hskips] at hkeeps
        cases hkeeps
      · intro _
        refine ⟨hnothing, ?_⟩
        rw [List.mem_append, not_or]
        exact ⟨hopen, hnone⟩
    · next l rest hsplit =>
      obtain ⟨hpiece, -⟩ := Bytes.eq_append_of_splitLine?_eq_some hsplit
      have hline := (Bytes.isLine_of_splitLine?_eq_some hsplit).append_left hopen
      have hsame : ({ b with discarding := false } : Backlog).bytes = [] := hnothing
      obtain ⟨ls, pending, haccounts, hcount⟩ := accounts_keepWithin grants
        (b := { b with discarding := false }) hclean rfl (by simp [hsame]) rest
      rw [hsame, List.nil_append] at haccounts
      refine ⟨(front ++ l) :: ls, pending, ?_, ?_⟩
      · rw [hpiece, ← List.append_assoc]
        exact haccounts.cons hline
      · rw [hcount, hskips, List.length_cons]
        exact Nat.add_right_comm _ _ _
  · next hkeeps =>
    rw [Bool.not_eq_true] at hkeeps
    have hheld := hkept hkeeps
    rw [hkeeps, ← hheld]
    exact accounts_keepWithin grants hclean hkeeps (hheld ▸ hopen) piece

end Backlog

/-- One receive gives so many bytes at most. -/
theorem Transport.length_le_of_receive {t t' : Transport} {piece : Bytes}
    (h : t.receive = (.piece piece, t')) : piece.length ≤ receiveLimit := by
  unfold receive at h
  split at h
  · split at h
    · cases h
    · cases h
      exact List.length_take_le _ _
  · split at h <;> cases h

namespace Session

variable {limit : Nat} {x y y' : Session} {ds ds' : List Deed} {gone kept : List Bytes}
  {pending : Bytes}

/-! ### Lives -/

/-- **One step of a session whose memory may run out.** -/
inductive ScarceStep : Session → List Deed → Session → Prop where
  /-- A step as usual. -/
  | usual {x x' : Session} {ds : List Deed} (h : Step x ds x') : ScarceStep x ds x'
  /-- It receives, and drops a number of lines for which no memory is granted. -/
  | receive {x : Session} {piece : Bytes} {t : Transport} (hphase : x.phase = .receiving)
    (hreceive : x.transport.receive = (.piece piece, t)) (grants : Nat → Bool) :
    ScarceStep x
      (.received piece :: List.replicate (x.backlog.ingestWithin grants piece).1 .aborted)
      { x with
        transport := t
        backlog := (x.backlog.ingestWithin grants piece).2
        phase := .framing }

/-- **The life of a session whose memory may run out**, with everything it does meanwhile. -/
inductive Life (x : Session) : List Deed → Session → Prop where
  /-- It has not gone on yet. -/
  | refl : Life x [] x
  /-- One step further. -/
  | step {ds ds' : List Deed} {y y' : Session} (h : Life x ds y) (hstep : ScarceStep y ds' y') :
    Life x (ds ++ ds') y'

/-- A session to which nothing is refused has a life as well. -/
theorem Past.life (h : Past limit ds x) : Life { limit } ds x := by
  induction h with
  | start => exact .refl
  | step _ hstep ih => exact ih.step (.usual hstep)

/-! ### The bound -/

/-- **The bytes that a session holds**, and how many they are at most. -/
structure Bounded (x : Session) (limit : Nat) : Prop where
  /-- The session has this limit. -/
  limit_eq : x.limit = limit
  /-- The scanned bytes are what they are said to be. -/
  clean : x.backlog.Clean
  /-- There are no more than a command and one piece of input. -/
  length_le : x.backlog.bytes.length ≤ limit + Transport.receiveLimit
  /-- Before a receive, no line is complete and none has grown too long. -/
  quiet : x.phase = .receiving → terminator ∉ x.backlog.bytes ∧ x.backlog.bytes.length ≤ limit
  /-- Nothing is held while input is skipped. -/
  skipped : x.backlog.discarding = true → x.backlog.bytes = []

theorem bounded_start (limit : Nat) : Bounded { limit } limit where
  limit_eq := rfl
  clean := Backlog.clean_empty
  length_le := Nat.zero_le _
  quiet := nofun
  skipped := nofun

/-- A step that leaves the backlog alone and does not go on to receive keeps the bound. -/
theorem Bounded.of_same_backlog (h : Bounded y limit) (hlimit : y'.limit = y.limit)
    (hbacklog : y'.backlog = y.backlog) (hphase : y'.phase ≠ .receiving) : Bounded y' limit where
  limit_eq := hlimit.trans h.limit_eq
  clean := hbacklog ▸ h.clean
  length_le := hbacklog ▸ h.length_le
  quiet hreceiving := absurd hreceiving hphase
  skipped := hbacklog ▸ h.skipped

/-- Nothing is skipped while something is held. -/
theorem Bounded.discarding_eq_false (h : Bounded y limit) (hne : y.backlog.bytes ≠ []) :
    y.backlog.discarding = false := by
  rw [Bool.eq_false_iff]
  intro hskips
  exact hne (h.skipped hskips)

/-- **A line that is found** was held, and nothing is skipped then. -/
theorem Bounded.next_line (h : Bounded y limit) {l : Bytes} {rest : Backlog}
    (hnext : y.backlog.next = .line l rest) :
    IsLine l ∧ y.backlog.bytes = l ++ rest.bytes ∧ rest.Clean ∧ y.backlog.discarding = false ∧
      rest.discarding = false := by
  obtain ⟨hline, hbytes, hclean, hsame⟩ := Backlog.next_line h.clean hnext
  have hkeeps := h.discarding_eq_false (by simp [hbytes, hline.ne_nil])
  exact ⟨hline, hbytes, hclean, hkeeps, hsame.trans hkeeps⟩

/-- To take a line out keeps the bound. -/
theorem Bounded.take_line (h : Bounded y limit) {l : Bytes} {rest : Backlog}
    (hnext : y.backlog.next = .line l rest) (hlimit : y'.limit = y.limit)
    (hbacklog : y'.backlog = rest) (hphase : y'.phase ≠ .receiving) : Bounded y' limit := by
  obtain ⟨-, hbytes, hclean, -, hkeeps⟩ := h.next_line hnext
  have hlength := h.length_le
  rw [hbytes, List.length_append] at hlength
  subst hbacklog
  refine ⟨hlimit.trans h.limit_eq, hclean, by omega, fun hreceiving => absurd hreceiving hphase, ?_⟩
  intro hskips
  rw [hkeeps] at hskips
  cases hskips

/-- **A receive keeps the bound**, whatever memory is granted: there was no more than a command. -/
theorem Bounded.receive (h : Bounded y limit) {piece : Bytes} {t t' : Transport}
    (hphase : y.phase = .receiving) (hreceive : t.receive = (.piece piece, t'))
    (grants : Nat → Bool) :
    Bounded
      { y with
        transport := t'
        backlog := (y.backlog.ingestWithin grants piece).2
        phase := .framing } limit := by
  obtain ⟨hopen, hshort⟩ := h.quiet hphase
  obtain ⟨ls, pending, haccounts, -⟩ :=
    Backlog.accounts_ingestWithin grants h.clean (fun _ => rfl) h.skipped hopen piece
  have hsize := Backlog.size_ingestWithin_le grants y.backlog piece
  rw [Backlog.size_eq_length_bytes, Backlog.size_eq_length_bytes] at hsize
  have hpiece := Transport.length_le_of_receive hreceive
  exact ⟨h.limit_eq, haccounts.clean, Nat.le_trans hsize (Nat.add_le_add hshort hpiece), nofun,
    fun hskips => (haccounts.skipped hskips).1⟩

/-- **Whatever a session does by itself** keeps the bound. -/
theorem Bounded.act (h : Bounded y limit) {cancelled : Bool} {e : Effect}
    (hact : y.Act cancelled e ds y') : Bounded y' limit := by
  cases hact with
  | drop hphase hnext => exact h.take_line hnext rfl rfl (by simp [hphase])
  | ask _ hnext => exact h.take_line hnext rfl rfl (by simp)
  | giveUp =>
    exact ⟨h.limit_eq, Backlog.clean_abort, Nat.zero_le _,
      fun _ => ⟨List.not_mem_nil, Nat.zero_le _⟩, fun _ => rfl⟩
  | await _ hnext hshort =>
    obtain ⟨hopen, hbytes, hclean, hsame⟩ := Backlog.next_unfinished h.clean hnext
    rw [Backlog.size_eq_length_bytes, h.limit_eq] at hshort
    refine ⟨h.limit_eq, hclean, ?_, fun _ => ⟨hopen, Nat.le_of_not_lt hshort⟩, ?_⟩
    · rw [hbytes]
      exact h.length_le
    · rw [hbytes, hsame]
      exact h.skipped
  | @receive piece t hphase hreceive =>
    have hreceived := h.receive hphase hreceive fun _ => true
    rw [Backlog.ingestWithin_of_granted] at hreceived
    exact hreceived
  | @send output left => exact h.of_same_backlog rfl rfl (by cases left <;> simp)
  | leaveAtEnd | leaveBroken | leaveWaiting | leaveBlocked | shutDown | signOff =>
    exact h.of_same_backlog rfl rfl nofun

/-- **Every step keeps the bound.** -/
theorem Bounded.step (h : Bounded y limit) (hstep : ScarceStep y ds y') : Bounded y' limit := by
  cases hstep with
  | usual hstep =>
    cases hstep with
    | own hadvance => exact h.act (act_of_advance? hadvance)
    | served _ answer => cases answer <;> exact h.of_same_backlog rfl rfl nofun
    | outside _ => exact ⟨h.limit_eq, h.clean, h.length_le, h.quiet, h.skipped⟩
  | receive hphase hreceive grants => exact h.receive hphase hreceive grants

theorem Life.bounded (hlife : Life x ds y) (h : Bounded x limit) : Bounded y limit := by
  induction hlife with
  | refl => exact h
  | step _ hstep ih => exact ih.step hstep

/-! ### What becomes of the input -/

/-- **What becomes of the input** of a session, from one moment of its life to another: what was
held and what was received in between is a number of lines, each dispatched or dropped, and
something that is held unless it is skipped. -/
structure Sifted (x : Session) (ds : List Deed) (y : Session) (gone kept : List Bytes)
    (pending : Bytes) : Prop where
  /-- The lines and what follows them make up the input. -/
  stream : x.backlog.bytes ++ received ds = gone.flatten ++ pending
  /-- They are lines. -/
  isLine : ∀ l ∈ gone, IsLine l
  /-- Some of them are kept, but not the one that was skipped already. -/
  kept_sublist : kept.Sublist (gone.drop x.backlog.discarding.toNat)
  /-- None of these is too long. -/
  kept_short : ∀ l ∈ kept, l.length ≤ y.limit
  /-- They are what is dispatched, behind the request that was made already; the last one may still
  wait for the lock. -/
  dispatched : requests ds ++ y.phase.waiting = x.phase.waiting ++ kept.map Request.ofLine
  /-- The others are dropped, each once, and so is the one that input is skipped for. -/
  dropped : aborts ds + kept.length + x.backlog.discarding.toNat =
    gone.length + y.backlog.discarding.toNat
  /-- What follows the lines is held. -/
  held : y.backlog.discarding = false → y.backlog.bytes = pending
  /-- Or it is skipped, and belongs to one line. -/
  skipped : y.backlog.discarding = true → terminator ∉ pending

theorem Bounded.sifted_refl (h : Bounded x limit) : Sifted x [] x [] [] x.backlog.bytes where
  stream := List.append_nil _
  isLine := nofun
  kept_sublist := List.nil_sublist _
  kept_short := nofun
  dispatched := (List.append_nil _).symm
  dropped := by simp
  held _ := rfl
  skipped hskips := by
    rw [h.skipped hskips]
    exact List.not_mem_nil

/-- A step that leaves the backlog alone and dispatches nothing new changes nothing. -/
theorem Sifted.of_same_backlog (h : Sifted x ds y gone kept pending) (hlimit : y'.limit = y.limit)
    (hbacklog : y'.backlog = y.backlog) (hstream : received ds' = [])
    (hwaiting : requests ds' ++ y'.phase.waiting = y.phase.waiting) (hdropped : aborts ds' = 0) :
    Sifted x (ds ++ ds') y' gone kept pending where
  stream := by rw [received_append, hstream, List.append_nil, h.stream]
  isLine := h.isLine
  kept_sublist := h.kept_sublist
  kept_short := hlimit ▸ h.kept_short
  dispatched := by
    rw [requests_append, List.append_assoc, hwaiting]
    exact h.dispatched
  dropped := by
    rw [aborts_append, hdropped, hbacklog]
    exact h.dropped
  held := hbacklog ▸ h.held
  skipped := hbacklog ▸ h.skipped

/-- **A line that is found** is dispatched or dropped. -/
theorem Sifted.take_line (h : Sifted x ds y gone kept pending) (hbounded : Bounded y limit)
    (hidle : y.phase.waiting = []) {l : Bytes} {rest : Backlog}
    (hnext : y.backlog.next = .line l rest) {more : List Bytes} (hmore : more.Sublist [l])
    (hshort : ∀ l ∈ more, l.length ≤ y.limit) (hlimit : y'.limit = y.limit)
    (hbacklog : y'.backlog = rest) (hstream : received ds' = [])
    (hwaiting : requests ds' ++ y'.phase.waiting = more.map Request.ofLine)
    (hdropped : aborts ds' + more.length = 1) :
    Sifted x (ds ++ ds') y' (gone ++ [l]) (kept ++ more) rest.bytes := by
  obtain ⟨hline, hbytes, -, hkeeps, hkeeps'⟩ := hbounded.next_line hnext
  have hdispatched := h.dispatched
  have hcount := h.dropped
  rw [hidle, List.append_nil] at hdispatched
  rw [hkeeps, Bool.toNat_false, Nat.add_zero] at hcount
  subst hbacklog
  refine ⟨?_, ?_, ?_, ?_, ?_, ?_, fun _ => rfl, ?_⟩
  · rw [received_append, hstream, List.append_nil, h.stream, ← h.held hkeeps, hbytes,
      List.flatten_append, List.flatten_singleton, List.append_assoc]
  · intro l' hl'
    rcases List.mem_append.mp hl' with hl' | hl'
    · exact h.isLine l' hl'
    · rw [List.mem_singleton.mp hl']
      exact hline
  · -- the line that was skipped at first, if there was one, is among those before this one
    rw [List.drop_append_of_le_length (by omega)]
    exact h.kept_sublist.append hmore
  · intro l' hl'
    rw [hlimit]
    rcases List.mem_append.mp hl' with hl' | hl'
    · exact h.kept_short l' hl'
    · exact hshort l' hl'
  · rw [requests_append, List.append_assoc, hwaiting, hdispatched, List.map_append,
      List.append_assoc]
  · rw [aborts_append, hkeeps', List.length_append, List.length_append, List.length_singleton,
      Bool.toNat_false]
    omega
  · intro hskips
    rw [hkeeps'] at hskips
    cases hskips

/-- **A receive**, in which lines are dropped for which no memory is granted. -/
theorem Sifted.receive (h : Sifted x ds y gone kept pending) (hbounded : Bounded y limit)
    (hphase : y.phase = .receiving) (piece : Bytes) (t : Transport) (grants : Nat → Bool) :
    ∃ gone' pending', Sifted x
      (ds ++ .received piece :: List.replicate (y.backlog.ingestWithin grants piece).1 .aborted)
      { y with
        transport := t
        backlog := (y.backlog.ingestWithin grants piece).2
        phase := .framing } gone' kept pending' := by
  have hopen : terminator ∉ pending := by
    cases hkeeps : y.backlog.discarding with
    | false => exact h.held hkeeps ▸ (hbounded.quiet hphase).1
    | true => exact h.skipped hkeeps
  obtain ⟨ls, pending', haccounts, hcount⟩ :=
    Backlog.accounts_ingestWithin grants hbounded.clean h.held hbounded.skipped hopen piece
  have hdispatched := h.dispatched
  have hdropped := h.dropped
  rw [hphase] at hdispatched
  refine ⟨gone ++ ls, pending', ⟨?_, ?_, ?_, h.kept_short, ?_, ?_, haccounts.kept,
    fun hskips => (haccounts.skipped hskips).2⟩⟩
  · rw [received_append, ← List.append_assoc, h.stream, List.flatten_append, List.append_assoc,
      List.append_assoc, ← haccounts.stream_eq]
    simp [received]
  · intro l hl
    rcases List.mem_append.mp hl with hl | hl
    · exact h.isLine l hl
    · exact haccounts.isLine l hl
  · exact h.kept_sublist.trans ((List.sublist_append_left gone ls).drop _)
  · rw [← hdispatched, requests_append]
    simp [requests, Phase.waiting]
  · have haborts : aborts (.received piece ::
        List.replicate (y.backlog.ingestWithin grants piece).1 .aborted) =
        (y.backlog.ingestWithin grants piece).1 := by simp [aborts]
    rw [aborts_append, haborts, List.length_append]
    change _ = gone.length + ls.length + (y.backlog.ingestWithin grants piece).2.discarding.toNat
    omega

/-- **Whatever a session does by itself** sifts its input. -/
theorem Sifted.act (h : Sifted x ds y gone kept pending) (hbounded : Bounded y limit)
    {cancelled : Bool} {e : Effect} (hact : y.Act cancelled e ds' y') :
    ∃ gone' kept' pending', Sifted x (ds ++ ds') y' gone' kept' pending' := by
  cases hact with
  | drop hphase hnext =>
    exact ⟨_, _, _, h.take_line hbounded (by rw [hphase]; rfl) hnext (List.nil_sublist _) nofun rfl
      rfl rfl (by rw [hphase]; rfl) rfl⟩
  | ask hphase hnext hshort =>
    refine ⟨_, _, _, h.take_line hbounded (by rw [hphase]; rfl) hnext (List.Sublist.refl _) ?_ rfl
      rfl rfl rfl rfl⟩
    intro l hl
    rw [List.mem_singleton.mp hl]
    exact Nat.le_of_not_lt hshort
  | giveUp hphase hnext hlong =>
    obtain ⟨hopen, hbytes, -, -⟩ := Backlog.next_unfinished hbounded.clean hnext
    rw [Backlog.size_eq_length_bytes] at hlong
    -- something is held, so the line was not given up before
    have hkeeps := hbounded.discarding_eq_false
      (hbytes ▸ List.ne_nil_of_length_pos (Nat.zero_lt_of_lt hlong))
    have hdispatched := h.dispatched
    have hcount := h.dropped
    rw [hphase] at hdispatched
    refine ⟨gone, kept, pending, ⟨?_, h.isLine, h.kept_sublist, h.kept_short, ?_, ?_, nofun, ?_⟩⟩
    · rw [received_append, ← List.append_assoc, h.stream]
      exact List.append_nil _
    · rw [requests_append, ← hdispatched]
      simp [requests, Phase.waiting]
    · rw [aborts_append]
      change aborts ds + 1 + _ + _ = _ + 1
      rw [hkeeps, Bool.toNat_false] at hcount
      omega
    · intro _
      rw [← h.held hkeeps, ← hbytes]
      exact hopen
  | await hphase hnext =>
    obtain ⟨-, hbytes, -, hsame⟩ := Backlog.next_unfinished hbounded.clean hnext
    have hdispatched := h.dispatched
    rw [hphase] at hdispatched
    refine ⟨gone, kept, pending, ⟨?_, h.isLine, h.kept_sublist, h.kept_short, ?_, ?_, ?_, ?_⟩⟩
    · rw [List.append_nil]
      exact h.stream
    · rw [List.append_nil]
      exact hdispatched
    · rw [List.append_nil, hsame]
      exact h.dropped
    · rw [hsame, hbytes]
      exact h.held
    · rw [hsame]
      exact h.skipped
  | @receive piece t hphase hreceive =>
    obtain ⟨gone', pending', hsifted⟩ := h.receive hbounded hphase piece t fun _ => true
    rw [Backlog.ingestWithin_of_granted] at hsifted
    exact ⟨gone', kept, pending', hsifted⟩
  | @send output left t hphase =>
    refine ⟨_, _, _, h.of_same_backlog rfl rfl rfl ?_ rfl⟩
    rw [hphase]
    cases left <;> rfl
  | leaveAtEnd hphase | leaveBroken hphase | leaveWaiting hphase | leaveBlocked hphase
  | shutDown hphase | signOff hphase =>
    exact ⟨_, _, _, h.of_same_backlog rfl rfl rfl (by rw [hphase]; rfl) rfl⟩

/-- **Every step sifts the input**, whatever memory is granted. -/
theorem Sifted.step (h : Sifted x ds y gone kept pending) (hbounded : Bounded y limit)
    (hstep : ScarceStep y ds' y') :
    ∃ gone' kept' pending', Sifted x (ds ++ ds') y' gone' kept' pending' := by
  cases hstep with
  | usual hstep =>
    cases hstep with
    | own hadvance => exact h.act hbounded (act_of_advance? hadvance)
    | served hphase answer =>
      refine ⟨_, _, _, h.of_same_backlog ?_ ?_ rfl ?_ rfl⟩
      · cases answer <;> rfl
      · cases answer <;> rfl
      · rw [hphase]
        cases answer <;> rfl
    | outside _ => exact ⟨_, _, _, h.of_same_backlog rfl rfl rfl rfl rfl⟩
  | receive hphase hreceive grants =>
    obtain ⟨gone', pending', hsifted⟩ := h.receive hbounded hphase _ _ grants
    exact ⟨gone', kept, pending', hsifted⟩

theorem Life.sifted (hlife : Life x ds y) (hbounded : Bounded x limit) :
    ∃ gone kept pending, Sifted x ds y gone kept pending := by
  induction hlife with
  | refl => exact ⟨_, _, _, hbounded.sifted_refl⟩
  | step hlife hstep ih =>
    obtain ⟨_, _, _, hsifted⟩ := ih
    exact hsifted.step (hlife.bounded hbounded) hstep

/-- **The memory of a session is bounded.** At every moment of a life that began with nothing
received, whatever arrives and whatever memory is granted,

* no more is held than a command of the size limit and one piece of input;
* before a receive no terminator is held, and no more than a command;
* nothing is held while input is skipped;
* and all the time from then on each line of what was held and of what is received is dispatched
  whole or dropped, the rest of a line that is skipped already is dropped, and only what follows
  the lines is held. So nothing of a command that was dropped becomes part of another one. -/
theorem Life.memory_bounded (hlife : Life { limit } ds x) :
    x.backlog.bytes.length ≤ limit + Transport.receiveLimit ∧
    (x.phase = .receiving → terminator ∉ x.backlog.bytes ∧ x.backlog.bytes.length ≤ limit) ∧
    (x.backlog.discarding = true → x.backlog.bytes = []) ∧
    ∀ ds' y, Life x ds' y → ∃ gone kept pending, Sifted x ds' y gone kept pending := by
  have hbounded := hlife.bounded (bounded_start limit)
  exact ⟨hbounded.length_le, hbounded.quiet, hbounded.skipped,
    fun ds' y hlater => hlater.sifted hbounded⟩

/-- Two bytes of a command have arrived, and no memory is granted for them. -/
theorem memory_bounded_of_refused :
    ∃ ds x, Life { limit := 4 } ds x ∧ aborts ds = 1 ∧ x.backlog.discarding = true ∧
      x.backlog.bytes = [] := by
  have harrived : Step { limit := 4 } []
      { limit := 4, transport := { inbound := [[0x61, 0x62]] } } :=
    .outside (.deliver {} [0x61, 0x62])
  have hwaits : Step { limit := 4, transport := { inbound := [[0x61, 0x62]] } } []
      { limit := 4, phase := .receiving, transport := { inbound := [[0x61, 0x62]] } } :=
    .own (rfl : advance? false _ = _)
  have hrefused : Backlog.empty.ingestWithin (fun _ => false) [0x61, 0x62] = (1, .abort) := by
    rw [Backlog.ingestWithin, Backlog.keepWithin]
    rfl
  have hdrops : ScarceStep
      { limit := 4, phase := .receiving, transport := { inbound := [[0x61, 0x62]] } }
      (.received [0x61, 0x62] ::
        List.replicate (Backlog.empty.ingestWithin (fun _ => false) [0x61, 0x62]).1 .aborted)
      { limit := 4, backlog := (Backlog.empty.ingestWithin (fun _ => false) [0x61, 0x62]).2 } :=
    .receive rfl rfl _
  rw [hrefused] at hdrops
  have hlife := Life.step (.step (.step .refl (.usual harrived)) (.usual hwaits)) hdrops
  obtain ⟨-, -, hskipped, -⟩ := hlife.memory_bounded
  exact ⟨_, _, hlife, rfl, rfl, hskipped rfl⟩

end Session

end CommandLog
