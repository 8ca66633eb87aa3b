import CommandLog.Proofs.Engine.Mirror
import CommandLog.Proofs.Service.Seek
import CommandLog.Proofs.Utf8

/-!
# A text from end to end

A client ends a text with a terminator unless it has one already, its bytes travel in any pieces,
and a session carries out its lines and sends the answers. So a text becomes one command, provided
that it is one line and no control line.

* `CommandLog.Command.IsOneLine` and `CommandLog.Command.exists_terminated_eq` – a text of one line,
  and what a client makes of it;
* `CommandLog.Client.send_eq_ok` – what it makes of a reply;
* `CommandLog.Service.Sent` – **what a text leaves behind**, however many lines it has, and
  `CommandLog.Service.Exchange.sent` – that every exchange about a text does;
* `CommandLog.Service.Stored` – **what a text of one line leaves behind**
  (`CommandLog.Service.Sent.stored`);
* `CommandLog.Service.Undisturbed.text_stored` – **a client's text is stored as one command**, and
  what becomes of it otherwise;
* `CommandLog.Service.not_every_text_stored` – that a control line, a text of two lines and a text
  that does not fit a record are no such commands.

A session knows nothing of texts. It deals with each line by itself, and so a text of more lines is
as many commands, of which some may be control lines and some may be refused.
-/

namespace CommandLog

open Bytes (IsLine ofString terminator)

/-! ### The client -/

theorem Bytes.ofString_newline : ofString "\n" = [terminator] := by
  decide +kernel

/-- **A text of one line**: it has no line feed but the one at its end, if there is one. -/
def Command.IsOneLine (text : String) : Prop :=
  '\n' ∉ text.toList.dropLast

/-- A text without a line feed is a line as soon as it is terminated, and so is one whose only line
feed is at its end, which counts as its terminator. -/
theorem Command.exists_terminated_eq {text : String} (htext : IsOneLine text) :
    ∃ body, terminator ∉ body ∧ terminated text = body ++ [terminator] ∧
      (ofString text = body ∨ ofString text = body ++ [terminator]) := by
  by_cases hmem : '\n' ∈ text.toList
  · -- the line feed is the last character
    have hne : text.toList ≠ [] := List.ne_nil_of_mem hmem
    have hlast : text.toList.dropLast ++ [text.toList.getLast hne] = text.toList :=
      List.dropLast_concat_getLast hne
    rw [← hlast, List.mem_append, List.mem_singleton] at hmem
    have hsplit : text = String.ofList text.toList.dropLast ++ "\n" := by
      rw [← hmem.resolve_left htext] at hlast
      rw [← String.toList_inj, String.toList_append, String.toList_ofList]
      exact hlast.symm
    have hbytes : ofString text = ofString (.ofList text.toList.dropLast) ++ [terminator] := by
      conv_lhs => rw [hsplit, Bytes.ofString_append, Bytes.ofString_newline]
    refine ⟨ofString (.ofList text.toList.dropLast), ?_, ?_, .inr hbytes⟩
    · rw [Bytes.terminator_mem_ofString_iff, String.toList_ofList]
      exact htext
    · rw [terminated, if_pos (by simp [hbytes]), hbytes]
  · rw [← Bytes.terminator_mem_ofString_iff] at hmem
    refine ⟨ofString text, hmem, ?_, .inl rfl⟩
    rw [terminated, if_neg]
    intro hlast
    exact hmem (List.mem_of_getLast? hlast)

/-- Nothing of a terminated text is behind its lines. -/
theorem Command.unterminated_terminated (text : String) : (terminated text).unterminated = [] := by
  rw [terminated]
  split
  · next hlast =>
    obtain ⟨front, hfront⟩ := List.getLast?_eq_some_iff.mp hlast
    rw [hfront]
    exact (Bytes.lines_append_terminator front).2
  · exact (Bytes.lines_append_terminator (ofString text)).2

/-- **What a client makes of a reply**: it says so when the reply is empty, and only then. -/
theorem Client.send_eq_ok {network : Network} {address : String} {peer : Peer} {idle : Nat}
    (htarget : checkTarget address = .ok ()) (hpeer : network address = .ok peer)
    (hidle : idle ≠ 0) (text : String) :
    ∃ notice, Client.send network address text idle = .ok
        { exchange := { sent := Command.terminated text, reply := peer.reply.flatten }, notice } ∧
      (notice.isSome ↔ peer.reply.flatten = []) := by
  simp only [Client.send, exchange_eq_ok htarget hpeer hidle]
  refine ⟨_, rfl, ?_⟩
  by_cases hempty : peer.reply.flatten = [] <;> simp [hempty]

/-! ### The engine -/

/-- A log with an entry in it is not empty. -/
theorem Engine.retainedLog_append_ne_nil (es : List Entry) {x : Entry} (hx : x.bytes ≠ []) :
    retainedLog (es ++ [x]) ≠ [] := by
  rw [retainedLog, Ring.rtake_append_singleton es x (by decide), List.map_append,
    List.flatten_append]
  intro hnil
  have hlast := (List.append_eq_nil_iff.mp hnil).2
  exact hx (by simpa using hlast)

namespace Service

open Session (requests replies)

variable {s s' : Service} {id : SessionId} {x y : Session} {notes : List Note} {ps : List Bytes}
  {n : Nat} {es : List Entry} {text : String}

/-! ### The whole way -/

/-- **What a text leaves behind**, from one state of a service to another one. -/
structure Sent (id : SessionId) (text : String) (s : Service) (notes : List Note) (s' : Service)
    (x y : Session) : Prop where
  /-- The session waits for input again. -/
  idle : y.Idle
  /-- Nobody holds it up. -/
  undisturbed : Undisturbed id s' y
  /-- It has the limit that it had. -/
  limit : y.limit = x.limit
  /-- It has sent its answers and nothing else. -/
  output : y.transport.output = x.transport.output ++ (replies (deedsOf id notes)).flatten
  /-- The lines of the command were carried out, one after the other and nothing else, and these
  are the answers. -/
  carried : (replies (deedsOf id notes), s'.engine, s'.host.disk) =
    s.engine.carryOut s.host.disk ((Command.terminated text).lines.map Request.ofLine)

/-- **What a text of one line leaves behind**, with the answers that were given. -/
structure Stored (text : String) (es : List Entry) (s : Service) (answers : List Bytes)
    (s' : Service) : Prop where
  /-- A command that is accepted has been stored, and the one answer is the log that ends in it. -/
  accepted : ¬Command.seekMark <+: Command.terminated text →
    s.engine.accepts (Command.terminated text) = true →
    s'.engine.ring = (s.engine.ring.append ⟨Command.terminated text⟩).2 ∧
    s'.engine.ring.Retains (es ++ [⟨Command.terminated text⟩]) ∧
    answers = [s'.engine.readFrom 0]
  /-- A command that is refused has left nothing behind, and has had no answer. -/
  refused : ¬Command.seekMark <+: Command.terminated text →
    s.engine.accepts (Command.terminated text) = false →
    s'.engine = s.engine ∧ s'.host.disk = s.host.disk ∧ answers = []
  /-- A control line has left nothing behind either, and has had its own answer. -/
  control : Command.seekMark <+: Command.terminated text →
    s'.engine = s.engine ∧ s'.host.disk = s.host.disk ∧
    answers = (Engine.response es (.ofLine (Command.terminated text))).toList

/-- **Every exchange about a text** ends like this. -/
theorem Exchange.sent (h : Exchange id s n ps notes s') (hx : Undisturbed id s x)
    (hready : x.Ready) (hps : ps.flatten = Command.terminated text)
    (hfits : (Command.terminated text).length ≤ x.limit)
    (hrest : s'.step? (.session id) = none) : ∃ y, Sent id text s notes s' x y := by
  obtain ⟨y, hy, -, hlimit, hrequests, houtput, hwaits⟩ := h.attended_of_ready hx hready hrest
  rw [hps] at hrequests hwaits
  rw [Session.accepted_of_length_le hfits] at hrequests
  exact ⟨y, hwaits (Command.unterminated_terminated text), hy, hlimit, houtput,
    hrequests ▸ h.carried hx⟩

/-- **A text of one line** is one request, and this is what becomes of it. -/
theorem Sent.stored (h : Sent id text s notes s' x y) (hlog : s.engine.ring.Retains es)
    (htext : Command.IsOneLine text) : Stored text es s (replies (deedsOf id notes)) s' := by
  obtain ⟨body, hbody, hterminated, -⟩ := Command.exists_terminated_eq htext
  have hline : IsLine (Command.terminated text) := ⟨body, hbody, hterminated⟩
  have hcarried := h.carried
  rw [hline.lines_eq.1, List.map_singleton, Engine.carryOut_singleton, Prod.mk.injEq,
    Prod.mk.injEq] at hcarried
  obtain ⟨hreplies, hengine, hdisk⟩ := hcarried
  refine ⟨fun hplain haccepts => ?_, fun hplain hrefused => ?_, fun hmarked => ?_⟩
  · obtain ⟨e', d', happend, hring, -⟩ := Engine.append_of_accepted (h := s.host) haccepts
    rw [Request.ofLine_eq_append_iff.mpr ⟨rfl, hplain⟩] at hreplies hengine
    simp only [Engine.answer, happend] at hreplies hengine
    subst hengine
    exact ⟨hring, hring ▸ hlog.append _, hreplies⟩
  · rw [Request.ofLine_eq_append_iff.mpr ⟨rfl, hplain⟩] at hreplies hengine hdisk
    simp only [Engine.answer, Engine.append_of_refused hrefused] at hreplies hengine hdisk
    exact ⟨hengine, hdisk, hreplies⟩
  · have hother : ∀ line, Request.ofLine (Command.terminated text) ≠ .append line :=
      fun line heq => (Request.ofLine_eq_append_iff.mp heq).2 hmarked
    obtain ⟨hengine', hdisk'⟩ :=
      Engine.after_answer_of_ne_append (e := s.engine) (h := s.host) hother
    rw [Engine.answer_eq_response hlog hother] at hreplies
    exact ⟨hengine.trans hengine', hdisk.trans hdisk', hreplies⟩

/-- **A client's text is stored as one command.** For every log, every text and all pieces, with
every session that holds no input, that nobody holds up and whose limit the terminated text does not
exceed:

* if the text is one line, it is terminated by one terminator at its end, and has no other one;
* the exchange comes to an end, after a number of steps that is bounded by the length of the
  terminated text, and the session waits for input again;
* by then the lines of the text were carried out, and nothing else, and the session has sent the
  answers;
* if the text is one line that does not start with the seek mark, just this one entry was stored and
  the session has sent one answer, which is the whole log with the entry in it. A command that does
  not fit the journal is not stored and has no answer;
* if the text is one line that starts with the seek mark, it is a control line: nothing is stored,
  and the session has sent its answer, if there is one;
* the client sends the terminated text and takes the answers for the reply. The reply is not empty
  when one command was stored. -/
theorem Undisturbed.text_stored (hlog : s.engine.ring.Retains es) (hx : Undisturbed id s x)
    (hready : x.Ready) (hfits : (Command.terminated text).length ≤ x.limit) :
    (Command.IsOneLine text → ∃ body, terminator ∉ body ∧
      Command.terminated text = body ++ [terminator] ∧
      (ofString text = body ∨ ofString text = body ++ [terminator])) ∧
    (∀ ps, ∃ n notes s', Exchange id s n ps notes s' ∧ s'.step? (.session id) = none) ∧
    ∀ n ps notes s', Exchange id s n ps notes s' → ps.flatten = Command.terminated text →
      n ≤ 4 + 8 * ps.flatten.length ∧
      (s'.step? (.session id) = none → ∃ y, Sent id text s notes s' x y ∧
        (Command.IsOneLine text → Stored text es s (replies (deedsOf id notes)) s') ∧
        ∀ network address peer idle, Client.checkTarget address = .ok () →
          network address = .ok peer → idle ≠ 0 →
          y.transport.output = x.transport.output ++ peer.reply.flatten →
          ∃ answer, Client.send network address text idle = .ok answer ∧
            answer.exchange.sent = ps.flatten ∧
            answer.exchange.reply = (replies (deedsOf id notes)).flatten ∧
            (Command.IsOneLine text → ¬Command.seekMark <+: Command.terminated text →
              s.engine.accepts (Command.terminated text) = true → answer.notice = none)) := by
  refine ⟨Command.exists_terminated_eq, exists_exchange hx, fun n ps notes s' hexchange hps =>
    ⟨?_, fun hrest => ?_⟩⟩
  · obtain ⟨y, -, hweight, -⟩ := hexchange.undisturbed hx
    have hlight := hready.weight_le
    omega
  · obtain ⟨y, hy⟩ := hexchange.sent hx hready hps hfits hrest
    refine ⟨y, hy, hy.stored hlog, fun network address peer idle htarget hpeer hwait hreply => ?_⟩
    rw [hy.output] at hreply
    have hreply := List.append_cancel_left hreply
    obtain ⟨notice, hanswer, hnotice⟩ := Client.send_eq_ok htarget hpeer hwait text
    refine ⟨_, hanswer, hps.symm, hreply.symm, fun htext hplain haccepts => ?_⟩
    obtain ⟨-, hring, hone⟩ := (hy.stored hlog htext).accepted hplain haccepts
    obtain ⟨body, -, hterminated, -⟩ := Command.exists_terminated_eq htext
    rw [← Option.not_isSome_iff_eq_none, hnotice, ← hreply, hone, List.flatten_singleton,
      Engine.readFrom_eq hring, List.drop_zero]
    exact Engine.retainedLog_append_ne_nil es (by simp [hterminated])

/-- A session has just been started, and nothing is stored. -/
def newcomer : Service where
  engine := .inMemory
  host := {}
  sessions := [{ limit := 64 }]

theorem undisturbed_newcomer : Undisturbed 0 newcomer { limit := 64 } :=
  ⟨rfl, rfl, rfl, rfl, rfl, (Session.ready_start 64).transport⟩

/-- A short text comes in two pieces. -/
theorem text_stored_of_newcomer :
    ∃ n notes s' y, Exchange 0 newcomer n [[0x68], [0x69, 0x0a]] notes s' ∧
      s'.sessions[0]? = some y ∧ y.transport.output = [0x68, 0x69, 0x0a] ∧
      s'.engine.ring.entries = [⟨[0x68, 0x69, 0x0a]⟩] := by
  have hlog : newcomer.engine.ring.Retains [] := Ring.retains_empty (by decide)
  have hhi : Command.terminated "hi" = [0x68, 0x69, 0x0a] := by decide +kernel
  have hone : Command.IsOneLine "hi" := by
    rw [Command.IsOneLine]
    decide
  obtain ⟨-, hends, hall⟩ := Undisturbed.text_stored hlog undisturbed_newcomer
    (Session.ready_start 64) (by decide +kernel : (Command.terminated "hi").length ≤ 64)
  obtain ⟨n, notes, s', hexchange, hrest⟩ := hends [[0x68], [0x69, 0x0a]]
  obtain ⟨-, hdone⟩ := hall n _ notes s' hexchange hhi.symm
  obtain ⟨y, hy, hstored, -⟩ := hdone hrest
  obtain ⟨-, hring, hanswers⟩ := (hstored hone).accepted (by decide +kernel) rfl
  have houtput := hy.output
  rw [hanswers, Engine.readFrom_eq hring, hhi] at houtput
  rw [hhi] at hring
  exact ⟨n, notes, s', y, hexchange, hy.undisturbed.find, houtput.trans (by decide +kernel),
    hring.entries_eq.trans (by decide)⟩

end Service

/-! ### Other texts -/

/-- A text of one letter, so many times. -/
def longText (n : Nat) : String :=
  .ofList (.replicate n 'a')

theorem terminated_longText (n : Nat) :
    Command.terminated (longText n) = List.replicate n 0x61 ++ [terminator] := by
  have hbytes : ofString (longText n) = List.replicate n 0x61 := by
    rw [longText, Bytes.ofString_eq, String.toList_ofList]
    induction n with
    | zero => rfl
    | succ n ih =>
      rw [List.replicate_succ, List.flatMap_cons, ih, List.replicate_succ]
      rfl
  rw [Command.terminated, hbytes, if_neg]
  intro hlast
  exact absurd (List.eq_of_mem_replicate (List.mem_of_getLast? hlast)) (by decide)

/-- A text without the first letter of the seek mark is no control line. -/
theorem unmarked_longText (n : Nat) : ¬Command.seekMark <+: Command.terminated (longText n) := by
  rw [terminated_longText]
  intro hmarked
  have hmem : (0x41 : UInt8) ∈ List.replicate n 0x61 ++ [terminator] :=
    hmarked.subset (by decide)
  rcases List.mem_append.mp hmem with hmem | hmem
  · exact absurd (List.eq_of_mem_replicate hmem) (by decide)
  · exact absurd (List.mem_singleton.mp hmem) (by decide)

namespace Service

/-- **Not every text is stored as one command**: a control line is not stored, a text of two lines
is stored as two commands, and a text that does not fit a record is not stored in a journal. -/
theorem not_every_text_stored :
    (∃ n notes s', Exchange 0 newcomer n [Command.terminated "AESDCHAR_IOCSEEKTO:0,0"] notes s' ∧
      s'.step? (.session 0) = none ∧ s'.engine.ring.entries = []) ∧
    (∃ n notes s', Exchange 0 newcomer n [Command.terminated "a\nb"] notes s' ∧
      s'.step? (.session 0) = none ∧
      s'.engine.ring.entries = [⟨[0x61, 0x0a]⟩, ⟨[0x62, 0x0a]⟩]) ∧
    ∃ e h, Engine.open (some Engine.examplePath) {} = (.ok e, h) ∧
      ∃ n notes s', Exchange 0 { engine := e, host := h, sessions := [{ limit := 2 ^ 33 }] } n
          [Command.terminated (longText (2 ^ 32))] notes s' ∧
        s'.step? (.session 0) = none ∧ s'.engine.ring.entries = [] := by
  have hlog : newcomer.engine.ring.Retains [] := Ring.retains_empty (by decide)
  refine ⟨?_, ?_, ?_⟩
  · obtain ⟨n, notes, s', hexchange, hrest⟩ :=
      exists_exchange undisturbed_newcomer [Command.terminated "AESDCHAR_IOCSEEKTO:0,0"]
    obtain ⟨y, hy⟩ := hexchange.sent undisturbed_newcomer (Session.ready_start 64)
      List.flatten_singleton (by decide +kernel) hrest
    have hentries := congrArg (fun outcome => outcome.2.1.ring.entries) hy.carried
    exact ⟨n, notes, s', hexchange, hrest, hentries.trans (by decide +kernel)⟩
  · obtain ⟨n, notes, s', hexchange, hrest⟩ :=
      exists_exchange undisturbed_newcomer [Command.terminated "a\nb"]
    obtain ⟨y, hy⟩ := hexchange.sent undisturbed_newcomer (Session.ready_start 64)
      List.flatten_singleton (by decide +kernel) hrest
    have hentries := congrArg (fun outcome => outcome.2.1.ring.entries) hy.carried
    exact ⟨n, notes, s', hexchange, hrest, hentries.trans (by decide +kernel)⟩
  · obtain ⟨e, h, hopen, hm⟩ := Engine.open_empty
    have hlength : (Command.terminated (longText (2 ^ 32))).length = 2 ^ 32 + 1 := by
      rw [terminated_longText, List.length_append, List.length_replicate, List.length_singleton]
    have hx : Undisturbed 0 { engine := e, host := h, sessions := [{ limit := 2 ^ 33 }] }
        { limit := 2 ^ 33 } :=
      ⟨rfl, rfl, rfl, rfl, rfl, (Session.ready_start _).transport⟩
    obtain ⟨n, notes, s', hexchange, hrest⟩ :=
      exists_exchange hx [Command.terminated (longText (2 ^ 32))]
    have htext : Command.IsOneLine (longText (2 ^ 32)) := by
      intro hmem
      have hletter := List.dropLast_subset _ hmem
      rw [longText, String.toList_ofList] at hletter
      exact absurd (List.eq_of_mem_replicate hletter) (by decide)
    obtain ⟨y, hy⟩ := hexchange.sent hx (Session.ready_start _) List.flatten_singleton
      (by rw [hlength]; norm_num) hrest
    have hlong : Journal.fits (Command.terminated (longText (2 ^ 32))) = false := by
      rw [Journal.fits, hlength]
      decide
    obtain ⟨hengine, -⟩ :=
      (hy.stored hm.ring htext).refused (unmarked_longText _) (hm.refuses hlong)
    exact ⟨e, h, hopen, n, notes, s', hexchange, hrest, hengine ▸ hm.ring.entries_eq⟩

end Service

end CommandLog
