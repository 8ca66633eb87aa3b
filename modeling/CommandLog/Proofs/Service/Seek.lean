import CommandLog.Client
import CommandLog.Proofs.Command
import CommandLog.Proofs.Service.Exchange
import CommandLog.Proofs.Service.Whole

/-!
# A seek from end to end

A client writes down a position, its line travels in any pieces, a session reads the position and
has the log walked twice for it, and the client takes what comes back. What it gets is what the log
holds from the position on, and it gets nothing just when there is no such position.

* `CommandLog.Engine.Covers` – whether a log has a byte at a position;
* `CommandLog.Engine.answer_seek_of_covered` and `CommandLog.Engine.answer_seek_of_uncovered` – what
  a position is answered with;
* `CommandLog.Client.seek_eq_ok` – what a client makes of a reply;
* `CommandLog.Service.Sought` – **what a seek leaves behind**, and
  `CommandLog.Service.Exchange.sought` – that every exchange about a control line does;
* `CommandLog.Service.Undisturbed.seek_answered` – **a client's seek is answered**, for every log,
  every position and all pieces, and the session serves what comes after it.

A reply that is empty means one thing only because no other reply is: the byte at the position is in
the answer.
-/

namespace CommandLog

/-! ### The answer of the engine -/

namespace Engine

variable {e : Engine} {es : List Entry} {x : Entry} {index offset : UInt32}

/-- Whether the log has a byte at a position. -/
def Covers (e : Engine) (index offset : Nat) : Prop :=
  ∃ x, e.ring.entries[index]? = some x ∧ offset < x.size

/-- **A position in the log** is answered with the rest of the entry there and all newer ones. -/
theorem answer_seek_of_covered (hring : e.ring.Retains es) (h : Host)
    (hx : e.ring.entries[index.toNat]? = some x) (hlt : offset.toNat < x.size) :
    (e.answer h (.seek index offset)).1 =
      some (x.bytes.drop offset.toNat ++
        ((e.ring.entries.drop (index.toNat + 1)).map Entry.bytes).flatten) := by
  have hseek := (seek_eq_ok_iff hring).mpr ⟨x, hx, hlt, rfl⟩
  simp only [answer, hseek, readFrom_position hring hx hlt]

/-- **A position outside the log** is answered with nothing. -/
theorem answer_seek_of_uncovered (hring : e.ring.Retains es) (h : Host)
    (hout : ¬e.Covers index.toNat offset.toNat) : (e.answer h (.seek index offset)).1 = none := by
  simp only [answer]
  split
  · next hseek =>
    obtain ⟨x, hx, hlt, -⟩ := (seek_eq_ok_iff hring).mp hseek
    exact absurd ⟨x, hx, hlt⟩ hout
  · rfl

end Engine

/-- The answer to a position in the log is not empty. -/
theorem Entry.drop_append_ne_nil {x : Entry} {offset : Nat} (hlt : offset < x.size) (rest : Bytes) :
    x.bytes.drop offset ++ rest ≠ [] := by
  intro hnil
  have hdrop := List.drop_eq_nil_iff.mp (List.append_eq_nil_iff.mp hnil).1
  exact Nat.not_lt.mpr hdrop hlt

/-! ### The client -/

namespace Client

variable {network : Network} {address : String} {peer : Peer} {idle : Nat}

/-- A client that gets a connection sends what it was told to, and takes what comes back. -/
theorem exchange_eq_ok (htarget : checkTarget address = .ok ())
    (hpeer : network address = .ok peer) (hidle : idle ≠ 0) (payload : Bytes) :
    exchange network address payload idle =
      .ok { sent := payload, reply := peer.reply.flatten } := by
  simp only [exchange, htarget, hpeer, if_neg hidle]
  rfl

/-- **What a client makes of a reply**: it says so when the reply is empty, and only then. -/
theorem seek_eq_ok (htarget : checkTarget address = .ok ()) (hpeer : network address = .ok peer)
    (hidle : idle ≠ 0) (index offset : UInt32) :
    ∃ notice, Client.seek network address index offset idle = .ok
        { exchange := { sent := Command.controlLine index offset, reply := peer.reply.flatten },
          notice } ∧
      (notice.isSome ↔ peer.reply.flatten = []) := by
  simp only [Client.seek, exchange_eq_ok htarget hpeer hidle]
  refine ⟨_, rfl, ?_⟩
  by_cases hempty : peer.reply.flatten = [] <;> simp [hempty]

end Client

/-! ### The whole way -/

theorem Request.ofLine_controlLine (index offset : UInt32) :
    ofLine (Command.controlLine index offset) = .seek index offset := by
  rw [ofLine, Command.parse_controlLine]

namespace Service

open Session (requests replies)

variable {s s' : Service} {id : SessionId} {x y : Session} {notes : List Note} {ps : List Bytes}
  {n : Nat} {es : List Entry} {index offset : UInt32}

/-- **What a seek leaves behind**, from one state of a service to another one. -/
structure Sought (id : SessionId) (index offset : UInt32) (s s' : Service) (x y : Session) :
    Prop where
  /-- The session waits for input again. -/
  idle : y.Idle
  /-- Nobody holds it up. -/
  undisturbed : Undisturbed id s' y
  /-- It has the limit that it had. -/
  limit : y.limit = x.limit
  /-- The ring and the journal are as they were. -/
  engine : s'.engine = s.engine
  /-- So is the disk. -/
  disk : s'.host.disk = s.host.disk
  /-- From a position in the log on, the session has sent what the log holds, which is never
  nothing. -/
  covered : ∀ e, s.engine.ring.entries[index.toNat]? = some e → offset.toNat < e.size →
    ∃ reply, reply ≠ [] ∧ y.transport.output = x.transport.output ++ reply ∧
      reply = e.bytes.drop offset.toNat ++
        ((s.engine.ring.entries.drop (index.toNat + 1)).map Entry.bytes).flatten
  /-- For a position outside the log, it has sent nothing. -/
  uncovered : ¬s.engine.Covers index.toNat offset.toNat →
    y.transport.output = x.transport.output

/-- **Every exchange about a control line** ends like this. -/
theorem Exchange.sought (h : Exchange id s n ps notes s') (hlog : s.engine.ring.Retains es)
    (hx : Undisturbed id s x) (hidle : x.Idle) (hps : ps.flatten = Command.controlLine index offset)
    (hfits : (Command.controlLine index offset).length ≤ x.limit)
    (hrest : s'.step? (.session id) = none) : ∃ y, Sought id index offset s s' x y := by
  obtain ⟨y, hy, -, hlimit, hrequests, houtput, hwaits⟩ := h.attended hx hidle hrest
  obtain ⟨hlines, hwhole⟩ := (Command.isLine_controlLine index offset).lines_eq
  rw [hps, Session.accepted_of_length_le hfits, hlines, List.map_singleton,
    Request.ofLine_controlLine] at hrequests
  rw [hps] at hwaits
  have hcarried := h.carried hx
  rw [hrequests, Engine.carryOut_singleton, Prod.mk.injEq, Prod.mk.injEq] at hcarried
  obtain ⟨hreplies, hengine, hdisk⟩ := hcarried
  obtain ⟨hkept, hkept'⟩ := Engine.after_answer_of_ne_append (e := s.engine) (h := s.host)
    (r := .seek index offset) nofun
  rw [hkept] at hengine
  rw [hkept'] at hdisk
  rw [hreplies] at houtput
  refine ⟨y, hwaits hwhole, hy, hlimit, hengine, hdisk, fun e he hlt => ?_, fun hout => ?_⟩
  · refine ⟨_, Entry.drop_append_ne_nil hlt _, ?_, rfl⟩
    rw [houtput, Engine.answer_seek_of_covered hlog s.host he hlt]
    simp
  · rw [houtput, Engine.answer_seek_of_uncovered hlog s.host hout]
    simp

/-- **An empty reply tells the one case from the other.** -/
theorem Sought.empty_iff (h : Sought id index offset s s' x y) {reply : Bytes}
    (hreply : y.transport.output = x.transport.output ++ reply) :
    reply = [] ↔ ¬s.engine.Covers index.toNat offset.toNat := by
  constructor
  · rintro rfl ⟨e, he, hlt⟩
    obtain ⟨reply, hne, houtput, -⟩ := h.covered e he hlt
    rw [houtput] at hreply
    exact hne (List.append_cancel_left hreply)
  · intro hout
    rw [h.uncovered hout] at hreply
    exact (List.append_right_eq_self.mp hreply.symm)

/-- **A client's seek is answered**, whatever the log holds, whatever position is asked for and
whatever pieces the line comes in, by every session that waits for input, that nobody holds up and
whose limit the line does not exceed:

* the exchange comes to an end, after a number of steps that is bounded by the length of the line;
* by then the session has sent the rest of the entry at the position and all newer entries, which is
  never nothing, or nothing at all if the log has no such position. The log and the disk are as they
  were;
* the session waits for input again and carries out whatever lines come later, with as many steps as
  they take, and sends the answers;
* a client that asks for the position sends this line, and what it takes for the reply is empty just
  when the log has no such position, and then it says so. -/
theorem Undisturbed.seek_answered (hlog : s.engine.ring.Retains es) (hx : Undisturbed id s x)
    (hidle : x.Idle) (index offset : UInt32)
    (hfits : (Command.controlLine index offset).length ≤ x.limit) :
    (∀ ps, ∃ n notes s', Exchange id s n ps notes s' ∧ s'.step? (.session id) = none) ∧
    ∀ n ps notes s', Exchange id s n ps notes s' → ps.flatten = Command.controlLine index offset →
      n ≤ 3 + 8 * ps.flatten.length ∧
      (s'.step? (.session id) = none → ∃ y, Sought id index offset s s' x y ∧
        (∀ n' ps' notes' s'', Exchange id s' n' ps' notes' s'' →
          n' ≤ 3 + 8 * ps'.flatten.length ∧
          (s''.step? (.session id) = none → ∃ z, s''.sessions[id]? = some z ∧
            z.phase = .receiving ∧
            requests (deedsOf id notes') =
              (Session.accepted x.limit ps'.flatten).map Request.ofLine ∧
            z.transport.output =
              y.transport.output ++ (replies (deedsOf id notes')).flatten)) ∧
        ∀ network address peer idle, Client.checkTarget address = .ok () →
          network address = .ok peer → idle ≠ 0 →
          y.transport.output = x.transport.output ++ peer.reply.flatten →
          ∃ answer, Client.seek network address index offset idle = .ok answer ∧
            answer.exchange.sent = ps.flatten ∧
            (answer.exchange.reply = [] ↔ ¬s.engine.Covers index.toNat offset.toNat) ∧
            (answer.notice.isSome ↔ ¬s.engine.Covers index.toNat offset.toNat)) := by
  have hbound : ∀ {s s' : Service} {x : Session} {n ps notes}, Undisturbed id s x → x.Idle →
      Exchange id s n ps notes s' → n ≤ 3 + 8 * ps.flatten.length := by
    intro s s' x n ps notes hx hidle hexchange
    obtain ⟨y, -, hweight, -⟩ := hexchange.undisturbed hx
    rw [hidle.weight_eq] at hweight
    omega
  refine ⟨exists_exchange hx, fun n ps notes s' hexchange hps =>
    ⟨hbound hx hidle hexchange, fun hrest => ?_⟩⟩
  obtain ⟨y, hy⟩ := hexchange.sought hlog hx hidle hps hfits hrest
  refine ⟨y, hy, fun n' ps' notes' s'' hlater =>
    ⟨hbound hy.undisturbed hy.idle hlater, fun hrest' => ?_⟩, ?_⟩
  · obtain ⟨z, hz, hphase, -, hrequests, houtput, -⟩ :=
      hlater.attended hy.undisturbed hy.idle hrest'
    rw [hy.limit] at hrequests
    exact ⟨z, hz.find, hphase, hrequests, houtput⟩
  · intro network address peer idle htarget hpeer hwait hreply
    obtain ⟨notice, hanswer, hnotice⟩ := Client.seek_eq_ok htarget hpeer hwait index offset
    have hempty := hy.empty_iff hreply
    exact ⟨_, hanswer, hps.symm, hempty, hnotice.trans hempty⟩

/-- A session waits for input, and the log holds two entries. -/
def twoEntries : Service where
  engine := { Engine.inMemory with ring := Ring.ofList [⟨[0x61, 0x0a]⟩, ⟨[0x62, 0x63, 0x0a]⟩] }
  host := {}
  sessions := [{ limit := 64, phase := .receiving }]

/-- The second byte of the newer entry is asked for in two pieces, and the rest of the entry comes
back. -/
theorem seek_answered_of_twoEntries :
    ∃ n notes s' y,
      Exchange 0 twoEntries n
        [(Command.controlLine 1 1).take 20, (Command.controlLine 1 1).drop 20] notes s' ∧
      n ≤ 187 ∧ s'.sessions[0]? = some y ∧ y.transport.output = [0x63, 0x0a] ∧
      s'.engine = twoEntries.engine := by
  have hlog : twoEntries.engine.ring.Retains [⟨[0x61, 0x0a]⟩, ⟨[0x62, 0x63, 0x0a]⟩] :=
    Ring.retains_ofList (by decide) _
  have htransport : Transport.Open {} := ⟨rfl, List.not_mem_nil, rfl, rfl⟩
  have hx : Undisturbed 0 twoEntries { limit := 64, phase := .receiving } :=
    ⟨rfl, rfl, rfl, rfl, ⟨rfl, htransport⟩⟩
  obtain ⟨hends, hall⟩ := Undisturbed.seek_answered hlog hx ⟨rfl, rfl, rfl, rfl, htransport⟩ 1 1
    (by decide +kernel)
  obtain ⟨n, notes, s', hexchange, hrest⟩ :=
    hends [(Command.controlLine 1 1).take 20, (Command.controlLine 1 1).drop 20]
  obtain ⟨hn, hdone⟩ := hall n _ notes s' hexchange (by simp)
  obtain ⟨y, hy, -⟩ := hdone hrest
  obtain ⟨reply, -, houtput, hreply⟩ := hy.covered ⟨[0x62, 0x63, 0x0a]⟩ (by decide) (by decide)
  have hlength : 3 + 8 * [(Command.controlLine 1 1).take 20,
      (Command.controlLine 1 1).drop 20].flatten.length = 187 := by decide +kernel
  exact ⟨n, notes, s', y, hexchange, hlength ▸ hn, hy.undisturbed.find,
    houtput.trans hreply, hy.engine⟩

end Service

end CommandLog
