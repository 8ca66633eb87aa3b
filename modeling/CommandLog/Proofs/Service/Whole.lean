import CommandLog.Proofs.Command
import CommandLog.Proofs.Ring.Address
import CommandLog.Proofs.Service.Order
import CommandLog.Proofs.Timestamp

/-!
# The log holds whole commands

Sessions store lines of their input and annotators store timestamps, and nobody stores anything
else. So as long as nobody outside stores commands, every entry of the log is one line and no
control line, and whoever is sent the log can take it apart again.

* `CommandLog.Command.IsWhole` – **a whole command**: one line, without the seek mark;
* `CommandLog.Service.Origin` – **who stored a command**: a session, of whose input it is a line, or
  an annotator (`CommandLog.Service.Run.origin`);
* `CommandLog.Engine.seek_eq_ok_iff` and `CommandLog.Engine.readFrom_position` – which positions
  there are, and what a log holds from one of them on;
* `CommandLog.Service.Run.whole_commands` – **the log of every run can be taken apart**: its lines
  are its entries, and the commands are numbered like the lines.

The fragments of a line that is too long never come this far. They are dropped by the session, which
has been shown of its own life already (`CommandLog.Session.Past.framed`); here it is only put
together with the order in which commands were stored.
-/

namespace CommandLog

/-! ### Whole commands -/

/-- **A whole command**: one line, and no control line. -/
structure Command.IsWhole (l : Bytes) : Prop where
  /-- It ends with a terminator and holds no other one. -/
  isLine : Bytes.IsLine l
  /-- It does not start with the seek mark. -/
  unmarked : ¬Command.seekMark <+: l

/-- **A line is to be stored** unless it starts with the seek mark, and then it is stored as it
is. -/
theorem Request.ofLine_eq_append_iff {l line : Bytes} :
    ofLine l = .append line ↔ l = line ∧ ¬Command.seekMark <+: l := by
  rw [@eq_comm _ l line, ← Command.parse_eq_write_iff, ofLine]
  rcases Command.parse l with ⟨⟨⟩⟩ | command
  · simp
  · cases command with
    | write stored | seek index offset => simp

/-! ### Positions in the log -/

namespace Engine

open CommandLog.Ring (span)

variable {e : Engine} {es : List Entry}

/-- **There is a position for every byte of every entry**, and no other one. -/
theorem seek_eq_ok_iff (hring : e.ring.Retains es) {index offset flat : Nat} :
    e.seek index offset = .ok flat ↔
      ∃ x, e.ring.entries[index]? = some x ∧ offset < x.size ∧
        flat = span (e.ring.entries.take index) + offset := by
  rw [← hring.translate_eq_ok_iff, seek]
  cases e.ring.translate index offset <;> simp

/-- **From a position on**, the log holds the rest of the entry there and all entries behind it. -/
theorem readFrom_position (hring : e.ring.Retains es) {index offset : Nat} {x : Entry}
    (hx : e.ring.entries[index]? = some x) (hlt : offset < x.size) :
    e.readFrom (span (e.ring.entries.take index) + offset) =
      x.bytes.drop offset ++ ((e.ring.entries.drop (index + 1)).map Entry.bytes).flatten :=
  hring.readFrom_translate hx hlt

/-- **A log of lines is taken apart into its entries**, and nothing is left over. -/
theorem cut_readFrom (hring : e.ring.Retains es)
    (hlines : ∀ x ∈ e.ring.entries, Bytes.IsLine x.bytes) :
    Bytes.cut (e.readFrom 0) = (e.ring.entries.map Entry.bytes, []) := by
  rw [Bytes.cut_eq_iff, readFrom_eq hring, retainedLog, ← hring.entries_eq, List.drop_zero,
    List.append_nil]
  refine ⟨rfl, ?_, List.not_mem_nil⟩
  intro l hl
  obtain ⟨x, hx, rfl⟩ := List.mem_map.mp hl
  exact hlines x hx

end Engine

namespace Service

open Session (accepted received)

variable {start s s' : Service} {notes : List Note} {payload : Bytes}

/-! ### Who stored a command -/

/-- **Who stored a command.** -/
inductive Origin (s : Service) (notes : List Note) (payload : Bytes) : Prop where
  /-- A session did. It is a line of the session's input, and not longer than its limit. -/
  | session {id : SessionId} {x : Session} {answer : Bytes}
    (hnote : .session id (.served (.append payload) (some answer)) ∈ notes)
    (hx : s.sessions[id]? = some x)
    (hline : payload ∈ Bytes.lines (received (deedsOf id notes)))
    (hshort : payload.length ≤ x.limit) (hunmarked : ¬Command.seekMark <+: payload)
  /-- An annotator did. It is the entry of the time. -/
  | annotator {index : Nat} {i : Instant} (hnote : .annotated index payload true ∈ notes)
    (hentry : payload = Timestamp.entry i)

theorem mem_deedsOf {id : SessionId} {deed : Session.Deed} (h : .session id deed ∈ notes) :
    deed ∈ deedsOf id notes :=
  List.mem_filterMap.mpr ⟨_, h, if_pos rfl⟩

/-- **Whatever a session has stored is a line of its input.** -/
theorem Run.origin_session (hnew : start.sessions = []) (hrun : Run start notes s) {id : SessionId}
    {answer : Bytes} (hnote : .session id (.served (.append payload) (some answer)) ∈ notes) :
    Origin s notes payload := by
  have hdeed := mem_deedsOf hnote
  have hlt : id < s.sessions.length := by
    by_contra hge
    rw [hrun.deedsOf_of_le (Nat.le_of_not_lt hge)] at hdeed
    cases hdeed
  obtain ⟨x, hx⟩ : ∃ x, s.sessions[id]? = some x := ⟨_, List.getElem?_eq_getElem hlt⟩
  obtain ⟨limit, hpast⟩ := hrun.past hnew hx
  obtain ⟨done, pending, hframed⟩ := hpast.framed
  have hrequest : .append payload ∈ Session.requests (deedsOf id notes) :=
    List.mem_filterMap.mpr ⟨_, hdeed, rfl⟩
  obtain ⟨l, hl, hof⟩ := List.mem_map.mp (hframed.requests_prefix_accepted.subset hrequest)
  obtain ⟨rfl, hunmarked⟩ := Request.ofLine_eq_append_iff.mp hof
  obtain ⟨hline, hshort⟩ := List.mem_filter.mp hl
  exact .session hnote hx hline (of_decide_eq_true hshort) hunmarked

/-- An annotator stores the time. -/
theorem annotated_of_act (hact : s.Act notes s') {index : Nat} {stored : Bool}
    (hnote : .annotated index payload stored ∈ notes) : ∃ i, payload = Timestamp.entry i := by
  cases hact with
  | event e =>
    cases e with
    | append payload' =>
      simp only [noted] at hnote
      split at hnote <;> simp at hnote
    | _ => cases hnote
  | serve => simp at hnote
  | session =>
    obtain ⟨deed, -, hdeed⟩ := List.mem_map.mp hnote
    cases hdeed
  | @annotate _ _ stamp =>
    rw [List.mem_singleton, Note.annotated.injEq] at hnote
    obtain ⟨i, hmade⟩ := stamp.made
    exact ⟨i, hnote.2.1.trans hmade⟩
  | wake => cases hnote

theorem Run.annotated (hrun : Run start notes s) {index : Nat} {stored : Bool}
    (hnote : .annotated index payload stored ∈ notes) : ∃ i, payload = Timestamp.entry i := by
  induction hrun with
  | refl => cases hnote
  | move _ c hnext ih =>
    rcases List.mem_append.mp hnote with hearlier | hnow
    · exact ih hearlier
    · exact annotated_of_act (act_of_next? hnext) hnow

/-- **Whatever was stored has an origin**, unless someone outside stores commands. -/
theorem Run.origin (hnew : start.sessions = []) (hrun : Run start notes s)
    (hown : ∀ payload stored, Note.appended payload stored ∉ notes) {e : Entry}
    (he : e ∈ stored notes) : Origin s notes e.bytes := by
  obtain ⟨payload, hpayload, rfl⟩ := List.mem_map.mp he
  obtain ⟨note, hnote, hstored⟩ := List.mem_flatMap.mp hpayload
  unfold Note.stored at hstored
  split at hstored
  · cases List.mem_singleton.mp hstored
    exact hrun.origin_session hnew hnote
  · cases List.mem_singleton.mp hstored
    obtain ⟨i, hentry⟩ := hrun.annotated hnote
    exact .annotator hnote hentry
  · exact absurd hnote (hown _ _)
  · cases hstored

/-- **Whatever has an origin is a whole command.** -/
theorem Origin.isWhole (h : Origin s notes payload) : Command.IsWhole payload := by
  cases h with
  | session _ _ hline _ hunmarked =>
    exact ⟨(Bytes.cut_spec _).2.1 payload hline, hunmarked⟩
  | annotator _ hentry =>
    rw [hentry]
    exact ⟨Timestamp.isLine_entry _, Timestamp.not_seekMark_entry _⟩

/-- **The log holds whole commands.** In every run from a service without sessions, whose log is
empty, as long as nobody outside stores commands,

* every entry of the log is a whole command, and was stored by a session, of whose input it is a
  line that is not longer than the limit, or by an annotator;
* the log as a whole, cut behind each terminator, is its entries again, in order, and nothing else;
* a position addresses a command and a byte of it just when the log has such a line and the line
  such a byte, and is answered with the rest of the line and all lines behind it. -/
theorem Run.whole_commands (hnew : start.sessions = []) (hempty : start.engine.ring.Retains [])
    (hrun : Run start notes s) (hown : ∀ payload stored, Note.appended payload stored ∉ notes) :
    (∀ e ∈ s.engine.ring.entries, Command.IsWhole e.bytes ∧ Origin s notes e.bytes) ∧
    Bytes.cut (s.engine.readFrom 0) = (s.engine.ring.entries.map Entry.bytes, []) ∧
    (∀ (index offset flat : Nat), s.engine.seek index offset = .ok flat →
      ∃ l, (Bytes.lines (s.engine.readFrom 0))[index]? = some l ∧ offset < l.length) ∧
    ∀ (index offset : Nat) (l : Bytes), (Bytes.lines (s.engine.readFrom 0))[index]? = some l →
      offset < l.length →
      ∃ flat, s.engine.seek index offset = .ok flat ∧
        s.engine.readFrom flat =
          l.drop offset ++ ((Bytes.lines (s.engine.readFrom 0)).drop (index + 1)).flatten := by
  have hring := (hrun.ordered hempty).ring
  rw [List.nil_append] at hring
  have horigin : ∀ e ∈ s.engine.ring.entries, Origin s notes e.bytes := by
    intro e he
    rw [hring.entries_eq] at he
    exact hrun.origin hnew hown (List.mem_of_mem_drop he)
  have hcut := Engine.cut_readFrom hring fun e he => (horigin e he).isWhole.isLine
  have hlines : Bytes.lines (s.engine.readFrom 0) = s.engine.ring.entries.map Entry.bytes :=
    congrArg Prod.fst hcut
  refine ⟨fun e he => ⟨(horigin e he).isWhole, horigin e he⟩, hcut, ?_, ?_⟩
  · intro index offset flat hseek
    obtain ⟨e, he, hlt, -⟩ := (Engine.seek_eq_ok_iff hring).mp hseek
    exact ⟨e.bytes, by rw [hlines, List.getElem?_map, he, Option.map_some], hlt⟩
  · intro index offset l hl hlt
    rw [hlines, List.getElem?_map, Option.map_eq_some_iff] at hl
    obtain ⟨e, he, rfl⟩ := hl
    refine ⟨_, (Engine.seek_eq_ok_iff hring).mpr ⟨e, he, hlt, rfl⟩, ?_⟩
    rw [hlines, ← List.map_drop]
    exact Engine.readFrom_position hring he hlt

/-- A session gets a line that is too long in two pieces, a control line without numbers and a line
to be stored, and then the time of an annotator has come. -/
def mixedInput : List Choice :=
  [.event (.connect 24), .event (.annotate 10), .event (.deliver 0 (List.replicate 30 0x61)),
    .event (.deliver 0 ([0x61, 0x0a] ++ Command.seekMark ++ [0x78, 0x0a, 0x62, 0x0a]))] ++
    List.replicate 12 (.actor (.session 0)) ++ [.event (.tick 10)] ++
    List.replicate 2 (.actor (.annotator 0))

/-- The line and the time are stored, and they are all that the log falls into. -/
theorem whole_commands_of_mixedInput :
    ∃ notes s, Run { engine := .inMemory, host := {} } notes s ∧
      s.engine.ring.entries.head? = some { bytes := [0x62, 0x0a] } ∧
      s.engine.ring.entries.length = 2 ∧ (∀ e ∈ s.engine.ring.entries, Command.IsWhole e.bytes) ∧
      Bytes.cut (s.engine.readFrom 0) = (s.engine.ring.entries.map Entry.bytes, []) := by
  have hempty : Engine.inMemory.ring.Retains [] := Ring.retains_empty (by decide)
  have hrun := Run.play (.refl : Run { engine := .inMemory, host := {} } [] _) mixedInput
  have hown : ∀ payload stored,
      Note.appended payload stored ∉ (play { engine := .inMemory, host := {} } mixedInput).1 := by
    intro payload stored hmem
    have hnone : (play { engine := .inMemory, host := {} } mixedInput).1.all
        (fun | .appended _ _ => false | _ => true) = true := by decide +kernel
    cases List.all_eq_true.mp hnone _ hmem
  obtain ⟨hwhole, hcut, -⟩ := Run.whole_commands rfl hempty hrun hown
  exact ⟨_, _, hrun, by decide +kernel, by decide +kernel, fun e he => (hwhole e he).1, hcut⟩

end Service

end CommandLog
