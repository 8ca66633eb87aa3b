import CommandLog.Client
import CommandLog.Inspect
import CommandLog.Outcome

/-!
# The control program

The control program stores a command, prints the log from a position on, or shows what a journal
holds.

* `CommandLog.Control.Command` and `CommandLog.Control.Invocation` – what can be asked for;
* `CommandLog.Control.parse` – the command line. The options may stand before or behind the name
  of the command, and those behind it count;
* `CommandLog.Control.run` – carries a command line out, on a given disk and network.
-/

namespace CommandLog.Control

/-- What can be asked for. -/
inductive Command where
  /-- To store a text as one command. -/
  | send (text : String)
  /-- To print the log from a position on. -/
  | seek (index offset : UInt32)
  /-- To show what a journal holds. -/
  | inspect (journal : String)
deriving DecidableEq, Repr

/-- A command and where and how to carry it out. -/
structure Invocation where
  /-- Where the server is. -/
  address : String
  /-- How long a quiet server is waited for, in milliseconds. -/
  idle : Nat
  /-- The command. -/
  command : Command
deriving DecidableEq, Repr

/-- Where the server is unless told otherwise. -/
def defaultAddress : String := "127.0.0.1:9000"

/-! ### The command line -/

/-- The options, which all commands share. -/
def options : List Arguments.Opt :=
  [{ name := "addr", short := some 'a', value := some fun _ => true },
    { name := "idle-ms", value := some fun v => (Arguments.number? UInt64.size v).isSome }]

/-- Whether a text is a number of 32 bits. -/
def isWord (text : String) : Bool :=
  (Arguments.number? UInt32.size text).isSome

/-- The number of 32 bits that a text is. -/
def word (text : String) : UInt32 :=
  UInt32.ofNat ((Arguments.number? UInt32.size text).getD 0)

/-- The operands of the command with a name. -/
def operands? : String → Option (List (String → Bool))
  | "send" => some [fun _ => true]
  | "seek" => some [isWord, isWord]
  | "inspect" => some [(· ≠ "")]
  | _ => none

/-- The command of a name and operands. -/
def command? (name : String) (operands : List String) : Option Command :=
  match name, operands with
  | "send", [text] => some (.send text)
  | "seek", [index] => some (.seek (word index) 0)
  | "seek", [index, offset] => some (.seek (word index) (word offset))
  | "inspect", [journal] => some (.inspect journal)
  | _, _ => none

/-- What a request for help about the given topics is worth. -/
def helpOn (topics : List String) : Arguments.Refusal :=
  match topics with
  | [] => .help
  | [topic] => if topic = "help" ∨ (operands? topic).isSome then .help else .misuse
  | _ => .misuse

/-- **The command line.** -/
def parse (args : List String) : Except Arguments.Refusal Invocation := do
  let (outer, name, rest) ← Arguments.scanCommand options args
  match operands? name with
  | none => if name = "help" then .error (helpOn rest) else .error .misuse
  | some operands =>
    let inner ← Arguments.scan { options, operands } rest
    let value? := fun option => (inner.value? option).or (outer.value? option)
    match command? name inner.operands with
    | none => .error .misuse
    | some command =>
      let idle := (value? "idle-ms").bind (Arguments.number? UInt64.size)
      return {
        address := (value? "addr").getD defaultAddress
        idle := idle.getD Client.defaultIdle
        command }

/-! ### Carrying it out -/

/-- The outcome of an exchange. -/
def outcome : Except Client.Error Client.Answer → Outcome
  | .error e => .failed e.chain []
  | .ok a =>
    { output := a.exchange.reply
      problems := (a.notice.map (· ++ "\n")).getD ""
      sent := a.exchange.sent }

/-- Carries an invocation out. The time at which a journal was changed is given as text. -/
def perform (disk : Disk) (modified : String) (network : Client.Network) (i : Invocation) :
    Outcome :=
  match i.command with
  | .send text => outcome (Client.send network i.address text i.idle)
  | .seek index offset => outcome (Client.seek network i.address index offset i.idle)
  | .inspect journal =>
    match Inspect.report disk journal modified with
    | (text, none) => { output := Bytes.ofString text }
    | (text, some e) => .failed e.chain (Bytes.ofString text)

/-- **Carries a command line out.** -/
def run (disk : Disk) (modified : String) (network : Client.Network) (args : List String) :
    Outcome :=
  match parse args with
  | .error r => .refused r
  | .ok i => perform disk modified network i

end CommandLog.Control
