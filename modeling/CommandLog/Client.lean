import CommandLog.Command
import CommandLog.Fault
import CommandLog.Text.Natural

/-!
# The client

A client opens a connection, sends one command or control line, and takes for the reply whatever
arrives before the peer closes its side or is quiet for a while. Replies have no marks of their
own, so a reply that is empty and a peer that does not answer look alike; the client then says so.

* `CommandLog.Client.Network` – where connections lead, which is up to the surroundings;
* `CommandLog.Client.exchange` – one line sent and its reply;
* `CommandLog.Client.send` and `CommandLog.Client.seek` – a text stored as one command, and the
  log from a position on.
-/

namespace CommandLog.Client

/-- Who answers a connection. -/
structure Peer where
  /-- The pieces of the reply, up to where the peer closes its side or becomes quiet. -/
  reply : List Bytes
deriving DecidableEq, Repr

/-- Where connections to an address lead. -/
abbrev Network := String → Except Fault Peer

/-- A network without any route. -/
def unreachable : Network :=
  fun _ => .error .networkUnreachable

/-- How long a quiet peer is waited for unless told otherwise, in milliseconds. -/
def defaultIdle : Nat := 500

/-- Why an exchange failed. -/
inductive Error where
  /-- There is no connection to the address. -/
  | connecting (address : String) (fault : Fault)
  /-- The connection cannot be used as asked. -/
  | using (fault : Fault)
deriving DecidableEq, Repr

/-- The wording of an error and of its cause. -/
def Error.chain : Error → List String
  | .connecting address fault => ["connecting to " ++ address, fault.message]
  | .using fault => [fault.message]

/-- What went over a connection. -/
structure Exchange where
  /-- What was sent. -/
  sent : Bytes
  /-- What came back. -/
  reply : Bytes
deriving DecidableEq, Repr

/-- Whether a text is the number of a port. -/
def isPort (text : List Char) : Bool :=
  (Text.natural? text).any (· < UInt16.size)

/-- Whether a text names a host and a port, the latter behind the last colon. -/
def checkTarget (address : String) : Except Fault Unit :=
  let reversed := address.toList.reverse
  if ':' ∉ reversed then .error .invalidTarget
  else if isPort (reversed.takeWhile (· != ':')).reverse then .ok ()
  else .error .invalidPort

/-- **One line sent and its reply.** -/
def exchange (network : Network) (address : String) (payload : Bytes) (idle : Nat) :
    Except Error Exchange := do
  checkTarget address |>.mapError (.connecting address)
  let peer ← (network address).mapError (.connecting address)
  if idle = 0 then .error (.using .emptyTimeout)
  else return { sent := payload, reply := peer.reply.flatten }

/-- An exchange and what the user is told beside its reply. -/
structure Answer where
  /-- The exchange. -/
  exchange : Exchange
  /-- What the user is told, if anything. -/
  notice : Option String
deriving DecidableEq, Repr

/-- A number of milliseconds as text: in seconds from one second on, with as many places as it
takes. -/
def durationText (ms : Nat) : String :=
  if ms = 0 then "0ns"
  else if ms < 1000 then toString ms ++ "ms"
  else
    let places := (Nat.toDigits 10 (1000 + ms % 1000)).drop 1
    let kept := (places.reverse.dropWhile (· == '0')).reverse
    toString (ms / 1000) ++ String.ofList (if kept.isEmpty then [] else '.' :: kept) ++ "s"

/-- **A text stored as one command**; the reply is the log. -/
def send (network : Network) (address text : String) (idle : Nat) : Except Error Answer := do
  let exchange ← exchange network address (Command.terminated text) idle
  let notice :=
    if exchange.reply.isEmpty then
      some ("No reply from " ++ address ++ " within " ++ durationText idle)
    else none
  return { exchange, notice }

/-- **The log from a position on.** A position outside the log has no reply. -/
def seek (network : Network) (address : String) (index offset : UInt32) (idle : Nat) :
    Except Error Answer := do
  let exchange ← exchange network address (Command.controlLine index offset) idle
  let notice :=
    if exchange.reply.isEmpty then
      some ("Seek (" ++ toString index.toNat ++ ", " ++ toString offset.toNat ++
        ") produced no output; position is probably out of range")
    else none
  return { exchange, notice }

end CommandLog.Client
