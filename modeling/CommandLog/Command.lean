import CommandLog.Bytes.Decimal

/-!
# Commands

A complete input line is either stored as it is or, when it starts with the seek mark, a control
line that addresses a position in the log.

* `CommandLog.Command.parse` decides which of the two a line is. A line with the seek mark whose
  rest is not two numbers is refused, never stored;
* `CommandLog.Command.controlLine` is the control line of an address, as a client writes it;
* `CommandLog.Command.terminated` is a text as one command: its terminator is added unless the
  text already ends with one.

The grammar of a control line is the mark, a numeral, a comma, a numeral, at most one carriage
return and at most one terminator, in this order, both numerals being below `2 ^ 32`.
-/

namespace CommandLog

/-- A complete input line. -/
inductive Command where
  /-- To be stored verbatim, terminator included. -/
  | write (line : Bytes)
  /-- A control operation, never stored: answer from the given byte of the given entry. -/
  | seek (index offset : UInt32)
deriving DecidableEq, Repr

/-- Why a line is refused. -/
inductive CommandError where
  /-- The line starts with the seek mark but goes on with something else than two numbers. -/
  | malformedSeek
deriving DecidableEq, Repr

/-- The wording of a refused line. -/
def CommandError.message : CommandError → String
  | .malformedSeek => "malformed seek control line"

namespace Command

/-- The mark at the front of every seek control line: `AESDCHAR_IOCSEEKTO:`. -/
def seekMark : Bytes :=
  [0x41, 0x45, 0x53, 0x44, 0x43, 0x48, 0x41, 0x52, 0x5f, 0x49, 0x4f, 0x43, 0x53, 0x45, 0x45, 0x4b,
    0x54, 0x4f, 0x3a]

/-- The separator of the two numbers of a control line. -/
def comma : UInt8 := 0x2c

/-- The carriage return that a control line may have before its terminator. -/
def carriageReturn : UInt8 := 0x0d

/-- A numeral that fits 32 bits. -/
def number? (bs : Bytes) : Option UInt32 :=
  match Decimal.value? bs with
  | some n => if n < UInt32.size then some (UInt32.ofNat n) else none
  | none => none

/-- The two numbers behind the seek mark. Line endings are taken off first, then the text is cut
at the first comma. -/
def address? (args : Bytes) : Option (UInt32 × UInt32) :=
  let args := (args.dropLastIf Bytes.terminator).dropLastIf carriageReturn
  match args.dropWhile (· != comma) with
  | [] => none
  | _ :: offset =>
    match number? (args.takeWhile (· != comma)), number? offset with
    | some i, some o => some (i, o)
    | _, _ => none

/-- **What a line asks for.** -/
def parse (line : Bytes) : Except CommandError Command :=
  match Bytes.after? seekMark line with
  | none => .ok (.write line)
  | some args =>
    match address? args with
    | some (index, offset) => .ok (.seek index offset)
    | none => .error .malformedSeek

/-- The control line of an address. -/
def controlLine (index offset : UInt32) : Bytes :=
  seekMark ++ Decimal.encode index.toNat ++ comma :: Decimal.encode offset.toNat ++
    [Bytes.terminator]

/-- A text as one command: a terminator is added unless the text ends with one. -/
def terminated (text : String) : Bytes :=
  let bytes := Bytes.ofString text
  if bytes.getLast? = some Bytes.terminator then bytes else bytes ++ [Bytes.terminator]

end Command

end CommandLog
