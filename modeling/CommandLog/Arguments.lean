import CommandLog.Text.Natural

/-!
# Command line arguments

A command line is a list of options and operands. An option has a long name and perhaps a short
one; if it takes a value, the value follows the option in the next argument or, behind an equals
sign, in the same one. An option may be given once. After two hyphens everything is an operand.

* `CommandLog.Arguments.Form` – which options and operands there may be;
* `CommandLog.Arguments.scan` – the arguments sorted by a form. It stops at the first one that
  does not fit, or when help is asked for.

The first operand may also be the name of a command, whose own arguments follow it:
`CommandLog.Arguments.scanCommand`.
-/

namespace CommandLog.Arguments

/-- An option that may be given. -/
structure Opt where
  /-- The long name. -/
  name : String
  /-- The short name. -/
  short : Option Char := none
  /-- Which values it takes; an option without this takes none. -/
  value : Option (String → Bool) := none
  /-- The long name of an option that may not be given together with this one. -/
  conflict : Option String := none

/-- Why a command line is not carried out. -/
inductive Refusal where
  /-- It asks for help. -/
  | help
  /-- It does not fit. -/
  | misuse
deriving DecidableEq, Repr

/-- What a command line may consist of. -/
structure Form where
  /-- The options. -/
  options : List Opt
  /-- Which texts the operands may be, in their order. -/
  operands : List (String → Bool)

/-- The options and operands of a command line. -/
structure Given where
  /-- The options by their long names, with their values. -/
  options : List (String × String) := []
  /-- The operands. -/
  operands : List String := []
deriving DecidableEq, Repr

namespace Given

/-- The value of an option, if it was given. -/
def value? (g : Given) (name : String) : Option String :=
  g.options.lookup name

/-- Whether an option was given. -/
def has (g : Given) (name : String) : Bool :=
  (g.value? name).isSome

end Given

/-! ### Single arguments -/

/-- What an argument is by itself. -/
inductive Token where
  /-- The mark after which there are operands only. -/
  | mark
  /-- An option by its long name, with the value in the same argument. -/
  | long (name : String) (value : Option String)
  /-- An option by its short name, with the value in the same argument. -/
  | short (name : Char) (value : Option String)
  /-- Anything else. -/
  | operand (text : String)
deriving DecidableEq, Repr

/-- What a single argument is. -/
def Token.ofArgument (text : String) : Token :=
  match text.toList with
  | ['-', '-'] => .mark
  | '-' :: '-' :: cs =>
    match cs.dropWhile (· != '=') with
    | [] => .long (String.ofList cs) none
    | _ :: value => .long (String.ofList (cs.takeWhile (· != '='))) (some (String.ofList value))
  | ['-', c] => .short c none
  | '-' :: c :: '=' :: value => .short c (some (String.ofList value))
  | '-' :: c :: value => .short c (some (String.ofList value))
  | _ => .operand text

/-- Whether an argument can be the value of the option before it. -/
def isValue (text : String) : Bool :=
  match text.toList with
  | '-' :: _ :: _ => false
  | _ => true

/-- Adds an option with its value, unless it or what it conflicts with was given before. -/
def addOption (g : Given) (o : Opt) (value : String) : Except Refusal Given :=
  if g.has o.name || (o.conflict.map g.has).getD false then .error .misuse
  else .ok { g with options := g.options ++ [(o.name, value)] }

/-- Adds an operand, if one is still wanted and may be this. -/
def addOperand (f : Form) (g : Given) (text : String) : Except Refusal Given :=
  match f.operands[g.operands.length]? with
  | none => .error .misuse
  | some fits =>
    if fits text then .ok { g with operands := g.operands ++ [text] } else .error .misuse

/-- Adds an option, with the arguments that are left after it. -/
def takeOption (g : Given) (o? : Option Opt) (value? : Option String) (rest : List String) :
    Except Refusal (Given × List String) :=
  match o? with
  | none => .error .misuse
  | some o =>
    match o.value, value?, rest with
    | none, none, rest => (addOption g o "").map (·, rest)
    | none, some _, _ => .error .misuse
    | some fits, some v, rest =>
      if fits v then (addOption g o v).map (·, rest) else .error .misuse
    | some _, none, [] => .error .misuse
    | some fits, none, v :: rest =>
      if isValue v && fits v then (addOption g o v).map (·, rest) else .error .misuse

/-! ### Command lines -/

/-- The outcome of a step through a command line. -/
inductive Step where
  /-- There is more to look at. -/
  | more (given : Given) (rest : List String)
  /-- Only operands are left. -/
  | operandsOnly (given : Given) (rest : List String)
  /-- An operand, and what follows it. -/
  | operand (given : Given) (text : String) (rest : List String)

/-- One argument, or an option with its value. -/
def step (f : Form) (g : Given) (argument : String) (rest : List String) : Except Refusal Step :=
  match Token.ofArgument argument with
  | .mark => .ok (.operandsOnly g rest)
  | .long "help" none => .error .help
  | .short 'h' _ => .error .help
  | .long name value =>
    (takeOption g (f.options.find? (·.name = name)) value rest).map fun (g, rest) => .more g rest
  | .short name value =>
    (takeOption g (f.options.find? (·.short = some name)) value rest).map fun (g, rest) =>
      .more g rest
  | .operand text => .ok (.operand g text rest)

/-- Arguments sorted up to the first operand, which is given with what follows it. There are at
most as many steps as arguments. -/
def scanOptions (f : Form) : Nat → Given → List String →
    Except Refusal (Given × Option (String × List String))
  | _, g, [] => .ok (g, none)
  | 0, _, _ :: _ => .error .misuse
  | bound + 1, g, a :: rest =>
    match step f g a rest with
    | .error r => .error r
    | .ok (.more g rest) => scanOptions f bound g rest
    | .ok (.operandsOnly g []) => .ok (g, none)
    | .ok (.operandsOnly _ (_ :: _)) => .error .misuse
    | .ok (.operand g text rest) => .ok (g, some (text, rest))

/-- All arguments sorted. There are at most as many steps as arguments. -/
def scanAll (f : Form) : Nat → Given → List String → Except Refusal Given
  | _, g, [] => .ok g
  | 0, _, _ :: _ => .error .misuse
  | bound + 1, g, a :: rest =>
    match step f g a rest with
    | .error r => .error r
    | .ok (.more g rest) => scanAll f bound g rest
    | .ok (.operandsOnly g rest) => rest.foldlM (addOperand f) g
    | .ok (.operand g text rest) =>
      match addOperand f g text with
      | .error r => .error r
      | .ok g => scanAll f bound g rest

/-- **The arguments sorted by a form.** -/
def scan (f : Form) (args : List String) : Except Refusal Given :=
  scanAll f args.length {} args

/-- **Options, and then the name of a command with the arguments that follow it.** -/
def scanCommand (options : List Opt) (args : List String) :
    Except Refusal (Given × String × List String) :=
  match scanOptions { options, operands := [] } args.length {} args with
  | .error r => .error r
  | .ok (_, none) => .error .misuse
  | .ok (g, some (name, rest)) => .ok (g, name, rest)

/-! ### Numbers -/

/-- The number that a text stands for, if it is below a limit. -/
def number? (limit : Nat) (text : String) : Option Nat :=
  (Text.natural? text.toList).filter (· < limit)

end CommandLog.Arguments
