import CommandLog.Arguments
import CommandLog.Bytes

/-!
# Outcomes of programs

What a program leaves behind when it is done: the exit code and what it has printed. A program
that fails prints what has failed and why, cause by cause: `CommandLog.Outcome.failureText`.
-/

namespace CommandLog

/-- What a program leaves behind. -/
structure Outcome where
  /-- The exit code. -/
  code : Nat := 0
  /-- What was printed. -/
  output : Bytes := []
  /-- What was printed about problems. -/
  problems : String := ""
  /-- What was sent over the network. -/
  sent : Bytes := []
deriving DecidableEq, Repr

namespace Outcome

/-- The causes of a failure, numbered when there are several. -/
def causeLines : List String → List String
  | [] => []
  | [cause] => ["", "Caused by:", "    " ++ cause]
  | causes =>
    "" :: "Caused by:" ::
      (causes.zipIdx.map fun (cause, i) => "    " ++ toString i ++ ": " ++ cause)

/-- **What is printed about a failure**: what has failed, its cause, the cause of that, and so
on. -/
def failureText : List String → String
  | [] => ""
  | failure :: causes =>
    String.join ((("Error: " ++ failure) :: causeLines causes).map (· ++ "\n"))

/-- The outcome of a failure. -/
def failed (chain : List String) (output : Bytes) : Outcome :=
  { code := 1, output, problems := failureText chain }

/-- The outcome of a command line that is not carried out. -/
def refused : Arguments.Refusal → Outcome
  | .help => { code := 0 }
  | .misuse => { code := 2 }

end Outcome

end CommandLog
