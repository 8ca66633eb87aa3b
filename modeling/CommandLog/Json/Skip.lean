import CommandLog.Json.Numeral
import CommandLog.Json.Quoted

/-!
# Values that nobody wants

A value that nobody wants is read to find its end. It may be nested to any depth: what encloses
the place that was reached is kept in a list, innermost first.

`CommandLog.Json.Reader.skip` is the reader. Each of its rounds begins where a value is wanted or
where one has ended: `CommandLog.Json.Reader.Place`.
-/

namespace CommandLog.Json.Reader

/-- What encloses a value. -/
inductive Enclosure where
  /-- A list. -/
  | list
  /-- An object. -/
  | object
deriving DecidableEq, Repr

namespace Enclosure

/-- The character that ends a list or an object. -/
def closing : Enclosure → Char
  | .list => ']'
  | .object => '\x7d'

/-- The text ends inside. -/
def unfinished : Enclosure → Error
  | .list => .endInList
  | .object => .endInObject

/-- There is something else than a comma or the end. -/
def goesWrong : Enclosure → Error
  | .list => .listGoesWrong
  | .object => .objectGoesWrong

end Enclosure

/-- Where a round begins. -/
inductive Place where
  /-- Where a value is wanted. -/
  | value (around : List Enclosure)
  /-- Where a value inside `inner` has ended. -/
  | after (inner : Enclosure) (around : List Enclosure)

/-- The error when the text ends at a place. -/
def Place.unfinished : Place → Error
  | .value _ => .endInValue
  | .after inner _ => inner.unfinished

/-- A value has ended. -/
def ended : List Enclosure → Reader (Place ⊕ Unit)
  | [] => return .inr ()
  | inner :: around => do
    blank
    return .inl (.after inner around)

/-- A key that nobody wants, from its opening quote on, with the colon after it. -/
def skipKey : Reader Unit := do
  match ← next? with
  | none => fail .endInObject
  | some c =>
    if c = '"' then
      skipQuoted
      colon
    else fail .keyNotQuoted

/-- On to the next value inside an enclosure. -/
def enter (inner : Enclosure) (around : List Enclosure) : Reader (Place ⊕ Unit) := do
  blank
  if inner = .object then
    skipKey
    blank
  return .inl (.value (inner :: around))

/-- The beginning of a list or an object. -/
def begin (inner : Enclosure) (around : List Enclosure) : Reader (Place ⊕ Unit) := do
  blank
  match ← peek? with
  | none => fail inner.unfinished
  | some c =>
    if c = inner.closing then
      let _ ← next?
      ended around
    else enter inner around

/-- A number that nobody wants. The end of the text makes a form that is not allowed, like any
other character. -/
def skipNumber (c : Char) : Reader Unit where
  run cs :=
    match (Numeral.reader c).run cs with
    | .ok (_, rest) => .ok ((), rest)
    | .error _ => .error .invalidNumber
  length_le h := by
    split at h
    · next hn =>
      cases h
      exact (Numeral.reader c).length_le hn
    · cases h

/-- One round. -/
def skipStep : Place → Char → Reader (Place ⊕ Unit)
  | .value around, c => do
    if c = '[' then begin .list around
    else if c = '\x7b' then begin .object around
    else
      if c = 'n' then word "ull".toList
      else if c = 't' then word "rue".toList
      else if c = 'f' then word "alse".toList
      else if c = '"' then skipQuoted
      else if c = '-' ∨ Numeral.isDigit c then skipNumber c
      else fail .valueMissing
      ended around
  | .after inner around, c => do
    if c = ',' then enter inner around
    else if c = inner.closing then ended around
    else fail inner.goesWrong

/-- **A value that nobody wants.** -/
def skip : Reader Unit := do
  blank
  rounds Place.unfinished skipStep (.value [])

end CommandLog.Json.Reader
