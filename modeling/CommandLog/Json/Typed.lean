import CommandLog.Json.Skip

/-!
# Values of a wanted kind

Readers for values of one kind. Where another value is found, it is read as far as its description
needs, so that what is wrong with it comes first.

* `CommandLog.Json.Reader.boolean`, `CommandLog.Json.Reader.natural`,
  `CommandLog.Json.Reader.text` – single values;
* `CommandLog.Json.Reader.nullable` – a value or `null`;
* `CommandLog.Json.Reader.fields` – the fields of an object, in any order;
* `CommandLog.Json.Reader.element` and `CommandLog.Json.Reader.endOfList` – the elements of a list,
  one by one.
-/

namespace CommandLog.Json.Reader

variable {α σ : Type}

/-- What begins with the given character, in place of something else. -/
def found (c : Char) : Reader Found := do
  if c = 'n' then
    word "ull".toList
    return .null
  else if c = 't' then
    word "rue".toList
    return .boolean true
  else if c = 'f' then
    word "alse".toList
    return .boolean false
  else if c = '-' ∨ Numeral.isDigit c then return (← number c).found
  else if c = '"' then return .text (← quoted)
  else if c = '[' then return .list
  else if c = '\x7b' then return .object
  else fail .valueMissing

/-- Something else than what is wanted. -/
def mismatch (wanted : String) (c : Char) : Reader α := do
  fail (.wrongKind (← found c) wanted)

/-- A truth value. -/
def boolean : Reader Bool := do
  let c ← firstOfValue
  if c = 't' then
    word "rue".toList
    return true
  else if c = 'f' then
    word "alse".toList
    return false
  else mismatch "a boolean" c

/-- A whole number that is not negative, and fits 64 bits. -/
def natural (wanted : String) : Reader Nat := do
  let c ← firstOfValue
  if c = '-' ∨ Numeral.isDigit c then
    match ← number c with
    | .integer n => if n < 0 then fail (.wrongRange n wanted) else return n.toNat
    | .float x => fail (.wrongKind (.float x) wanted)
  else mismatch wanted c

/-- A text. -/
def text (wanted : String) : Reader (List Char) := do
  let c ← firstOfValue
  if c = '"' then quoted else mismatch wanted c

/-- A value or `null`. -/
def nullable (r : Reader α) : Reader (Option α) := do
  blank
  if (← peek?) = some 'n' then
    word "null".toList
    return none
  else return some (← r)

/-! ### Objects -/

/-- A field from after the opening quote of its key on. -/
def field (value : σ → List Char → Reader σ) (s : σ) : Reader ((Bool × σ) ⊕ σ) := do
  let s ← value s (← quoted)
  blank
  return .inl (false, s)

/-- The next field of an object, or its end. -/
def fieldStep (value : σ → List Char → Reader σ) :
    Bool × σ → Char → Reader ((Bool × σ) ⊕ σ)
  | (first, s), c => do
    if c = '\x7d' then return .inr s
    else if first then
      if c = '"' then field value s else fail .keyNotQuoted
    else if c = ',' then
      blank
      match ← next? with
      | none => fail .endInValue
      | some c =>
        if c = '"' then field value s
        else if c = '\x7d' then fail .trailingComma
        else fail .keyNotQuoted
    else fail .objectGoesWrong

/-- **The fields of an object** from after its opening brace on. What follows a key, the colon
included, is read by `value`. -/
def fields (value : σ → List Char → Reader σ) (s : σ) : Reader σ := do
  blank
  rounds (fun _ => .endInObject) (fieldStep value) (true, s)

/-! ### Lists -/

/-- The next element of a list, if there is one. -/
def element (first : Bool) (r : Reader α) : Reader (Option α) := do
  blank
  match ← peek? with
  | none => fail .endInList
  | some c =>
    if c = ']' then return none
    else if first then return some (← r)
    else if c = ',' then
      let _ ← next?
      blank
      match ← peek? with
      | none => fail .endInValue
      | some c => if c = ']' then fail .trailingComma else return some (← r)
    else fail .listGoesWrong

/-- The end of a list whose elements have all been read. -/
def endOfList : Reader Unit := do
  blank
  match ← next? with
  | none => fail .endInList
  | some ']' => return ()
  | some ',' =>
    blank
    if (← peek?) = some ']' then fail .trailingComma else fail .trailingText
  | some _ => fail .trailingText

end CommandLog.Json.Reader
