import CommandLog.Json.Error

/-!
# Reading off the front of a text

A `CommandLog.Json.Reader` takes a value off the front of a text or fails. That reading never
makes a text longer is part of the type, so every reader that is put together from others has it,
and a loop that takes at least one character a round comes to an end.

* `CommandLog.Json.Reader` – with its `Monad` instance, one reader after another;
* `CommandLog.Json.Reader.next?`, `CommandLog.Json.Reader.peek?` and
  `CommandLog.Json.Reader.span` – the readers that everything is put together from;
* `CommandLog.Json.Reader.rounds` – **the loop**: every round takes one character, which decides
  how to go on;
* `CommandLog.Json.Reader.readAll` – reads a whole text.
-/

namespace CommandLog.Json

/-- What takes a value off the front of a text, or fails. -/
structure Reader (α : Type) where
  /-- The value at the front of a text and what follows it. -/
  run : List Char → Except Error (α × List Char)
  /-- What follows is not longer than the text. -/
  length_le : ∀ {cs : List Char} {a : α} {rest : List Char},
    run cs = .ok (a, rest) → rest.length ≤ cs.length

namespace Reader

variable {α β σ : Type}

/-- A value for which nothing is read. -/
def succeed (a : α) : Reader α where
  run cs := .ok (a, cs)
  length_le h := by
    cases h
    exact Nat.le_refl _

/-- One reader, and then another that may depend on what was read. -/
def andThen (x : Reader α) (f : α → Reader β) : Reader β where
  run cs :=
    match x.run cs with
    | .error e => .error e
    | .ok (a, rest) => (f a).run rest
  length_le h := by
    split at h
    · cases h
    · next hx => exact Nat.le_trans ((f _).length_le h) (x.length_le hx)

instance : Monad Reader where
  pure := succeed
  bind := andThen

/-- The reader that fails. -/
def fail (e : Error) : Reader α where
  run _ := .error e
  length_le h := by cases h

/-- The next character, which is taken. -/
def next? : Reader (Option Char) where
  run
    | [] => .ok (none, [])
    | c :: cs => .ok (some c, cs)
  length_le {cs} _ _ h := by
    cases cs <;> cases h <;> simp

/-- The next character, which is left where it is. -/
def peek? : Reader (Option Char) where
  run cs := .ok (cs.head?, cs)
  length_le h := by
    cases h
    exact Nat.le_refl _

/-- The characters up to the first one without a property. -/
def span (p : Char → Bool) : Reader (List Char) where
  run cs := .ok (cs.takeWhile p, cs.dropWhile p)
  length_le h := by
    cases h
    exact (List.dropWhile_suffix p).length_le

/-- The loop behind `CommandLog.Json.Reader.rounds`. -/
def roundsFrom (atEnd : σ → Error) (step : σ → Char → Reader (σ ⊕ α)) (s : σ) :
    List Char → Except Error (α × List Char)
  | [] => .error (atEnd s)
  | c :: cs =>
    match _h : (step s c).run cs with
    | .error e => .error e
    | .ok (.inr a, rest) => .ok (a, rest)
    | .ok (.inl s, rest) => roundsFrom atEnd step s rest
termination_by cs => cs.length
decreasing_by
  have := Reader.length_le _ _h
  simp only [List.length_cons]
  omega

theorem roundsFrom_length_le {atEnd : σ → Error} {step : σ → Char → Reader (σ ⊕ α)} {s : σ}
    {cs : List Char} {a : α} {rest : List Char}
    (h : roundsFrom atEnd step s cs = .ok (a, rest)) : rest.length ≤ cs.length := by
  fun_induction roundsFrom atEnd step s cs with
  | case1 => cases h
  | case2 => cases h
  | case3 s c cs b left hstep =>
    cases h
    have := (step s c).length_le hstep
    simp only [List.length_cons]
    omega
  | case4 s c cs t left hstep ih =>
    have := (step s c).length_le hstep
    have := ih h
    simp only [List.length_cons]
    omega

/-- **The loop.** Every round takes one character, which decides whether the loop goes on and with
what state, or ends and with what result. -/
def rounds (atEnd : σ → Error) (step : σ → Char → Reader (σ ⊕ α)) (s : σ) : Reader α where
  run := roundsFrom atEnd step s
  length_le := roundsFrom_length_le

/-! ### Between values -/

/-- Whether a character may stand between values. -/
def isBlank (c : Char) : Bool :=
  c == ' ' || c == '\n' || c == '\t' || c == '\r'

/-- The characters between values. -/
def blank : Reader Unit := do
  let _ ← span isBlank

/-- The first character of a value. -/
def firstOfValue : Reader Char := do
  blank
  match ← next? with
  | some c => return c
  | none => fail .endInValue

/-- The rest of a word. -/
def word : List Char → Reader Unit
  | [] => return ()
  | c :: cs => do
    match ← next? with
    | none => fail .endInValue
    | some d => if d = c then word cs else fail .unknownWord

/-- The colon after a key. -/
def colon : Reader Unit := do
  blank
  match ← next? with
  | some ':' => return ()
  | some _ => fail .colonMissing
  | none => fail .endInObject

/-- **Reads a whole text**: one value and nothing after it. -/
def readAll (r : Reader α) (text : List Char) : Except Error α :=
  match (do let a ← r; blank; return a : Reader α).run text with
  | .error e => .error e
  | .ok (a, []) => .ok a
  | .ok (_, _ :: _) => .error .trailingText

end Reader

end CommandLog.Json
