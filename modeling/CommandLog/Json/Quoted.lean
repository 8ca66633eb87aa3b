import CommandLog.Json.Reader

/-!
# Quoted texts

A text stands between double quotes. A backslash begins an escape: one of eight characters, or the
letter `u` with four hexadecimal digits. Characters beyond the first plane are written as the two
halves of a surrogate pair, each an escape of its own, and a half cannot stand alone.

`CommandLog.Json.Reader.quoted` reads a text from after its opening quote on.
`CommandLog.Json.Reader.skipQuoted` finds the end of a text that nobody wants: escapes must have
their form, but surrogates are not paired.
-/

namespace CommandLog.Json.Reader

/-- The value of a hexadecimal digit. -/
def hexValue? (c : Char) : Option Nat :=
  if '0' ≤ c ∧ c ≤ '9' then some (c.toNat - '0'.toNat)
  else if 'a' ≤ c ∧ c ≤ 'f' then some (c.toNat - 'a'.toNat + 10)
  else if 'A' ≤ c ∧ c ≤ 'F' then some (c.toNat - 'A'.toNat + 10)
  else none

/-- The number that four characters stand for, if they are hexadecimal digits. -/
def hexNumber? (cs : List Char) : Option Nat :=
  if cs.length = 4 then
    cs.foldl (fun n? c => do return (← n?) * 16 + (← hexValue? c)) (some 0)
  else none

/-- The number in an escape: four hexadecimal digits. The text must have at least four bytes
left, whatever they are. -/
def hexEscape : Reader Nat where
  run cs :=
    let digits := cs.take 4
    if (String.ofList digits).utf8ByteSize < 4 then .error .endInText
    else
      match hexNumber? digits with
      | some n => .ok (n, cs.drop 4)
      | none => .error .invalidEscape
  length_le {cs} _ _ h := by
    simp only at h
    split at h
    · cases h
    · split at h
      · cases h
        simp
      · cases h

/-- Whether a number is the first half of a surrogate pair. -/
def isFirstHalf (n : Nat) : Bool :=
  0xd800 ≤ n && n ≤ 0xdbff

/-- Whether a number is the second half of a surrogate pair. -/
def isSecondHalf (n : Nat) : Bool :=
  0xdc00 ≤ n && n ≤ 0xdfff

/-- The character that the two halves of a surrogate pair stand for. -/
def ofHalves (first second : Nat) : Char :=
  Char.ofNat ((first - 0xd800) * 0x400 + (second - 0xdc00) + 0x10000)

/-- One of two characters that must follow the first half of a surrogate pair. -/
def pairGoesOn (c : Char) : Reader Unit := do
  match ← next? with
  | none => fail .endInText
  | some d => if d = c then return () else fail .pairUnfinished

/-- The character of an escape by number. -/
def numberedEscape : Reader Char := do
  let n ← hexEscape
  if isSecondHalf n then fail .loneSurrogate
  else if isFirstHalf n then
    pairGoesOn '\\'
    pairGoesOn 'u'
    let m ← hexEscape
    if isSecondHalf m then return ofHalves n m else fail .loneSurrogate
  else return Char.ofNat n

/-- What the character after a backslash stands for, if it stands for one by itself. -/
def escaped? : Char → Option Char
  | '"' => some '"'
  | '\\' => some '\\'
  | '/' => some '/'
  | 'b' => some '\x08'
  | 'f' => some '\x0c'
  | 'n' => some '\n'
  | 'r' => some '\r'
  | 't' => some '\t'
  | _ => none

/-- What follows a backslash, with a reader for escapes by number. -/
def escape {α : Type} (simple : Char → α) (numbered : Reader α) : Reader α := do
  match ← next? with
  | none => fail .endInText
  | some 'u' => numbered
  | some c =>
    match escaped? c with
    | some d => return simple d
    | none => fail .invalidEscape

/-- **A text** from after its opening quote on. -/
def quoted : Reader (List Char) :=
  rounds (fun _ => .endInText)
    (fun (before : List Char) c => do
      if c = '"' then return .inr before.reverse
      else if c = '\\' then return .inl ((← escape id numberedEscape) :: before)
      else if c < ' ' then fail .controlCharacter
      else return .inl (c :: before))
    []

/-- The end of a text that nobody wants. -/
def skipQuoted : Reader Unit :=
  rounds (fun _ => .endInText)
    (fun () c => do
      if c = '"' then return .inr ()
      else if c = '\\' then
        escape (fun _ => ()) (do let _ ← hexEscape)
        return .inl ()
      else if c < ' ' then fail .controlCharacter
      else return .inl ())
    ()

end CommandLog.Json.Reader
