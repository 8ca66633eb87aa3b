import CommandLog.Text.Escape
import CommandLog.Text.Shortest

/-!
# What can be wrong with a JSON text

A text may break the rules of JSON, or it may be JSON and hold something else than what is wanted.
Both are causes of one type, `CommandLog.Json.Error`, because a text is read once from its front
to its end and the first thing that is wrong decides.

The wording, `CommandLog.Json.Error.message`, names what was found by its kind and value:
`CommandLog.Json.Found.describe`.
-/

namespace CommandLog.Json

/-- What was found where something else was wanted. -/
inductive Found where
  /-- The value `null`. -/
  | null
  /-- A truth value. -/
  | boolean (b : Bool)
  /-- A whole number. -/
  | integer (n : Int)
  /-- A number that is not whole, or too great to be kept as a whole one. -/
  | float (x : Float)
  /-- A text. -/
  | text (cs : List Char)
  /-- A list. -/
  | list
  /-- An object. -/
  | object

/-- What is wrong with a text. -/
inductive Error where
  /-- The text ends inside a list. -/
  | endInList
  /-- The text ends inside an object. -/
  | endInObject
  /-- The text ends inside a quoted text. -/
  | endInText
  /-- The text ends where a value is wanted. -/
  | endInValue
  /-- The key of a field is not followed by a colon. -/
  | colonMissing
  /-- An element of a list is followed by neither a comma nor the end of the list. -/
  | listGoesWrong
  /-- A field of an object is followed by neither a comma nor the end of the object. -/
  | objectGoesWrong
  /-- A word begins like `null`, `true` or `false` but is another one. -/
  | unknownWord
  /-- No value begins like this. -/
  | valueMissing
  /-- A backslash is followed by something that it does not go with. -/
  | invalidEscape
  /-- A number is written in a form that is not allowed. -/
  | invalidNumber
  /-- A number is too great. -/
  | numberTooGreat
  /-- A quoted text holds a control character. -/
  | controlCharacter
  /-- A field does not begin with a quoted key. -/
  | keyNotQuoted
  /-- The second half of a surrogate pair stands where it cannot, or the first half is followed by
  an escape that is no second half. -/
  | loneSurrogate
  /-- The first half of a surrogate pair is not followed by another escape. -/
  | pairUnfinished
  /-- A comma is followed by the end of the list or object. -/
  | trailingComma
  /-- There is more text after the end. -/
  | trailingText
  /-- A value of another kind is wanted. -/
  | wrongKind (found : Found) (wanted : String)
  /-- A whole number in another range is wanted. -/
  | wrongRange (found : Int) (wanted : String)
  /-- A field is there twice. -/
  | repeatedField (name : String)
  /-- A text is not what it should stand for. -/
  | malformed (detail : String)

/-- What was found, in words. -/
def Found.describe : Found → String
  | .null => "null"
  | .boolean b => "boolean `" ++ toString b ++ "`"
  | .integer n => "integer `" ++ toString n ++ "`"
  | .float x => "floating point `" ++ String.ofList (Shortest.render x) ++ "`"
  | .text cs => "string " ++ String.ofList (Text.quote cs)
  | .list => "sequence"
  | .object => "map"

/-- The wording of an error. -/
def Error.message : Error → String
  | .endInList => "EOF while parsing a list"
  | .endInObject => "EOF while parsing an object"
  | .endInText => "EOF while parsing a string"
  | .endInValue => "EOF while parsing a value"
  | .colonMissing => "expected `:`"
  | .listGoesWrong => "expected `,` or `]`"
  | .objectGoesWrong => "expected `,` or `\x7d`"
  | .unknownWord => "expected ident"
  | .valueMissing => "expected value"
  | .invalidEscape => "invalid escape"
  | .invalidNumber => "invalid number"
  | .numberTooGreat => "number out of range"
  | .controlCharacter => "control character (\\u0000-\\u001F) found while parsing a string"
  | .keyNotQuoted => "key must be a string"
  | .loneSurrogate => "lone leading surrogate in hex escape"
  | .pairUnfinished => "unexpected end of hex escape"
  | .trailingComma => "trailing comma"
  | .trailingText => "trailing characters"
  | .wrongKind found wanted => "invalid type: " ++ found.describe ++ ", expected " ++ wanted
  | .wrongRange found wanted =>
    "invalid value: " ++ (Found.integer found).describe ++ ", expected " ++ wanted
  | .repeatedField name => "duplicate field `" ++ name ++ "`"
  | .malformed detail => detail

end CommandLog.Json
