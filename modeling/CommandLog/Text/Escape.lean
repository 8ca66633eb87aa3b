import CommandLog.Text.Combining
import CommandLog.Text.Printable

/-!
# Escaped text

Text that is shown to a user is escaped so that every character of it can be seen: some control
characters and the backslash have escapes of their own, and any other character that cannot be
seen by itself is written as its code point in hexadecimal digits between braces.

* `CommandLog.Text.escapeRun` – text that stands by itself. A character that extends the one
  before it is only escaped at the front, where there is none;
* `CommandLog.Text.quote` – text between double quotes, in which single quotes are left alone
  and extending characters are always escaped.
-/

namespace CommandLog.Text

/-- What is escaped beyond what always is. -/
structure EscapeRule where
  /-- Whether a character that extends the one before it is escaped. -/
  extending : Bool
  /-- Whether a single quote is escaped. -/
  singleQuote : Bool

/-- A code point between braces. -/
def codePoint (c : Char) : List Char :=
  "\\u\x7b".toList ++ Nat.toDigits 16 c.toNat ++ ['\x7d']

/-- One character, escaped where needed. -/
def escapeChar (rule : EscapeRule) (c : Char) : List Char :=
  if c == '\x00' then ['\\', '0']
  else if c == '\t' then ['\\', 't']
  else if c == '\r' then ['\\', 'r']
  else if c == '\n' then ['\\', 'n']
  else if c == '\\' || c == '"' then ['\\', c]
  else if c == '\'' && rule.singleQuote then ['\\', c]
  else if rule.extending && extendsGrapheme c then codePoint c
  else if isPrintable c then [c]
  else codePoint c

/-- **Text that stands by itself.** -/
def escapeRun : List Char → List Char
  | [] => []
  | c :: rest =>
    escapeChar { extending := true, singleQuote := true } c ++
      rest.flatMap (escapeChar { extending := false, singleQuote := true })

/-- **Text between double quotes.** -/
def quote (text : List Char) : List Char :=
  '"' :: text.flatMap (escapeChar { extending := true, singleQuote := false }) ++ ['"']

end CommandLog.Text
