import CommandLog.Fault

/-!
# Paths

A path is the way to a file as somebody wrote it: names separated by slashes. Two paths may lead
to one place, and what a path leads to depends on the disk; a path by itself is only its text, cut
at the slashes.

* `CommandLog.Path` – the parts of a text between its slashes;
* `CommandLog.Path.names`, `CommandLog.Path.isAbsolute`, `CommandLog.Path.endsInSlash` – what the
  parts say about the way;
* `CommandLog.Path.fault?` – why a text can be no path on any disk;
* `CommandLog.Path.temporary` – the sibling that a file is written to before it takes the file's
  place: the same name with its extension replaced by `tmp`, or with `.tmp` added when it has none.

A dot at the very front of a name begins no extension, and a path whose own extension is `tmp` is
its own temporary sibling. A path that ends in no name, such as the parent of a directory, has no
other sibling than itself.
-/

namespace CommandLog

/-- A path as it is written. -/
structure Path where
  /-- The texts between the slashes, in order. Empty ones come from a slash at the front, at the
  end, or behind another slash. -/
  parts : List String
deriving DecidableEq, Repr, Inhabited

namespace Path

/-- The path that a text stands for. -/
def ofString (text : String) : Path where
  parts := text.splitOn "/"

/-- A path as text. -/
def text (p : Path) : String :=
  "/".intercalate p.parts

/-- The name by which a directory is in itself. -/
def selfName : String := "."

/-- The name by which a directory has its parent. -/
def parentName : String := ".."

/-- The names on the way, in order. -/
def names (p : Path) : List String :=
  p.parts.filter (· ≠ "")

/-- Whether the way starts at the root, and not in the working directory. -/
def isAbsolute (p : Path) : Bool :=
  match p.parts with
  | "" :: _ :: _ => true
  | _ => false

/-- Whether a slash follows the last name, so that it must be the name of a directory. -/
def endsInSlash (p : Path) : Bool :=
  p.parts.getLast? == some ""

/-- Length that a name may have at most, in bytes. -/
def maxNameBytes : Nat := 255

/-- Length that a path may have at most, in bytes. -/
def maxBytes : Nat := 4095

/-- Whether a path has the character in it that ends texts for the operating system. -/
def hasNul (p : Path) : Bool :=
  p.parts.any (·.contains '\x00')

/-- **Why a text is no path at all**, whatever is on the disk. -/
def fault? (p : Path) : Option Fault :=
  if p.hasNul then some .nulInName
  else if maxBytes < p.text.utf8ByteSize then some .nameTooLong
  else if p.text.isEmpty then some .notFound
  else none

/-! ### Siblings -/

/-- A file name without its extension. -/
def stem (name : String) : String :=
  match name.toList.reverse.span (· != '.') with
  | (_, _ :: c :: before) => String.ofList (c :: before).reverse
  | _ => name

/-- Whether a part leads nowhere, so that what it follows is the end of the path. -/
def isIdle (part : String) : Bool :=
  part == "" || part == selfName

/-- The parts of a path up to its last name. -/
def upToLastName (p : Path) : List String :=
  (p.parts.reverse.dropWhile isIdle).reverse

/-- **The sibling that a file is written to before it replaces the file.** What follows the last
name is left out. The old extension is taken off first; where a name at the very end is then the
name of the parent directory, there is no file to give a new extension to, and the path is that of
the parent directory. -/
def temporary (p : Path) : Path :=
  match p.upToLastName.getLast? with
  | none => p
  | some name =>
    let above := p.upToLastName.dropLast
    if name = parentName then p
    else if stem name = selfName ∧ p.upToLastName = p.parts then ⟨above ++ [parentName]⟩
    else ⟨above ++ [stem name ++ ".tmp"]⟩

end Path

end CommandLog
