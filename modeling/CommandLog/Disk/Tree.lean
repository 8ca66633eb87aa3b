import CommandLog.Bytes
import CommandLog.Disk.Path

/-!
# The tree of names

A disk is a tree of names with files and links at its leaves. Names and files are separate: a name
is bound to a numbered file, so that a file may have several names, and stays what it is for
whoever has it open when a name of it is removed or bound to another file.

* `CommandLog.Place` – a position in the tree;
* `CommandLog.Disk` – what is at each place, and the contents of the files by number;
* `CommandLog.Disk.bind`, `CommandLog.Disk.unbind`, `CommandLog.Disk.moveTree` – changes of names;
* `CommandLog.Disk.write`, `CommandLog.Disk.setContent` – changes of files.

Everything here happens at places; which place a path leads to is a question of its own. A link is
one more path, and is only followed where that question is asked.
-/

namespace CommandLog

/-- A position in the tree of names: the names that lead to it from the root. -/
abbrev Place := List String

/-- The number of a file, which outlives its names. -/
abbrev FileId := Nat

/-- What a name is bound to. -/
inductive Disk.Node where
  /-- A file, by its number. -/
  | file (id : FileId)
  /-- A symbolic link, by a number of its own, with the path that it stands for. -/
  | link (id : Nat) (target : Path)
  /-- A directory. -/
  | directory
deriving DecidableEq, Repr, Inhabited

/-- A tree of names and the files that they are bound to. -/
structure Disk where
  /-- The working directory, in which paths start that do not start at the root. -/
  home : Place
  /-- Every place other than the root, with what is there. -/
  names : List (Place × Disk.Node)
  /-- The contents of every file ever created, by number. -/
  files : Array Bytes
deriving Repr, Inhabited

namespace Disk

/-- The disk with a working directory, the directories around it, and nothing else. -/
def under (home : Place) : Disk where
  home
  names := (List.range home.length).map fun n => (home.take (n + 1), .directory)
  files := #[]

/-- The disk with nothing on it but the working directory. -/
def empty : Disk :=
  under ["home"]

/-- What is at a place; the root is always there. -/
def node? (d : Disk) (place : Place) : Option Node :=
  if place.isEmpty then some .directory else d.names.lookup place

/-! ### Names -/

/-- The disk with one name bound to a node, whatever it was bound to before. -/
def bind (d : Disk) (place : Place) (node : Node) : Disk :=
  { d with names := (place, node) :: d.names.filter (·.1 ≠ place) }

/-- The disk without one name. -/
def unbind (d : Disk) (place : Place) : Disk :=
  { d with names := d.names.filter (·.1 ≠ place) }

/-- The names in a directory, in ascending order. -/
def namesIn (d : Disk) (directory : Place) : List String :=
  (d.names.filterMap fun (place, _) =>
    if place.dropLast = directory then place.getLast? else none).mergeSort fun a b => decide (a ≤ b)

/-- Whether some name lies below a place. -/
def hasEntries (d : Disk) (place : Place) : Bool :=
  d.names.any fun (p, _) => place.isPrefixOf p.dropLast

/-- Where a place is once `source` has become `target`. -/
def moved (source target place : Place) : Place :=
  if source.isPrefixOf place then target ++ place.drop source.length else place

/-- Every name at or below `source` moved to the same place at or below `target`. The working
directory moves with the names. -/
def moveTree (d : Disk) (source target : Place) : Disk :=
  { d with
    home := moved source target d.home
    names := d.names.map fun (p, node) => (moved source target p, node) }

/-! ### Files -/

/-- The contents of a file. -/
def content (d : Disk) (id : FileId) : Bytes :=
  (d.files[id]?).getD []

/-- The disk with the contents of one file replaced. -/
def setContent (d : Disk) (id : FileId) (bytes : Bytes) : Disk :=
  { d with files := d.files.setIfInBounds id bytes }

/-- More bytes at the end of a file. -/
def write (d : Disk) (id : FileId) (data : Bytes) : Disk :=
  d.setContent id (d.content id ++ data)

/-- A new file without bytes, bound to a name. -/
def addFile (d : Disk) (place : Place) : FileId × Disk :=
  (d.files.size, { d with files := d.files.push [] }.bind place (.file d.files.size))

end Disk

end CommandLog
