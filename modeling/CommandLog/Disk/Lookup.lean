import CommandLog.Disk.Tree

/-!
# Finding places

A path is followed from the root or from the working directory, one name after the other. All names
but the last one must be those of directories that are there, or of links to such directories; the
last one need not be there yet, and what is done with it depends on the operation.

* `CommandLog.Disk.resolve` – **the end of a way**, with every link on it followed;
* `CommandLog.Disk.goal` – the end of a path by its own last name, even where that is the name of a
  link, and `CommandLog.Disk.reach` – its end where a link in that position is followed as well;
* `CommandLog.Disk.locate` – **what a path leads to**, or why it leads nowhere.

A parent is looked for in the tree, not in the path: the parent of a name that is not there, or is
that of a file, is no directory. A link takes the place of its name in the way, so that a path that
does not start at the root starts in the directory that the link is in. A way with more than
`CommandLog.Disk.maxLinks` links on it, such as one that leads back to itself, is refused as too
long; the error that the operating system has for this differs in its wording only.
-/

namespace CommandLog.Disk

/-- What a directory has under a name. -/
def child (d : Disk) (above : Place) (name : String) : Except Fault (Option Node) :=
  if Path.maxNameBytes < name.utf8ByteSize then .error .nameTooLong
  else .ok (d.node? (above ++ [name]))

/-- Where the way of a path starts, seen from a directory. -/
def startFrom (directory : Place) (path : Path) : Place :=
  if path.isAbsolute then [] else directory

/-- The end of a path. -/
inductive Goal where
  /-- A name in a directory, which may have a slash behind it. -/
  | entry (above : Place) (name : String) (slash : Bool)
  /-- A directory that is reached otherwise than by its name in the directory above it. -/
  | directory (place : Place)
deriving DecidableEq, Repr, Inhabited

/-- Number of links that a way may have on it. -/
def maxLinks : Nat := 40

/-- **The end of a way** that goes on from a directory by some names, when so many more links may be
followed. A link is followed wherever another name comes behind it, and at the end if `follows`
says so, which is told whether a slash stands behind the last name. The parent of the root is the
root. -/
def resolve (d : Disk) (follows : Bool → Bool) (left : Nat) (slash : Bool) (place : Place) :
    List String → Except Fault Goal
  | [] => .ok (.directory place)
  | name :: rest =>
    if name = Path.selfName then resolve d follows left slash place rest
    else if name = Path.parentName then resolve d follows left slash place.dropLast rest
    else if rest = [] ∧ ¬follows slash then .ok (.entry place name slash)
    else
      match d.child place name with
      | .ok (some (.link _ target)) =>
        match left, target.fault? with
        | 0, _ => .error .nameTooLong
        | _ + 1, some f => .error f
        | left + 1, none =>
          -- the names behind the link stay, and so does what stands behind the last of them
          resolve d follows left (slash || rest.isEmpty && target.endsInSlash)
            (startFrom place target) (target.names ++ rest)
      | found =>
        if rest = [] then .ok (.entry place name slash)
        else
          match found with
          | .error f => .error f
          | .ok none => .error .notFound
          | .ok (some .directory) => resolve d follows left slash (place ++ [name]) rest
          | .ok (some _) => .error .notADirectory
termination_by names => (left, names.length)

/-- The end of the way of a path. -/
def finish (d : Disk) (follows : Bool → Bool) (path : Path) : Except Fault Goal :=
  match path.fault? with
  | some f => .error f
  | none => d.resolve follows maxLinks path.endsInSlash (startFrom d.home path) path.names

/-- **The end of a path** by its own last name. -/
def goal (d : Disk) (path : Path) : Except Fault Goal :=
  d.finish (fun _ => false) path

/-- **The end of a path** with a link there followed, as when the path is to be opened. A file may
be made at the end if `creates` is set; then a slash behind a name asks for a directory, which is
not made, and the name is not followed. -/
def reach (d : Disk) (creates : Bool) (path : Path) : Except Fault Goal :=
  d.finish (fun slash => !(creates && slash)) path

/-- **What a path leads to**: a node, or nothing although the directory it would be in exists, or
a fault on the way. A slash follows names of directories only. -/
def locate (d : Disk) (path : Path) : Except Fault (Option Node) :=
  match d.reach false path with
  | .error f => .error f
  | .ok (.directory _) => .ok (some .directory)
  | .ok (.entry above name slash) =>
    match d.child above name with
    | .ok (some (.file id)) => if slash then .error .notADirectory else .ok (some (.file id))
    | found => found

/-- The file that a path leads to. -/
def locateFile (d : Disk) (path : Path) : Except Fault FileId :=
  match d.locate path with
  | .error f => .error f
  | .ok none => .error .notFound
  | .ok (some (.file id)) => .ok id
  | .ok (some _) => .error .isADirectory

/-- Whether a path leads to anything. -/
def hasPath (d : Disk) (path : Path) : Bool :=
  match d.locate path with
  | .ok (some _) => true
  | _ => false

/-- Whether a path leads to a directory or to a file that is not empty. -/
def hasContent (d : Disk) (path : Path) : Bool :=
  match d.locate path with
  | .ok (some (.file id)) => !(d.content id).isEmpty
  | .ok (some _) => true
  | _ => false

end CommandLog.Disk
