import CommandLog.Disk.Lookup

/-!
# A disk

Operations on a disk by path.

* `CommandLog.Disk.read`, `CommandLog.Disk.put`, `CommandLog.Disk.add` – whole files;
* `CommandLog.Disk.create`, `CommandLog.Disk.openAppend` – files opened for writing, which are
  made if they are not there;
* `CommandLog.Disk.list`, `CommandLog.Disk.remove`, `CommandLog.Disk.makeDirectory`,
  `CommandLog.Disk.rename` – names.

Binding a name is one change: `CommandLog.Disk.rename` puts a file in place of another without
any state in between. When several things are wrong, the first one found decides, and each
operation looks for them in an order of its own.

Whatever opens a file follows a link at the end of its path, and makes the file that the link stands
for if it is not there; the operations on names act on the link itself. Nothing here makes a link or
a second name of a file: a disk has them from the start or not at all.
-/

namespace CommandLog.Disk

/-- The contents of the file that a path leads to. -/
def read (d : Disk) (path : Path) : Except Fault Bytes :=
  (d.locateFile path).map d.content

/-! ### Open files -/

/-- The file that a path leads to, made if it is not there. A slash behind the last name asks for
a directory, which is not made here. -/
def obtain (d : Disk) (path : Path) : Except Fault (FileId × Disk) :=
  match d.reach true path with
  | .error f => .error f
  | .ok (.directory _) => .error .isADirectory
  | .ok (.entry above name slash) =>
    if slash then .error .isADirectory
    else
      match d.child above name with
      | .error f => .error f
      | .ok none => .ok (d.addFile (above ++ [name]))
      | .ok (some (.file id)) => .ok (id, d)
      | .ok (some _) => .error .isADirectory

/-- Opens a file for writing from its start: made if it is not there, emptied if it is. -/
def create (d : Disk) (path : Path) : Except Fault (FileId × Disk) :=
  (d.obtain path).map fun (id, d) => (id, d.setContent id [])

/-- Opens a file for writing at its end: made if it is not there. -/
def openAppend (d : Disk) (path : Path) : Except Fault (FileId × Disk) :=
  d.obtain path

/-- A file with exactly the given contents. -/
def put (d : Disk) (path : Path) (data : Bytes) : Except Fault Disk :=
  (d.create path).map fun (id, d) => d.setContent id data

/-- More bytes at the end of a file, which is made if it is not there. -/
def add (d : Disk) (path : Path) (data : Bytes) : Except Fault Disk :=
  (d.openAppend path).map fun (id, d) => d.write id data

/-! ### Names -/

/-- The names in a directory, in ascending order. -/
def list (d : Disk) (path : Path) : Except Fault (List String) :=
  match d.reach false path with
  | .error f => .error f
  | .ok (.directory place) => .ok (d.namesIn place)
  | .ok (.entry above name _) =>
    match d.child above name with
    | .error f => .error f
    | .ok none => .error .notFound
    | .ok (some .directory) => .ok (d.namesIn (above ++ [name]))
    | .ok (some _) => .error .notADirectory

/-- The disk without a name of a file or of a link; the file itself stays for its other names, and
for whoever has it open. -/
def remove (d : Disk) (path : Path) : Except Fault Disk :=
  match d.goal path with
  | .error f => .error f
  | .ok (.directory _) => .error .isADirectory
  | .ok (.entry above name slash) =>
    match d.child above name with
    | .error f => .error f
    | .ok none => .error .notFound
    | .ok (some .directory) => .error .isADirectory
    | .ok (some _) =>
      if slash then .error .notADirectory else .ok (d.unbind (above ++ [name]))

/-- A new directory. -/
def makeDirectory (d : Disk) (path : Path) : Except Fault Disk :=
  match d.goal path with
  | .error f => .error f
  | .ok (.directory _) => .error .alreadyExists
  | .ok (.entry above name _) =>
    match d.child above name with
    | .error f => .error f
    | .ok (some _) => .error .alreadyExists
    | .ok none => .ok (d.bind (above ++ [name]) .directory)

/-- A node at another place than before, where something else may have been. -/
def replace (d : Disk) (source target : Place) : Node → Option Node → Except Fault Disk
  | .directory, none => .ok (d.moveTree source target)
  | .directory, some .directory =>
    if d.hasEntries target then .error .directoryNotEmpty
    else .ok ((d.unbind target).moveTree source target)
  | .directory, some _ => .error .notADirectory
  | _, some .directory => .error .isADirectory
  | node, _ => .ok ((d.unbind source).bind target node)

/-- **One name in place of another.** A file or a link replaces a file or a link and a directory
replaces a directory without entries, in one change; the old name is gone afterwards. Nothing
happens to two names of one file. A directory cannot move below itself, and what holds the source
cannot give way to it. -/
def rename (d : Disk) (source target : Path) : Except Fault Disk :=
  if source.hasNul || target.hasNul then .error .nulInName
  else
    match d.goal source, d.goal target with
    | .error f, _ => .error f
    | _, .error f => .error f
    | .ok (.entry above name slash), .ok (.entry above' name' slash') =>
      match d.child above name, d.child above' name' with
      | .error f, _ => .error f
      | .ok none, _ => .error .notFound
      | _, .error f => .error f
      | .ok (some node), .ok old =>
        let place := above ++ [name]
        let place' := above' ++ [name']
        if node ≠ .directory ∧ (slash || slash') then .error .notADirectory
        else if place.isPrefixOf above' then .error .invalidArgument
        else if place'.isPrefixOf above then .error .directoryNotEmpty
        else if place = place' ∨ node ≠ .directory ∧ old = some node then .ok d
        else d.replace place place' node old
    | _, _ => .error .busy

end CommandLog.Disk
