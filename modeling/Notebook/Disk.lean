import Notebook.Path
import Notebook.Table

/-!
# The disk

Files and directories by their place, which is the list of names that lead to them from
the root.  A path is followed name by name, and all but the last name have to lead to
directories, so an operation either changes exactly the place that its path leads to or
reports why it cannot.

Names are Unicode texts, as all paths here are: a file whose name cannot be written as a text is
on no disk.  Nor has a disk owners or permissions; everything may be read, listed and written, and
a file only bears a mark if it may be executed.
-/

namespace Notebook

/-- What is stored at a place. -/
inductive Node where
  | file (data : ByteArray) (executable : Bool)
  | directory
  deriving Inhabited

/-- Files and directories. -/
structure Disk where
  nodes : Table (List (List Char)) Node
  deriving Inhabited

namespace Disk

/-- The names that lead from the root to a file or directory. -/
abbrev Place := List (List Char)

/-- Why an operation fails. -/
inductive Problem where
  | notFound
  | notDirectory
  | isDirectory
  | alreadyExists
  | notEmpty
  | nameTooLong
  | invalidName
  | denied
  deriving DecidableEq, Repr

/-- The wording of a problem. -/
def Problem.message : Problem → String
  | .notFound => "No such file or directory"
  | .notDirectory => "Not a directory"
  | .isDirectory => "Is a directory"
  | .alreadyExists => "File exists"
  | .notEmpty => "Directory not empty"
  | .nameTooLong => "File name too long"
  | .invalidName => "Invalid argument"
  | .denied => "Permission denied"

/-- The disk without files. -/
def empty : Disk :=
  ⟨.empty⟩

/-- What is stored at a place; the root is always a directory. -/
def node? (d : Disk) (place : Place) : Option Node :=
  if place = [] then some .directory else d.nodes.find? place

/-- Whether a directory is stored at a place. -/
def holdsDirectory (d : Disk) (place : Place) : Bool :=
  match d.node? place with
  | some .directory => true
  | _ => false

/-- The greatest number of bytes in a name. -/
def nameLimit : Nat := 255

/-- The number of bytes of a name. -/
def nameSize (name : List Char) : Nat :=
  name.foldl (fun size c => size + c.utf8Size) 0

/-- Follows one component from a place, which has to be a directory. -/
def step (d : Disk) (place : Place) (c : Path.Component) : Except Problem Place :=
  match d.node? place with
  | none => .error .notFound
  | some (.file ..) => .error .notDirectory
  | some .directory =>
    match c with
    | .root => .ok []
    | .current => .ok place
    | .parent => .ok place.dropLast
    | .name name =>
      if nameLimit < nameSize name then .error .nameTooLong
      else if '\x00' ∈ name then .error .invalidName
      else .ok (place ++ [name])

/-- Whether a path ends in a way that only a directory has. -/
def endsAsDirectory (path : List Char) : Bool :=
  path.getLast? = some '/' || (Path.pieces path).getLast? = some ['.']

/-- The place that a path leads to from a directory.  Nothing needs to be there. -/
def locate (d : Disk) (cwd : Place) (path : String) : Except Problem Place :=
  if path.isEmpty then .error .notFound
  else (Path.components path.toList).foldlM d.step cwd

/-! ## Reading -/

/-- What a path leads to. -/
def find (d : Disk) (cwd : Place) (path : String) : Except Problem (Place × Node) := do
  let place ← d.locate cwd path
  match d.node? place with
  | none => .error .notFound
  | some (.file data executable) =>
    if endsAsDirectory path.toList then .error .notDirectory
    else .ok (place, .file data executable)
  | some .directory => .ok (place, .directory)

/-- Whether a path leads to something. -/
def isThere (d : Disk) (cwd : Place) (path : String) : Bool :=
  (d.find cwd path).toOption.isSome

/-- Whether a path leads to a file. -/
def isFile (d : Disk) (cwd : Place) (path : String) : Bool :=
  match d.find cwd path with
  | .ok (_, .file ..) => true
  | _ => false

/-- Whether a path leads to a directory. -/
def isDirectory (d : Disk) (cwd : Place) (path : String) : Bool :=
  match d.find cwd path with
  | .ok (_, .directory) => true
  | _ => false

/-- The bytes of a file. -/
def read (d : Disk) (cwd : Place) (path : String) : Except Problem ByteArray := do
  match ← d.find cwd path with
  | (_, .file data _) => .ok data
  | (_, .directory) => .error .isDirectory

/-- The text of a file. -/
def readText (d : Disk) (cwd : Place) (path : String) : Except Problem String := do
  match String.fromUTF8? (← d.read cwd path) with
  | some text => .ok text
  | none => .error .invalidName

/-- The names in a directory. -/
def namesIn (d : Disk) (place : Place) : List (List Char) :=
  d.nodes.entries.filterMap fun (other, _) =>
    if other.length = place.length + 1 ∧ other.take place.length = place then other.getLast?
    else none

/-- The names in the directory that a path leads to. -/
def list (d : Disk) (cwd : Place) (path : String) : Except Problem (List (List Char)) := do
  match ← d.find cwd path with
  | (place, .directory) => .ok (d.namesIn place)
  | _ => .error .notDirectory

/-! ## Changing -/

/-- Stores something at a place. -/
def put (d : Disk) (place : Place) (node : Node) : Disk :=
  ⟨d.nodes.set place node⟩

/-- The place of a file that is about to be written, and whether it is executable. -/
def target (d : Disk) (cwd : Place) (path : String) :
    Except Problem (Place × Option ByteArray × Bool) := do
  let place ← d.locate cwd path
  match d.node? place with
  | some .directory => .error .isDirectory
  | some (.file data executable) =>
    if endsAsDirectory path.toList then .error .notDirectory
    else .ok (place, some data, executable)
  | none =>
    if endsAsDirectory path.toList then .error .isDirectory else .ok (place, none, false)

/-- Gives a file new contents; a missing file is created. -/
def write (d : Disk) (cwd : Place) (path : String) (data : ByteArray) :
    Except Problem Disk := do
  let (place, _, executable) ← d.target cwd path
  .ok (d.put place (.file data executable))

/-- Adds to the end of a file; a missing file is created. -/
def append (d : Disk) (cwd : Place) (path : String) (data : ByteArray) :
    Except Problem Disk := do
  let (place, old, executable) ← d.target cwd path
  .ok (d.put place (.file ((old.getD .empty) ++ data) executable))

/-- Follows one component, and makes a directory if nothing is there. -/
def makeStep (s : Disk × Place) (c : Path.Component) : Except Problem (Disk × Place) := do
  let (d, place) := s
  let next ← d.step place c
  match d.node? next with
  | none => .ok (d.put next .directory, next)
  | some .directory => .ok (d, next)
  | some (.file ..) => .error .alreadyExists

/-- Makes a directory with all those on the way. -/
def makeDirectories (d : Disk) (cwd : Place) (path : String) : Except Problem Disk := do
  let (d, _) ← (Path.components path.toList).foldlM makeStep (d, cwd)
  .ok d

/-- Makes one directory. -/
def makeDirectory (d : Disk) (cwd : Place) (path : String) : Except Problem Disk := do
  let place ← d.locate cwd path
  match d.node? place with
  | none => .ok (d.put place .directory)
  | some _ => .error .alreadyExists

/-- Removes a file. -/
def removeFile (d : Disk) (cwd : Place) (path : String) : Except Problem Disk := do
  match ← d.find cwd path with
  | (place, .file ..) => .ok ⟨d.nodes.erase place⟩
  | (_, .directory) => .error .isDirectory

/-- Removes whatever is at a place and below it. -/
def removeTree (d : Disk) (place : Place) : Disk :=
  ⟨⟨d.nodes.entries.filter fun entry => entry.1.take place.length ≠ place⟩⟩

/-- Removes an empty directory. -/
def removeDirectory (d : Disk) (cwd : Place) (path : String) : Except Problem Disk := do
  match ← d.find cwd path with
  | (place, .directory) =>
    if (d.namesIn place).isEmpty then .ok ⟨d.nodes.erase place⟩ else .error .notEmpty
  | (_, .file ..) => .error .notDirectory

/-! ## Texts of places -/

/-- The absolute path of a place. -/
def pathOf (place : Place) : String :=
  if place = [] then "/" else String.ofList (place.flatMap ('/' :: ·))

end Disk
end Notebook
