import Notebook.Disk
import Notebook.Session

/-!
# Discovering a session on disk

A session directory becomes a notebook: the package manifest if there is one, and a
code cell for every file of the session's language that lies directly in the source
directory, in the order of their names.  Without such a file the notebook gets one
empty cell.  Nothing is written.

A cell is named by a text.  A file with another name could not become a cell, and is not on a
disk in the first place.
-/

namespace Notebook
namespace Discovery

/-- Why a directory cannot be read as a session. -/
inductive Problem where
  | reading (path : String)
  | listing (path : String)
  deriving DecidableEq, Repr

/-- The wording of a problem. -/
def Problem.message : Problem → String
  | .reading path => s!"reading {path}"
  | .listing path => s!"listing {path}"

/-- The name of 32 hexadecimal digits that writes a number. -/
def hexId (n : Nat) : CellId :=
  let digits := Nat.toDigits 16 n
  ⟨String.ofList (List.replicate (32 - digits.length) '0' ++ digits)⟩

/-- The text of a file. -/
def readSource (disk : Disk) (cwd : Disk.Place) (path : String) : Except Problem String :=
  match disk.readText cwd path with
  | .ok text => .ok text
  | .error _ => .error (.reading path)

/-- The manifest, if it is a file. -/
def manifest (disk : Disk) (cwd : Disk.Place) (fresh : Nat → CellId) (dir : String) :
    Except Problem (List Cell) :=
  let path := Path.join dir "package.json"
  if disk.isFile cwd path then
    (readSource disk cwd path).map fun source => [.manifest ⟨fresh 0, source, .idle⟩]
  else .ok []

/-- Whether a name in a directory is a file of a language. -/
def isSource (disk : Disk) (cwd : Disk.Place) (src : String) (language : Language)
    (name : String) : Bool :=
  disk.isFile cwd (Path.join src name) && Language.ofFilename? name == some language

/-- The names of the source files in ascending order. -/
def sourceNames (disk : Disk) (cwd : Disk.Place) (src : String) (language : Language) :
    Except Problem (List String) :=
  match disk.list cwd src with
  | .error .notFound => .ok []
  | .error _ => .error (.listing src)
  | .ok names =>
    .ok (((names.map String.ofList).filter (isSource disk cwd src language)).mergeSort
      fun a b => !decide (b < a))

/-- The code cells of source files, named from a number on. -/
def codeCells (disk : Disk) (cwd : Disk.Place) (fresh : Nat → CellId) (src : String)
    (language : Language) : Nat → List String → Except Problem (List Cell)
  | _, [] => .ok []
  | n, name :: rest => do
    let source ← readSource disk cwd (Path.join src name)
    let others ← codeCells disk cwd fresh src language (n + 1) rest
    .ok (.code ⟨fresh n, source, name, language, .idle⟩ :: others)

/-- The session in a directory.  New cells take their names from `fresh`. -/
def discover (disk : Disk) (cwd : Disk.Place) (fresh : Nat → CellId) (id : SessionId)
    (dir : String) (language : Language) : Except Problem Session := do
  let first ← manifest disk cwd fresh dir
  let src := Path.join dir "src"
  let names ← sourceNames disk cwd src language
  let code ← codeCells disk cwd fresh src language 1 names
  let index : Cell := .code ⟨fresh 1, "", "index." ++ language.fileExtension, language, .idle⟩
  .ok ⟨id, dir, language, first ++ if code.isEmpty then [index] else code⟩

end Discovery
end Notebook
