import Notebook.Cell
import Notebook.Path

/-!
# Sessions

An open notebook: its cells in order, its language and the directory it lives in.
Cells are found by their names; code cells also by their filenames.  Inserting and
replacing refuse a name or filename that another cell has, so these stay unique in a
session that starts with unique ones.
-/

namespace Notebook

/-- An open notebook. -/
structure Session where
  id : SessionId
  dir : String
  language : Language
  cells : List Cell
  deriving DecidableEq, Repr, Inhabited

namespace Session

/-- Why an edit is refused. -/
inductive Problem where
  | cellNotFound (id : CellId)
  | duplicateId (id : CellId)
  | duplicateFilename (filename : String)
  deriving DecidableEq, Repr

/-- The wording of a problem. -/
def Problem.message : Problem → String
  | .cellNotFound id => s!"cell {id.text} not found"
  | .duplicateId id => s!"a cell with id {id.text} already exists"
  | .duplicateFilename filename => s!"a code cell named '{filename}' already exists"

/-! ## Places on disk -/

/-- The directory of the code cells' files. -/
def sourceDir (s : Session) : String :=
  Path.join s.dir "src"

/-- The file of a code cell. -/
def pathFor (s : Session) (filename : String) : String :=
  Path.join s.sourceDir filename

/-- The file of the package manifest. -/
def manifestPath (s : Session) : String :=
  Path.join s.dir "package.json"

/-! ## Finding cells -/

/-- The first cell with a name. -/
def cell? (s : Session) (id : CellId) : Option Cell :=
  s.cells.find? (fun c => c.id == id)

/-- The code cells in order. -/
def codeCells (s : Session) : List CodeCell :=
  s.cells.filterMap Cell.code?

/-- The first code cell with a filename. -/
def codeNamed? (s : Session) (filename : String) : Option CodeCell :=
  s.codeCells.find? (fun c => c.filename == filename)

/-- The filenames of the code cells in order. -/
def filenames (s : Session) : List String :=
  s.codeCells.map (·.filename)

/-! ## Edits -/

/-- Changes the first cell with a name. -/
def updateCells (id : CellId) (f : Cell → Cell) : List Cell → List Cell
  | [] => []
  | c :: rest => if c.id = id then f c :: rest else c :: updateCells id f rest

/-- Changes the first cell with a name. -/
def update (s : Session) (id : CellId) (f : Cell → Cell) : Session :=
  { s with cells := updateCells id f s.cells }

/-- The code cell that already has the filename of a cell, if there is one. -/
def holder? (s : Session) (cell : Cell) : Option CodeCell :=
  cell.code?.bind fun code => s.codeNamed? code.filename

/-- Puts a cell in the place of the one with its name, which is returned. -/
def replace (s : Session) (cell : Cell) : Except Problem (Cell × Session) :=
  match s.holder? cell with
  | some other =>
    if other.id ≠ cell.id then .error (.duplicateFilename other.filename)
    else
      match s.cell? cell.id with
      | some old => .ok (old, s.update cell.id fun _ => cell)
      | none => .error (.cellNotFound cell.id)
  | none =>
    match s.cell? cell.id with
    | some old => .ok (old, s.update cell.id fun _ => cell)
    | none => .error (.cellNotFound cell.id)

/-- Takes out the first cell with a name. -/
def remove (s : Session) (id : CellId) : Except Problem (Cell × Session) :=
  match s.cell? id with
  | some old => .ok (old, { s with cells := s.cells.eraseP (fun c => c.id == id) })
  | none => .error (.cellNotFound id)

/-- Puts a new cell at a place, or at the end when there are fewer cells. -/
def insert (s : Session) (index : Nat) (cell : Cell) : Except Problem Session :=
  match s.cell? cell.id with
  | some _ => .error (.duplicateId cell.id)
  | none =>
    match s.holder? cell with
    | some other => .error (.duplicateFilename other.filename)
    | none => .ok { s with cells := s.cells.insertIdx (min index s.cells.length) cell }

end Session
end Notebook
