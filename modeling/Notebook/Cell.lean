import Notebook.Identifier
import Notebook.Language

/-!
# Cells of a notebook

A notebook consists of titles, prose, code and at most a few package manifests.  Code
and manifests can have a process running, so only they carry a status.

On the wire the field `type` tells the kinds apart.  A cell is read from a document
that is held in memory as a whole, so every part of it has to have a value.
-/

namespace Notebook

/-- Whether a cell's process runs. -/
inductive CellStatus where
  | idle
  | running
  deriving DecidableEq, Repr, Inhabited

/-- A title or a piece of prose. -/
structure TextCell where
  id : CellId
  text : String
  deriving DecidableEq, Repr, Inhabited

/-- A piece of code with a file of its own. -/
structure CodeCell where
  id : CellId
  source : String
  filename : String
  language : Language
  status : CellStatus
  deriving DecidableEq, Repr, Inhabited

/-- The list of packages that a notebook depends on. -/
structure ManifestCell where
  id : CellId
  source : String
  status : CellStatus
  deriving DecidableEq, Repr, Inhabited

/-- A cell. -/
inductive Cell where
  | title (cell : TextCell)
  | markdown (cell : TextCell)
  | code (cell : CodeCell)
  | manifest (cell : ManifestCell)
  deriving DecidableEq, Repr, Inhabited

/-- The kinds of cell. -/
inductive CellKind where
  | title
  | markdown
  | code
  | manifest
  deriving DecidableEq, Repr, Inhabited

namespace CellStatus

/-- The name of a status. -/
def name : CellStatus → String
  | .idle => "idle"
  | .running => "running"

/-- The statuses by name. -/
def table : List (String × CellStatus) :=
  [("idle", .idle), ("running", .running)]

/-- The value of a status on the wire. -/
def toJson (s : CellStatus) : Json :=
  .string s.name

end CellStatus

/-- The kinds of cell by name. -/
def CellKind.table : List (String × CellKind) :=
  [("title", .title), ("markdown", .markdown), ("code", .code), ("package-json", .manifest)]

namespace Cell

/-- The name of a cell. -/
def id : Cell → CellId
  | .title c => c.id
  | .markdown c => c.id
  | .code c => c.id
  | .manifest c => c.id

/-- The status of a cell that can run. -/
def status? : Cell → Option CellStatus
  | .title _ => none
  | .markdown _ => none
  | .code c => some c.status
  | .manifest c => some c.status

/-- Whether a cell can run. -/
def hasStatus (c : Cell) : Bool :=
  c.status?.isSome

/-- The cell with another status; one that never runs stays as it is. -/
def withStatus (status : CellStatus) : Cell → Cell
  | .title c => .title c
  | .markdown c => .markdown c
  | .code c => .code { c with status }
  | .manifest c => .manifest { c with status }

/-- The cell with another text. -/
def withSource (source : String) : Cell → Cell
  | .title c => .title { c with text := source }
  | .markdown c => .markdown { c with text := source }
  | .code c => .code { c with source }
  | .manifest c => .manifest { c with source }

/-- The code cell that a cell is. -/
def code? : Cell → Option CodeCell
  | .code c => some c
  | _ => none

/-- Whether a cell is a package manifest. -/
def isManifest : Cell → Bool
  | .manifest _ => true
  | _ => false

@[simp]
theorem id_withStatus (s : CellStatus) (c : Cell) : (c.withStatus s).id = c.id := by
  cases c <;> rfl

@[simp]
theorem id_withSource (s : String) (c : Cell) : (c.withSource s).id = c.id := by
  cases c <;> rfl

end Cell

/-! ## On the wire -/

/-- The fields of a title or a piece of prose. -/
def TextCell.fields (c : TextCell) : List (String × Json) :=
  [("id", .string c.id.text), ("text", .string c.text)]

/-- The fields of a code cell. -/
def CodeCell.fields (c : CodeCell) : List (String × Json) :=
  [("id", .string c.id.text), ("source", .string c.source), ("filename", .string c.filename),
   ("language", c.language.toJson), ("status", c.status.toJson)]

/-- The fields of a manifest. -/
def ManifestCell.fields (c : ManifestCell) : List (String × Json) :=
  [("id", .string c.id.text), ("source", .string c.source), ("status", c.status.toJson)]

/-- The value of a code cell without its kind. -/
def CodeCell.toJson (c : CodeCell) : Json :=
  Json.ofFields c.fields

namespace Cell

open Json (Document)
open Json.Document (Route)

/-- The value of a cell on the wire. -/
def toJson : Cell → Json
  | .title c => Json.ofFields (("type", .string "title") :: c.fields)
  | .markdown c => Json.ofFields (("type", .string "markdown") :: c.fields)
  | .code c => Json.ofFields (("type", .string "code") :: c.fields)
  | .manifest c => Json.ofFields (("type", .string "package-json") :: c.fields)

/-- Reads the fields of a title or a piece of prose. -/
def textOf? (doc : Document) : Option TextCell :=
  match doc.record? ["id", "text"] with
  | some [id, text] => do
    let id ← id.required (·.string?)
    let text ← text.required (·.string?)
    pure ⟨⟨id⟩, text⟩
  | _ => none

/-- Reads the fields of a code cell. -/
def codeOf? (doc : Document) : Option CodeCell :=
  match doc.record? ["id", "source", "filename", "language", "status"] with
  | some [id, source, filename, language, status] => do
    let id ← id.required (·.string?)
    let source ← source.required (·.string?)
    let filename ← filename.required (·.string?)
    let language ← language.required (·.variant? .held Language.table)
    let status ← status.orElse .idle (·.variant? .held CellStatus.table)
    pure ⟨⟨id⟩, source, filename, language, status⟩
  | _ => none

/-- Reads the fields of a manifest. -/
def manifestOf? (doc : Document) : Option ManifestCell :=
  match doc.record? ["id", "source", "status"] with
  | some [id, source, status] => do
    let id ← id.required (·.string?)
    let source ← source.required (·.string?)
    let status ← status.orElse .idle (·.variant? .held CellStatus.table)
    pure ⟨⟨id⟩, source, status⟩
  | _ => none

/-- Reads a cell of a known kind. -/
def ofKind? (kind : CellKind) (doc : Document) : Option Cell :=
  match kind with
  | .title => (textOf? doc).map .title
  | .markdown => (textOf? doc).map .markdown
  | .code => (codeOf? doc).map .code
  | .manifest => (manifestOf? doc).map .manifest

/-- The kind that a document names.  One that was held in memory before may give the
place of the kind instead. -/
def kind? (route : Route) : Document → Option CellKind
  | .string (some name) =>
    (CellKind.table.find? (fun entry => entry.1 == name)).map (·.2)
  | .number (some (.integer (.ofNat n))) =>
    match route with
    | .held => (CellKind.table[n]?).map (·.2)
    | _ => none
  | _ => none

/-- The cell that a document writes: an object with its kind under `type`, or an array
with its kind in front.  At most `depth` containers may be nested. -/
def ofDocument? (route : Route) (depth : Nat) (doc : Document) : Option Cell :=
  if doc.readable depth then
    match doc with
    | .object fields =>
      match Json.Document.named "type" fields with
      | [kind] => do
        let kind ← kind? route kind
        ofKind? kind (.object (fields.filter (fun field => field.1 != some "type")))
      | _ => none
    | .array (kind :: items) => do
      let kind ← kind? route kind
      ofKind? kind (.array items)
    | _ => none
  else none

end Cell
end Notebook
