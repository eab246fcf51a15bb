import Notebook.Cell
import Notebook.Schema

/-!
# Intents

What a client asks of a session.  On the wire an intent is an event name with a
payload; `Intent.payload` and `Intent.ofTagged?` write and read it, and
`Intent.schemas` states the shape of every payload.
-/

namespace Notebook

/-- What a client wants to know about a place in a cell. -/
inductive Navigation where
  | quickinfo
  | definition
  | completions
  deriving DecidableEq, Repr, Inhabited

/-- A place in a cell's source, and the name under which the answer is expected. -/
structure Query where
  request : RequestId
  cell : CellId
  offset : UInt64
  deriving DecidableEq, Repr, Inhabited

/-- What a client asks of a session. -/
inductive Intent where
  | execute (cell : CellId)
  | stop (cell : CellId)
  /-- A new cell; an index past the end appends. -/
  | create (index : UInt64) (cell : Cell)
  | rename (cell : CellId) (filename : String)
  | delete (cell : CellId)
  | edit (cell : CellId) (source : String)
  /-- Packages to add; none installs what the manifest lists. -/
  | install (packages : List String)
  | startService
  | stopService
  | requestDiagnostics
  | navigate (navigation : Navigation) (query : Query)
  deriving DecidableEq, Repr, Inhabited

/-- The event of a navigation request. -/
def Navigation.event : Navigation → String
  | .quickinfo => "request-quickinfo"
  | .definition => "request-definition-location"
  | .completions => "request-completions"

namespace Intent

/-- The event of an intent. -/
def event : Intent → String
  | .execute _ => "execute-cell"
  | .stop _ => "stop-cell"
  | .create _ _ => "create-cell"
  | .rename _ _ => "rename-cell"
  | .delete _ => "delete-cell"
  | .edit _ _ => "update-cell-source"
  | .install _ => "install-dependency"
  | .startService => "start-language-service"
  | .stopService => "stop-language-service"
  | .requestDiagnostics => "request-diagnostics"
  | .navigate navigation _ => navigation.event

/-- The payload of an event that names a cell. -/
def cellPayload (cell : CellId) : Json :=
  Json.ofFields [("cell_id", .string cell.text)]

/-- The payload of an intent. -/
def payload : Intent → Json
  | .execute cell => cellPayload cell
  | .stop cell => cellPayload cell
  | .create index cell =>
    Json.ofFields [("index", .nat index.toNat), ("cell", cell.toJson)]
  | .rename cell filename =>
    Json.ofFields [("cell_id", .string cell.text), ("filename", .string filename)]
  | .delete cell => cellPayload cell
  | .edit cell source =>
    Json.ofFields [("cell_id", .string cell.text), ("source", .string source)]
  | .install packages => Json.ofFields [("packages", .strings packages)]
  | .startService => Json.ofFields []
  | .stopService => Json.ofFields []
  | .requestDiagnostics => Json.ofFields []
  | .navigate _ q =>
    Json.ofFields
      [("correlation_id", .string q.request.text), ("cell_id", .string q.cell.text),
       ("offset", .nat q.offset.toNat)]

/-- The value of an intent on the wire. -/
def toJson (intent : Intent) : Json :=
  Json.ofFields [("event", .string intent.event), ("payload", intent.payload)]

/-! ## Reading -/

/-- The intents without what they carry. -/
inductive Kind where
  | execute
  | stop
  | create
  | rename
  | delete
  | edit
  | install
  | startService
  | stopService
  | requestDiagnostics
  | navigate (navigation : Navigation)
  deriving DecidableEq, Repr, Inhabited

/-- The events by name. -/
def table : List (String × Kind) :=
  [("execute-cell", .execute), ("stop-cell", .stop), ("create-cell", .create),
   ("rename-cell", .rename), ("delete-cell", .delete), ("update-cell-source", .edit),
   ("install-dependency", .install), ("start-language-service", .startService),
   ("stop-language-service", .stopService), ("request-diagnostics", .requestDiagnostics),
   ("request-quickinfo", .navigate .quickinfo),
   ("request-definition-location", .navigate .definition),
   ("request-completions", .navigate .completions)]

open Json (Document)
open Json.Document (Route)

/-- The cell that a payload names. -/
def cellOf? (doc : Document) : Option CellId :=
  match doc.record? ["cell_id"] with
  | some [cell] => (cell.required (·.string?)).map .mk
  | _ => none

/-- A cell and a text beside it. -/
def cellAndText? (field : String) (doc : Document) : Option (CellId × String) :=
  match doc.record? ["cell_id", field] with
  | some [cell, text] => do
    let cell ← cell.required (·.string?)
    let text ← text.required (·.string?)
    pure (⟨cell⟩, text)
  | _ => none

/-- A place in a cell. -/
def queryOf? (doc : Document) : Option Query :=
  match doc.record? ["correlation_id", "cell_id", "offset"] with
  | some [request, cell, offset] => do
    let request ← request.required (·.string?)
    let cell ← cell.required (·.string?)
    let offset ← offset.required (·.word64?)
    pure ⟨⟨request⟩, ⟨cell⟩, offset⟩
  | _ => none

/-- A payload without fields of its own. -/
def nothing? (intent : Intent) (doc : Document) : Option Intent :=
  (doc.record? []).map fun _ => intent

/-- How many containers a cell inside an event may nest. -/
def cellDepth : Nat := Json.nestingLimit - 2

/-- Reads the payload of an event of a known kind. -/
def ofKind? (route : Route) (kind : Kind) (doc : Document) : Option Intent :=
  match kind with
  | .execute => (cellOf? doc).map .execute
  | .stop => (cellOf? doc).map .stop
  | .create =>
    match doc.record? ["index", "cell"] with
    | some [index, cell] => do
      let index ← index.required (·.word64?)
      let cell ← cell.required (Cell.ofDocument? route cellDepth)
      pure (.create index cell)
    | _ => none
  | .rename => (cellAndText? "filename" doc).map fun (cell, name) => .rename cell name
  | .delete => (cellOf? doc).map .delete
  | .edit => (cellAndText? "source" doc).map fun (cell, text) => .edit cell text
  | .install =>
    match doc.record? ["packages"] with
    | some [packages] => (packages.orElse [] (·.list? (·.string?))).map .install
    | _ => none
  | .startService => nothing? .startService doc
  | .stopService => nothing? .stopService doc
  | .requestDiagnostics => nothing? .requestDiagnostics doc
  | .navigate navigation => (queryOf? doc).map (.navigate navigation)

/-- The intent that a document writes as an event with its payload. -/
def ofDocument? (doc : Document) : Option Intent := do
  let tagged ← doc.tagged? "event" "payload" (Json.nestingLimit - 1)
  let kind ← tagged.tag.variant? .direct table
  ofKind? tagged.route kind tagged.content

/-! ## Shapes -/

/-- The shape of a payload that names a cell. -/
def cellSchema : Schema :=
  .record ["cell_id"] [("cell_id", .string)]

/-- The shape of a payload that names a place in a cell. -/
def querySchema : Schema :=
  .record ["correlation_id", "cell_id", "offset"]
    [("cell_id", .string), ("correlation_id", .string), ("offset", .natural)]

/-- The shapes of the payloads by event. -/
def schemas : List (String × Schema) :=
  [("execute-cell", cellSchema), ("stop-cell", cellSchema),
   ("create-cell", .record ["index", "cell"] [("cell", Schema.cell), ("index", .natural)]),
   ("rename-cell",
    .record ["cell_id", "filename"] [("cell_id", .string), ("filename", .string)]),
   ("delete-cell", cellSchema),
   ("update-cell-source",
    .record ["cell_id", "source"] [("cell_id", .string), ("source", .string)]),
   ("install-dependency", .record [] [("packages", .list .string)]),
   ("start-language-service", .record [] []), ("stop-language-service", .record [] []),
   ("request-diagnostics", .record [] []), ("request-quickinfo", querySchema),
   ("request-definition-location", querySchema), ("request-completions", querySchema)]

/-- The shape of an event's payload. -/
def schema? (event : String) : Option Schema :=
  (schemas.find? (fun entry => entry.1 == event)).map (·.2)

end Intent
end Notebook
