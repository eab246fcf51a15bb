import Notebook.Cell
import Notebook.Diagnostic
import Notebook.Schema

/-!
# Notices

What a session tells its subscribers.  On the wire a notice is an event name with a
payload; `Notice.payload` and `Notice.ofDocument?` write and read it, and
`Notice.schemas` states the shape of every payload.
-/

namespace Notebook

/-- A stream of a process's output. -/
inductive OutputStream where
  | stdout
  | stderr
  deriving DecidableEq, Repr, Inhabited

/-- How far an installation is. -/
inductive InstallStatus where
  | installing
  | complete
  | failed
  deriving DecidableEq, Repr, Inhabited

/-- Whether the analysis service runs. -/
inductive ServiceStatus where
  | running
  | stopped
  deriving DecidableEq, Repr, Inhabited

/-- What is known about a name in a source text. -/
structure QuickInfo where
  display : String
  documentation : String
  start : Position
  «end» : Position
  deriving DecidableEq, Repr, Inhabited

/-- A range in a cell. -/
structure Target where
  cell : CellId
  filename : String
  start : Position
  «end» : Position
  deriving DecidableEq, Repr, Inhabited

/-- A way to complete a name. -/
structure Completion where
  name : String
  kind : String
  sortText : String
  insertText : Option String
  deriving DecidableEq, Repr, Inhabited

/-- What a session tells its subscribers. -/
inductive Notice where
  | statusChanged (cell : CellId) (status : CellStatus)
  /-- The cell that takes the place of the one with its name. -/
  | updated (cell : Cell)
  | deleted (cell : CellId)
  | output (cell : CellId) (stream : OutputStream) (data : String)
  | failed (cell : Option CellId) (message : String)
  | diagnostics (cell : CellId) (items : List Diagnostic)
  | suggestions (cell : CellId) (items : List Diagnostic)
  | quickinfo (request : RequestId) (info : Option QuickInfo)
  | definition (request : RequestId) (location : Option Target)
  | completions (request : RequestId) (entries : List Completion)
  | install (status : InstallStatus) (packages : List String) (exitCode : Option Int32)
  | service (status : ServiceStatus)
  deriving DecidableEq, Repr, Inhabited

namespace OutputStream

/-- The name of a stream. -/
def name : OutputStream → String
  | .stdout => "stdout"
  | .stderr => "stderr"

/-- The streams by name. -/
def table : List (String × OutputStream) :=
  [("stdout", .stdout), ("stderr", .stderr)]

end OutputStream

namespace InstallStatus

/-- The name of a status. -/
def name : InstallStatus → String
  | .installing => "installing"
  | .complete => "complete"
  | .failed => "failed"

/-- The statuses by name. -/
def table : List (String × InstallStatus) :=
  [("installing", .installing), ("complete", .complete), ("failed", .failed)]

end InstallStatus

namespace ServiceStatus

/-- The name of a status. -/
def name : ServiceStatus → String
  | .running => "running"
  | .stopped => "stopped"

/-- The statuses by name. -/
def table : List (String × ServiceStatus) :=
  [("running", .running), ("stopped", .stopped)]

end ServiceStatus

open Json (Document)
open Json.Document (Route)

namespace QuickInfo

/-- The value of an information on the wire. -/
def toJson (q : QuickInfo) : Json :=
  Json.ofFields
    [("display", .string q.display), ("documentation", .string q.documentation),
     ("start", q.start.toJson), ("end", q.end.toJson)]

/-- The information that a document writes. -/
def ofDocument? (doc : Document) : Option QuickInfo :=
  match doc.record? ["display", "documentation", "start", "end"] with
  | some [display, documentation, start, stop] => do
    let display ← display.required (·.string?)
    let documentation ← documentation.required (·.string?)
    let start ← start.required Position.ofDocument?
    let stop ← stop.required Position.ofDocument?
    pure ⟨display, documentation, start, stop⟩
  | _ => none

/-- The shape of an information. -/
def schema : Schema :=
  .record ["display", "documentation", "start", "end"]
    [("display", .string), ("documentation", .string), ("end", Schema.position),
     ("start", Schema.position)]

end QuickInfo

namespace Target

/-- The value of a range in a cell on the wire. -/
def toJson (t : Target) : Json :=
  Json.ofFields
    [("cell_id", .string t.cell.text), ("filename", .string t.filename),
     ("start", t.start.toJson), ("end", t.end.toJson)]

/-- The range in a cell that a document writes. -/
def ofDocument? (doc : Document) : Option Target :=
  match doc.record? ["cell_id", "filename", "start", "end"] with
  | some [cell, filename, start, stop] => do
    let cell ← cell.required (·.string?)
    let filename ← filename.required (·.string?)
    let start ← start.required Position.ofDocument?
    let stop ← stop.required Position.ofDocument?
    pure ⟨⟨cell⟩, filename, start, stop⟩
  | _ => none

/-- The shape of a range in a cell. -/
def schema : Schema :=
  .record ["cell_id", "filename", "start", "end"]
    [("cell_id", .string), ("end", Schema.position), ("filename", .string),
     ("start", Schema.position)]

end Target

namespace Completion

/-- The value of a completion on the wire. -/
def toJson (c : Completion) : Json :=
  Json.ofFields
    [("name", .string c.name), ("kind", .string c.kind), ("sort_text", .string c.sortText),
     ("insert_text", Json.optional .string c.insertText)]

/-- The completion that a document writes. -/
def ofDocument? (doc : Document) : Option Completion :=
  match doc.record? ["name", "kind", "sort_text", "insert_text"] with
  | some [name, kind, sortText, insertText] => do
    let name ← name.required (·.string?)
    let kind ← kind.required (·.string?)
    let sortText ← sortText.required (·.string?)
    let insertText ← insertText.optional (·.string?)
    pure ⟨name, kind, sortText, insertText⟩
  | _ => none

/-- The shape of a completion. -/
def schema : Schema :=
  .record ["name", "kind", "sort_text"]
    [("insert_text", .nullable .string), ("kind", .string), ("name", .string),
     ("sort_text", .string)]

end Completion

namespace Notice

/-- The event of a notice. -/
def event : Notice → String
  | .statusChanged .. => "cell-status-changed"
  | .updated _ => "cell-updated"
  | .deleted _ => "cell-deleted"
  | .output .. => "cell-output-chunk"
  | .failed .. => "cell-error"
  | .diagnostics .. => "diagnostics-for-cell"
  | .suggestions .. => "suggestions-for-cell"
  | .quickinfo .. => "quickinfo-response"
  | .definition .. => "definition-location-response"
  | .completions .. => "completions-response"
  | .install .. => "dependency-install-status"
  | .service _ => "language-service-status"

/-- The payload of findings in a cell. -/
def findings (cell : CellId) (items : List Diagnostic) : Json :=
  Json.ofFields
    [("cell_id", .string cell.text), ("diagnostics", .array (items.map Diagnostic.toJson))]

/-- The payload of a notice. -/
def payload : Notice → Json
  | .statusChanged cell status =>
    Json.ofFields [("cell_id", .string cell.text), ("status", status.toJson)]
  | .updated cell => Json.ofFields [("cell", cell.toJson)]
  | .deleted cell => Json.ofFields [("cell_id", .string cell.text)]
  | .output cell stream data =>
    Json.ofFields
      [("cell_id", .string cell.text), ("stream", .string stream.name),
       ("data", .string data)]
  | .failed cell message =>
    Json.ofFields
      [("cell_id", Json.optional (fun id => .string id.text) cell),
       ("message", .string message)]
  | .diagnostics cell items => findings cell items
  | .suggestions cell items => findings cell items
  | .quickinfo request info =>
    Json.ofFields
      [("correlation_id", .string request.text),
       ("info", Json.optional QuickInfo.toJson info)]
  | .definition request location =>
    Json.ofFields
      [("correlation_id", .string request.text),
       ("location", Json.optional Target.toJson location)]
  | .completions request entries =>
    Json.ofFields
      [("correlation_id", .string request.text),
       ("entries", .array (entries.map Completion.toJson))]
  | .install status packages exitCode =>
    Json.ofFields
      [("status", .string status.name), ("packages", .strings packages),
       ("exit_code", Json.optional (fun code => .int code.toInt) exitCode)]
  | .service status => Json.ofFields [("status", .string status.name)]

/-- The value of a notice on the wire. -/
def toJson (notice : Notice) : Json :=
  Json.ofFields [("event", .string notice.event), ("payload", notice.payload)]

/-! ## Reading -/

/-- The notices without what they carry. -/
inductive Kind where
  | statusChanged
  | updated
  | deleted
  | output
  | failed
  | diagnostics
  | suggestions
  | quickinfo
  | definition
  | completions
  | install
  | service
  deriving DecidableEq, Repr, Inhabited

/-- The events by name. -/
def table : List (String × Kind) :=
  [("cell-status-changed", .statusChanged), ("cell-updated", .updated),
   ("cell-deleted", .deleted), ("cell-output-chunk", .output), ("cell-error", .failed),
   ("diagnostics-for-cell", .diagnostics), ("suggestions-for-cell", .suggestions),
   ("quickinfo-response", .quickinfo), ("definition-location-response", .definition),
   ("completions-response", .completions), ("dependency-install-status", .install),
   ("language-service-status", .service)]

/-- Findings in a cell. -/
def findings? (route : Route) (doc : Document) : Option (CellId × List Diagnostic) :=
  match doc.record? ["cell_id", "diagnostics"] with
  | some [cell, items] => do
    let cell ← cell.required (·.string?)
    let items ← items.required (·.list? (Diagnostic.ofDocument? route))
    pure (⟨cell⟩, items)
  | _ => none

/-- Reads the payload of an event of a known kind. -/
def ofKind? (route : Route) (kind : Kind) (doc : Document) : Option Notice :=
  match kind with
  | .statusChanged =>
    match doc.record? ["cell_id", "status"] with
    | some [cell, status] => do
      let cell ← cell.required (·.string?)
      let status ← status.required (·.variant? route CellStatus.table)
      pure (.statusChanged ⟨cell⟩ status)
    | _ => none
  | .updated =>
    match doc.record? ["cell"] with
    | some [cell] =>
      (cell.required (Cell.ofDocument? route (Json.nestingLimit - 2))).map .updated
    | _ => none
  | .deleted =>
    match doc.record? ["cell_id"] with
    | some [cell] => (cell.required (·.string?)).map fun cell => .deleted ⟨cell⟩
    | _ => none
  | .output =>
    match doc.record? ["cell_id", "stream", "data"] with
    | some [cell, stream, data] => do
      let cell ← cell.required (·.string?)
      let stream ← stream.required (·.variant? route OutputStream.table)
      let data ← data.required (·.string?)
      pure (.output ⟨cell⟩ stream data)
    | _ => none
  | .failed =>
    match doc.record? ["cell_id", "message"] with
    | some [cell, message] => do
      let cell ← cell.optional (·.string?)
      let message ← message.required (·.string?)
      pure (.failed (cell.map .mk) message)
    | _ => none
  | .diagnostics => (findings? route doc).map fun (cell, items) => .diagnostics cell items
  | .suggestions => (findings? route doc).map fun (cell, items) => .suggestions cell items
  | .quickinfo =>
    match doc.record? ["correlation_id", "info"] with
    | some [request, info] => do
      let request ← request.required (·.string?)
      let info ← info.optional QuickInfo.ofDocument?
      pure (.quickinfo ⟨request⟩ info)
    | _ => none
  | .definition =>
    match doc.record? ["correlation_id", "location"] with
    | some [request, location] => do
      let request ← request.required (·.string?)
      let location ← location.optional Target.ofDocument?
      pure (.definition ⟨request⟩ location)
    | _ => none
  | .completions =>
    match doc.record? ["correlation_id", "entries"] with
    | some [request, entries] => do
      let request ← request.required (·.string?)
      let entries ← entries.required (·.list? Completion.ofDocument?)
      pure (.completions ⟨request⟩ entries)
    | _ => none
  | .install =>
    match doc.record? ["status", "packages", "exit_code"] with
    | some [status, packages, exitCode] => do
      let status ← status.required (·.variant? route InstallStatus.table)
      let packages ← packages.required (·.list? (·.string?))
      let exitCode ← exitCode.optional (·.signed32?)
      pure (.install status packages exitCode)
    | _ => none
  | .service =>
    match doc.record? ["status"] with
    | some [status] =>
      (status.required (·.variant? route ServiceStatus.table)).map .service
    | _ => none

/-- The notice that a document writes as an event with its payload. -/
def ofDocument? (doc : Document) : Option Notice := do
  let tagged ← doc.tagged? "event" "payload" (Json.nestingLimit - 1)
  let kind ← tagged.tag.variant? .direct table
  ofKind? tagged.route kind tagged.content

/-! ## Shapes -/

/-- The shape of findings in a cell. -/
def findingsSchema : Schema :=
  .record ["cell_id", "diagnostics"]
    [("cell_id", .string), ("diagnostics", .list Schema.diagnostic)]

/-- The shapes of the payloads by event. -/
def schemas : List (String × Schema) :=
  [("cell-status-changed",
    .record ["cell_id", "status"] [("cell_id", .string), ("status", Schema.cellStatus)]),
   ("cell-updated", .record ["cell"] [("cell", Schema.cell)]),
   ("cell-deleted", .record ["cell_id"] [("cell_id", .string)]),
   ("cell-output-chunk",
    .record ["cell_id", "stream", "data"]
      [("cell_id", .string), ("data", .string), ("stream", .keyword ["stdout", "stderr"])]),
   ("cell-error",
    .record ["message"] [("cell_id", .nullable .string), ("message", .string)]),
   ("diagnostics-for-cell", findingsSchema), ("suggestions-for-cell", findingsSchema),
   ("quickinfo-response",
    .record ["correlation_id"]
      [("correlation_id", .string), ("info", .nullable QuickInfo.schema)]),
   ("definition-location-response",
    .record ["correlation_id"]
      [("correlation_id", .string), ("location", .nullable Target.schema)]),
   ("completions-response",
    .record ["correlation_id", "entries"]
      [("correlation_id", .string), ("entries", .list Completion.schema)]),
   ("dependency-install-status",
    .record ["status", "packages"]
      [("exit_code", .nullable .integer), ("packages", .list .string),
       ("status", .keyword ["installing", "complete", "failed"])]),
   ("language-service-status",
    .record ["status"] [("status", .keyword ["running", "stopped"])])]

/-- The shape of an event's payload. -/
def schema? (event : String) : Option Schema :=
  (schemas.find? (fun entry => entry.1 == event)).map (·.2)

end Notice
end Notebook
