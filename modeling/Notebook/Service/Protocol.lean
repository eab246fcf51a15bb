import Notebook.Json.Record
import Notebook.Intent
import Notebook.Notice
import Notebook.Path

/-!
# What is said to the analysis service

Commands are numbered requests.  The service answers some of them with a response that
carries the number, and reports findings in events.  Paths on the wire are those of the
files in the source directory.
-/

namespace Notebook

open Json (Document)

/-- What the service is told or asked. -/
inductive Command where
  | openFile (path content : String)
  | closeFile (path : String)
  /-- Findings for some files, after a delay in milliseconds. -/
  | findErrors (paths : List String) (delay : Nat)
  | reloadProjects
  | navigate (navigation : Navigation) (path : String) (position : Position)
  deriving DecidableEq, Repr, Inhabited

/-- A numbered command. -/
structure Request where
  number : Nat
  command : Command
  deriving DecidableEq, Repr, Inhabited

namespace Command

/-- The name of a navigation command. -/
def navigationName : Navigation → String
  | .quickinfo => "quickinfo"
  | .definition => "definition"
  | .completions => "completionInfo"

/-- The name of a command. -/
def name : Command → String
  | .openFile .. => "open"
  | .closeFile _ => "close"
  | .findErrors .. => "geterr"
  | .reloadProjects => "reloadProjects"
  | .navigate navigation .. => navigationName navigation

/-- The arguments of a command. -/
def arguments : Command → Option Json
  | .openFile path content =>
    some (Json.ofFields [("file", .string path), ("fileContent", .string content)])
  | .closeFile path => some (Json.ofFields [("file", .string path)])
  | .findErrors paths delay =>
    some (Json.ofFields [("files", .strings paths), ("delay", .nat delay)])
  | .reloadProjects => none
  | .navigate _ path position =>
    some (Json.ofFields
      [("file", .string path), ("line", .nat position.line.toNat),
       ("offset", .nat position.column.toNat)])

end Command

/-- The value of a request on the wire. -/
def Request.toJson (r : Request) : Json :=
  Json.ofFields
    ([("seq", .nat r.number), ("type", .string "request"),
      ("command", .string r.command.name)] ++
      match r.command.arguments with
      | some value => [("arguments", value)]
      | none => [])

/-! ## Incoming frames -/

/-- The rounds in which findings are reported. -/
inductive Pass where
  | syntactic
  | semantic
  | suggestion
  deriving DecidableEq, Repr, Inhabited

/-- The round of an event. -/
def Pass.ofEvent? (event : String) : Option Pass :=
  if event = "syntaxDiag" then some .syntactic
  else if event = "semanticDiag" then some .semantic
  else if event = "suggestionDiag" then some .suggestion
  else none

/-- What the service sends. -/
inductive Incoming where
  /-- The response to a numbered request, as a whole frame. -/
  | response (number : Nat) (frame : Json)
  | event (name : String) (body : Option Json)
  deriving Repr, Inhabited

/-- What a frame is, if it is one that is understood. -/
def Incoming.ofJson? (frame : Json) : Option Incoming := do
  let kind ← (← frame.field? "type").string?
  if kind = "response" then
    let number ← (← frame.field? "request_seq").nat?
    pure (.response number frame)
  else if kind = "event" then
    let name ← (← frame.field? "event").string?
    pure (.event name (frame.field? "body"))
  else none

/-- A finding as the service reports it. -/
structure RawFinding where
  start : Position
  «end» : Position
  text : String
  code : UInt32
  category : String
  deriving DecidableEq, Repr, Inhabited

/-- The finding that a document writes. -/
def RawFinding.ofDocument? (doc : Document) : Option RawFinding :=
  match doc.record? ["start", "end", "text", "code", "category"] with
  | some [start, stop, text, code, category] => do
    let start ← start.required Position.ofDocument?
    let stop ← stop.required Position.ofDocument?
    let text ← text.required (·.string?)
    let code ← code.orElse 0 (·.word32?)
    let category ← category.orElse "" (·.string?)
    pure ⟨start, stop, text, code, category⟩
  | _ => none

/-- The file and the findings that the body of an event reports. -/
def RawFinding.report? (body : Json) : Option (String × List RawFinding) :=
  match body.toDocument.record? ["file", "diagnostics"] with
  | some [file, findings] => do
    let file ← file.required (·.string?)
    let findings ← findings.orElse [] (·.list? RawFinding.ofDocument?)
    pure (file, findings)
  | _ => none

/-! ## Answers -/

/-- A range in a file of the source directory. -/
structure Location where
  filename : String
  start : Position
  «end» : Position
  deriving DecidableEq, Repr, Inhabited

/-- The answer to a navigation request; nothing when there is no usable one. -/
inductive Answer where
  | quickinfo (info : Option QuickInfo)
  | definition (location : Option Location)
  | completions (entries : Option (List Completion))
  deriving DecidableEq, Repr, Inhabited

namespace Answer

/-- The answer that says nothing. -/
def nothing : Navigation → Answer
  | .quickinfo => .quickinfo none
  | .definition => .definition none
  | .completions => .completions none

/-- A documentation text, written as a string or as a list of its parts. -/
def documentation : Option Json → String
  | some (.string s) => s
  | some (.array parts) =>
    String.join (parts.filterMap fun part => (part.field? "text").bind (·.string?))
  | _ => ""

/-- A position inside a body. -/
def position? (body : Json) (field : String) : Option Position := do
  Position.ofDocument? (← body.field? field).toDocument

/-- What a body says about a name. -/
def quickinfo? (body : Json) : Option QuickInfo := do
  let display ← (← body.field? "displayString").string?
  let start ← position? body "start"
  let stop ← position? body "end"
  pure ⟨display, documentation (body.field? "documentation"), start, stop⟩

/-- A range in any file. -/
def span? (doc : Document) : Option Location :=
  match doc.record? ["file", "start", "end"] with
  | some [file, start, stop] => do
    let file ← file.required (·.string?)
    let start ← start.required Position.ofDocument?
    let stop ← stop.required Position.ofDocument?
    pure ⟨file, start, stop⟩
  | _ => none

/-- The first range of a body that lies in the source directory. -/
def location? (sourceDir : String) (body : Json) : Option Location := do
  let spans ← body.toDocument.list? span?
  spans.findSome? fun span => do
    let filename ← Path.filenameIn? sourceDir span.filename
    pure { span with filename }

/-- The text of a field, or nothing at all. -/
def textOf (entry : Json) (field : String) : String :=
  ((entry.field? field).bind (·.string?)).getD ""

/-- A completion; an entry without a name is none. -/
def completion? (entry : Json) : Option Completion := do
  let name ← (← entry.field? "name").string?
  pure ⟨name, textOf entry "kind", textOf entry "sortText",
    (entry.field? "insertText").bind (·.string?)⟩

/-- The completions that a body lists. -/
def completions? (body : Json) : Option (List Completion) := do
  let entries ← (← body.field? "entries").items?
  pure (entries.filterMap completion?)

/-- The answer that the body of a response gives. -/
def ofBody (navigation : Navigation) (sourceDir : String) (body : Json) : Answer :=
  match navigation with
  | .quickinfo => .quickinfo (quickinfo? body)
  | .definition => .definition (location? sourceDir body)
  | .completions => .completions (completions? body)

/-- The answer that a response gives.  It needs success and a body. -/
def ofResponse (navigation : Navigation) (sourceDir : String) (frame : Json) : Answer :=
  if ((frame.field? "success").bind (·.bool?)).getD false then
    match frame.field? "body" with
    | some body => ofBody navigation sourceDir body
    | none => nothing navigation
  else nothing navigation

end Answer
end Notebook
