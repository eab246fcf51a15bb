import Notebook.Position

/-!
# Diagnostics

What an analysis service finds in a file: a severity, a range, a message and the
number of the rule that was broken.
-/

namespace Notebook

/-- How bad a finding is. -/
inductive Severity where
  | error
  | warning
  | info
  | hint
  deriving DecidableEq, Repr, Inhabited

namespace Severity

/-- The name of a severity. -/
def label : Severity → String
  | .error => "error"
  | .warning => "warning"
  | .info => "info"
  | .hint => "hint"

/-- The severities by name. -/
def table : List (String × Severity) :=
  [("error", .error), ("warning", .warning), ("info", .info), ("hint", .hint)]

/-- The severity that a category of the service stands for.  An unknown category is a
warning, so that nothing is lost silently. -/
def ofCategory (category : String) : Severity :=
  if category = "error" then .error
  else if category = "warning" then .warning
  else if category = "suggestion" then .hint
  else if category = "message" then .info
  else .warning

end Severity

/-- One finding in a file. -/
structure Diagnostic where
  severity : Severity
  start : Position
  «end» : Position
  message : String
  code : UInt32
  deriving DecidableEq, Repr, Inhabited

namespace Diagnostic

/-- One line that shows a finding and its place. -/
def display (d : Diagnostic) (filename : String) : String :=
  s!"{filename}:{d.start.line}:{d.start.column}: {d.severity.label}: [{d.code}] {d.message}"

/-- The value of a finding on the wire. -/
def toJson (d : Diagnostic) : Json :=
  Json.ofFields
    [("severity", .string d.severity.label), ("start", d.start.toJson),
     ("end", d.end.toJson), ("message", .string d.message), ("code", .nat d.code.toNat)]

/-- The finding that a document writes. -/
def ofDocument? (route : Json.Document.Route) (doc : Json.Document) : Option Diagnostic :=
  match doc.record? ["severity", "start", "end", "message", "code"] with
  | some [severity, start, stop, message, code] => do
    let severity ← severity.required (·.variant? route Severity.table)
    let start ← start.required Position.ofDocument?
    let stop ← stop.required Position.ofDocument?
    let message ← message.required (·.string?)
    let code ← code.required (·.word32?)
    pure ⟨severity, start, stop, message, code⟩
  | _ => none

end Diagnostic
end Notebook
