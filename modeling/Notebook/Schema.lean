import Notebook.Json.Basic

/-!
# Payload schemas

A schema describes the shape of a value, and `Schema.problem?` finds the first way in
which a value departs from it: its type, then a missing field, then the fields one by
one.  A number without fractional part is an integer here, also when it is written
with a point.
-/

namespace Notebook

/-- The shape of a value. -/
inductive Schema where
  | string
  | integer
  /-- An integer of at least 0. -/
  | natural
  /-- One of a few strings. -/
  | keyword (words : List String)
  | list (item : Schema)
  /-- An object; the properties stand in alphabetical order. -/
  | record (required : List String) (properties : List (String × Schema))
  /-- Null or another shape. -/
  | nullable (shape : Schema)
  /-- Exactly one of several shapes. -/
  | oneOf (shapes : List Schema)
  deriving Repr, Inhabited

namespace Schema

/-- How a value departs from a shape. -/
inductive Problem where
  | wrongType (value : Json) (expected : String)
  | missing (field : String)
  | belowZero (value : Json)
  | otherWord (value : Json)
  | noShape (value : Json)
  deriving Repr

/-- The wording of a problem. -/
def Problem.message : Problem → String
  | .wrongType value expected =>
    value.text ++ " is not of type " ++ (Json.string expected).text
  | .missing field => (Json.string field).text ++ " is a required property"
  | .belowZero value => value.text ++ " is less than the minimum of 0"
  | .otherWord value => value.text ++ " is not one of the listed values"
  | .noShape value =>
    value.text ++ " is not valid under any of the schemas listed in the 'oneOf' keyword"

/-- Whether a number has no fractional part. -/
def isWhole : Json.Number → Bool
  | .integer _ => true
  | .float x => x.isWhole

/-- Whether a number is below zero. -/
def isBelowZero : Json.Number → Bool
  | .integer i => i < 0
  | .float x => x.negative && !x.isZero

/-- The problem of a value that has to be an integer. -/
def integerProblem? (value : Json) : Option Problem :=
  match value with
  | .number n => if isWhole n then none else some (.wrongType value "integer")
  | _ => some (.wrongType value "integer")

/-- The problem of a value that has to be an integer of at least 0. -/
def naturalProblem? (value : Json) : Option Problem :=
  match value with
  | .number n =>
    if isWhole n then if isBelowZero n then some (.belowZero value) else none
    else some (.wrongType value "integer")
  | _ => some (.wrongType value "integer")

mutual

/-- The first problem of a value. -/
def problem? (shape : Schema) (value : Json) : Option Problem :=
  match shape with
  | .string =>
    match value with
    | .string _ => none
    | _ => some (.wrongType value "string")
  | .integer => integerProblem? value
  | .natural => naturalProblem? value
  | .keyword words =>
    match value with
    | .string s => if s ∈ words then none else some (.otherWord value)
    | _ => some (.wrongType value "string")
  | .list item =>
    match value with
    | .array items => items.findSome? fun value => problem? item value
    | _ => some (.wrongType value "array")
  | .record required properties =>
    match value with
    | .object _ =>
      match required.find? fun field => (value.field? field).isNone with
      | some field => some (.missing field)
      | none => propertyProblem? properties value
    | _ => some (.wrongType value "object")
  | .nullable shape =>
    match value with
    | .null => none
    | _ => problem? shape value
  | .oneOf shapes =>
    if countFitting shapes value = 1 then none else some (.noShape value)

/-- The first problem among the properties that an object has. -/
def propertyProblem? (properties : List (String × Schema)) (value : Json) :
    Option Problem :=
  match properties with
  | [] => none
  | (field, shape) :: rest =>
    match value.field? field with
    | none => propertyProblem? rest value
    | some part =>
      match problem? shape part with
      | some problem => some problem
      | none => propertyProblem? rest value

/-- How many of several shapes a value has. -/
def countFitting (shapes : List Schema) (value : Json) : Nat :=
  match shapes with
  | [] => 0
  | shape :: rest =>
    (if (problem? shape value).isNone then 1 else 0) + countFitting rest value

end

/-- Whether a value has a shape. -/
def accepts (shape : Schema) (value : Json) : Bool :=
  (shape.problem? value).isNone

/-! ## Shapes of the domain -/

/-- A title or a piece of prose of one kind. -/
def textCell (kind : String) : Schema :=
  .record ["type", "id", "text"]
    [("id", .string), ("text", .string), ("type", .keyword [kind])]

/-- Whether a cell runs. -/
def cellStatus : Schema :=
  .keyword ["idle", "running"]

/-- A code cell. -/
def codeCell : Schema :=
  .record ["type", "id", "source", "filename", "language"]
    [("filename", .string), ("id", .string),
     ("language", .keyword ["javascript", "typescript"]), ("source", .string),
     ("status", cellStatus), ("type", .keyword ["code"])]

/-- A package manifest. -/
def manifestCell : Schema :=
  .record ["type", "id", "source"]
    [("id", .string), ("source", .string), ("status", cellStatus),
     ("type", .keyword ["package-json"])]

/-- A cell. -/
def cell : Schema :=
  .oneOf [textCell "title", textCell "markdown", codeCell, manifestCell]

/-- A line and a column. -/
def position : Schema :=
  .record ["line", "offset"] [("line", .natural), ("offset", .natural)]

/-- A finding of the analysis service. -/
def diagnostic : Schema :=
  .record ["severity", "start", "end", "message", "code"]
    [("code", .natural), ("end", position), ("message", .string),
     ("severity", .keyword ["error", "warning", "info", "hint"]), ("start", position)]

end Schema
end Notebook
