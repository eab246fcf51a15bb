import Notebook.Toml.Basic

/-!
# Assembling a document

A document is a sequence of statements: headers that open a table or a new item of an
array of tables, and assignments to dotted keys.  A table remembers how it came about,
because one that a header has opened may not be opened again, and dotted keys may only
add to tables that dotted keys have made.
-/

namespace Notebook
namespace Toml

/-- How a table came about. -/
inductive Origin where
  /-- A header names it. -/
  | header
  /-- A header names a table inside it. -/
  | implied
  /-- A dotted key leads through it. -/
  | dotted
  deriving DecidableEq, Repr

/-- A part of a document under construction.  Values are closed, inline tables too. -/
inductive Node where
  | leaf (value : Toml)
  | table (origin : Origin) (fields : List (String × Node))
  /-- An array of tables, the newest first. -/
  | tables (items : List (List (String × Node)))
  deriving Repr, Inhabited

/-- The fields of a table under construction. -/
abbrev Fields := List (String × Node)

namespace Fields

/-- The node of a key. -/
def find? (key : String) : Fields → Option Node
  | [] => none
  | (name, node) :: rest => if name = key then some node else find? key rest

/-- Fields with another node for a key. -/
def replace (key : String) (node : Node) : Fields → Fields
  | [] => [(key, node)]
  | (name, old) :: rest =>
    if name = key then (name, node) :: rest else (name, old) :: replace key node rest

/-- Changes the table at the end of a path.  Tables on the way that are missing come
about as `made`; a dotted key does not lead through a table that a header has named. -/
def change (made : Origin) (f : Origin → Fields → Option Fields) :
    List String → Origin → Fields → Option Fields
  | [], origin, fields => f origin fields
  | key :: path, _, fields =>
    match find? key fields with
    | none => do
      let inner ← change made f path made []
      pure (fields ++ [(key, .table made inner)])
    | some (.table origin inner) =>
      if made = .dotted ∧ origin = .header then none
      else do
        let inner ← change made f path origin inner
        pure (replace key (.table origin inner) fields)
    | some (.tables (newest :: older)) => do
      let newest ← change made f path .header newest
      pure (replace key (.tables (newest :: older)) fields)
    | some _ => none

/-- Opens the table of a key, which no header has opened before. -/
def openTable (key : String) (fields : Fields) : Option Fields :=
  match find? key fields with
  | none => some (fields ++ [(key, .table .header [])])
  | some (.table .implied inner) => some (replace key (.table .header inner) fields)
  | some _ => none

/-- Opens a new item in the array of tables of a key. -/
def openItem (key : String) (fields : Fields) : Option Fields :=
  match find? key fields with
  | none => some (fields ++ [(key, .tables [[]])])
  | some (.tables items) => some (replace key (.tables ([] :: items)) fields)
  | some _ => none

/-- Gives a new key a value. -/
def insert (key : String) (value : Toml) (fields : Fields) : Option Fields :=
  match find? key fields with
  | none => some (fields ++ [(key, .leaf value)])
  | some _ => none

/-- Assigns a value to a dotted key, relative to a table. -/
def assign (path : List String) (key : String) (value : Toml) (fields : Fields) :
    Option Fields :=
  change .dotted
    (fun origin fields =>
      if !path.isEmpty && origin ≠ .dotted then none else insert key value fields)
    path .header fields

end Fields

/-- A line of a document. -/
inductive Statement where
  | header (path : List String) (key : String)
  | item (path : List String) (key : String)
  | assignment (path : List String) (key : String) (value : Toml)
  deriving Repr

/-- A document under construction: its fields, and the path of the table that
assignments go to. -/
structure Draft where
  fields : Fields
  current : List String
  deriving Repr

namespace Draft

/-- The empty document. -/
def empty : Draft :=
  ⟨[], []⟩

/-- Adds a line. -/
def add (d : Draft) : Statement → Option Draft
  | .header path key => do
    let fields ← Fields.change .implied (fun _ => Fields.openTable key) path .header d.fields
    pure ⟨fields, path ++ [key]⟩
  | .item path key => do
    let fields ← Fields.change .implied (fun _ => Fields.openItem key) path .header d.fields
    pure ⟨fields, path ++ [key]⟩
  | .assignment path key value => do
    let fields ←
      Fields.change .implied (fun _ => Fields.assign path key value) d.current .header d.fields
    pure { d with fields }

end Draft

mutual

/-- The value of a finished node. -/
def Node.finish : Node → Toml
  | .leaf value => value
  | .table _ fields => .table (finishFields fields)
  | .tables items => .array (finishItems items).reverse

/-- The values of finished fields. -/
def finishFields : List (String × Node) → List (String × Toml)
  | [] => []
  | (name, node) :: rest => (name, node.finish) :: finishFields rest

/-- The values of finished tables. -/
def finishItems : List (List (String × Node)) → List Toml
  | [] => []
  | fields :: rest => .table (finishFields fields) :: finishItems rest

end

/-- The document that a sequence of lines makes. -/
def assemble (lines : List Statement) : Option Toml :=
  (lines.foldlM Draft.add Draft.empty).map fun d => .table (finishFields d.fields)

end Toml
end Notebook
