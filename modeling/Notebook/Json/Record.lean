import Notebook.Json.Document

/-!
# Reading records off a document

A record is written as an object, or as an array of its fields in the order of their
declaration.  In an object unknown fields are skipped and a known field may stand only
once; an array has no more items than the record has fields.  `Document.record?` finds
the fields, and `Found.required`, `Found.orElse` and `Found.optional` say what becomes
of one that is missing.
-/

namespace Notebook
namespace Json

/-- What a document holds for one field of a record. -/
inductive Found where
  /-- The field is written. -/
  | given (doc : Document)
  /-- An object without the field. -/
  | absent
  /-- An array that ends before the field. -/
  | beyond
  deriving Repr

namespace Found

/-- A field that has to be written. -/
def required {α : Type} (read : Document → Option α) : Found → Option α
  | .given doc => read doc
  | _ => none

/-- A field with a default. -/
def orElse {α : Type} (default : α) (read : Document → Option α) : Found → Option α
  | .given doc => read doc
  | _ => some default

/-- A field that may be null, and may be left out of an object. -/
def optional {α : Type} (read : Document → Option α) : Found → Option (Option α)
  | .given .null => some none
  | .given doc => (read doc).map some
  | .absent => some none
  | .beyond => none

end Found

namespace Document

/-- The values written under a name. -/
def named (name : String) (fields : List (Option String × Document)) : List Document :=
  (fields.filter (fun field => field.1 == some name)).map (·.2)

/-- The field of a name, unless it is repeated. -/
def single? (fields : List (Option String × Document)) (name : String) : Option Found :=
  match named name fields with
  | [] => some .absent
  | [doc] => some (.given doc)
  | _ => none

/-- The fields of a record in the order of `names`. -/
def record? (names : List String) : Document → Option (List Found)
  | .object fields =>
    if fields.any (fun field => field.1.isNone) then none
    else names.mapM (single? fields)
  | .array items =>
    if names.length < items.length then none
    else some (items.map .given ++ List.replicate (names.length - items.length) .beyond)
  | _ => none

/-! ## Simple values -/

/-- A string. -/
def string? : Document → Option String
  | .string s => s
  | _ => none

/-- An integer in a half-open range. -/
def integer? (low high : Int) : Document → Option Int
  | .number (some (.integer i)) => if low ≤ i ∧ i < high then some i else none
  | _ => none

/-- An unsigned integer of 64 bits. -/
def word64? (doc : Document) : Option UInt64 :=
  (doc.integer? 0 UInt64.size).map fun i => UInt64.ofNat i.toNat

/-- An unsigned integer of 32 bits. -/
def word32? (doc : Document) : Option UInt32 :=
  (doc.integer? 0 UInt32.size).map fun i => UInt32.ofNat i.toNat

/-- A signed integer of 32 bits. -/
def signed32? (doc : Document) : Option Int32 :=
  (doc.integer? (-2147483648) 2147483648).map Int32.ofInt

/-- A list of values. -/
def list? {α : Type} (read : Document → Option α) : Document → Option (List α)
  | .array items => items.mapM read
  | _ => none

/-- Where a document comes from.  The nothing that a variant carries is null; a
document that was held in memory before it was read may write an empty object too, and
one that stands for a tree without null may write an empty array. -/
inductive Route where
  | direct
  | held
  | tree
  deriving DecidableEq, Repr

/-- Whether a document may stand for the nothing that a variant carries. -/
def isNothing (route : Route) : Document → Bool
  | .null => true
  | .object [] => route != .direct
  | .array [] => route == .tree
  | _ => false

/-- One of several named variants that carry nothing: its name, or an object whose
only field has that name. -/
def variant? {α : Type} (route : Route) (table : List (String × α)) :
    Document → Option α
  | .string (some name) => (table.find? (fun entry => entry.1 == name)).map (·.2)
  | .object [(some name, doc)] =>
    if doc.isNothing route then
      (table.find? (fun entry => entry.1 == name)).map (·.2)
    else none
  | _ => none

/-- Whether every part of a document has a value, with at most `depth` containers
nested. -/
def readable (depth : Nat) (doc : Document) : Bool :=
  (doc.toJson? depth).isSome

/-! ## Tagged content -/

/-- A tag and what it says about the content that stands beside it. -/
structure Tagged where
  tag : Document
  content : Document
  route : Route
  deriving Repr

/-- A tag and its content, as two fields or as two items.  Content that is written
before its tag is held until the tag is known. -/
def tagged? (tag content : String) (depth : Nat) : Document → Option Tagged
  | .object fields => do
    if fields.any (fun field => field.1.isNone) then none
    else
      let .given t ← single? fields tag | none
      let .given c ← single? fields content | none
      let first := fields.find? fun field => field.1 == some tag || field.1 == some content
      if first.any fun field => field.1 == some content then
        if c.readable depth then some ⟨t, c, .held⟩ else none
      else some ⟨t, c, .direct⟩
  | .array [t, c] => some ⟨t, c, .direct⟩
  | _ => none

end Document
end Json
end Notebook
