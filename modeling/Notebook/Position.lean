import Notebook.Json.Record

/-!
# Line and column coordinates

The analysis service addresses a text by a line and a column, both counted from 1;
editors address it by a flat offset.  Offsets and columns count UTF-16 units, so a
character outside the basic plane is two wide.  Only a line feed ends a line, and a
carriage return before it is a column like any other.

`Position.ofOffset` and `Position.toOffset` convert in both directions.  Neither
fails: what is out of range is moved to the nearest position of the text, and an
offset inside a surrogate pair to the start of its character.
-/

namespace Notebook

/-- A line and a column, both counted from 1. -/
structure Position where
  line : UInt32
  column : UInt32
  deriving DecidableEq, Repr, Inhabited

namespace Text

/-- The number of UTF-16 units of a character. -/
def width (c : Char) : Nat :=
  if c.toNat < 0x10000 then 1 else 2

/-- The number of UTF-16 units of a text. -/
def units : List Char → Nat
  | [] => 0
  | c :: rest => width c + units rest

/-- The units of the longest start of a text that has at most `limit` of them. -/
def fitting (limit : Nat) : List Char → Nat
  | [] => 0
  | c :: rest =>
    if limit < width c then 0 else width c + fitting (limit - width c) rest

/-- Line `skip` of a text, counted from 0 and clamped to the last one: the units
before it and the characters from its start on. -/
def lineStart : Nat → List Char → Nat × List Char
  | 0, cs => (0, cs)
  | skip + 1, cs =>
    let line := cs.takeWhile (· != '\n')
    match cs.dropWhile (· != '\n') with
    | [] => (0, cs)
    | _ :: rest =>
      let (before, tail) := lineStart skip rest
      (units line + 1 + before, tail)

end Text

namespace Position

/-- A number of at most 32 bits; what is larger becomes the largest. -/
def saturate (n : Nat) : UInt32 :=
  UInt32.ofNat (min n (UInt32.size - 1))

/-- The coordinates reached after the characters that fit into `limit` units. -/
def walk (limit line column : Nat) : List Char → Nat × Nat
  | [] => (line, column)
  | c :: rest =>
    if limit < Text.width c then (line, column)
    else if c = '\n' then walk (limit - Text.width c) (line + 1) 1 rest
    else walk (limit - Text.width c) line (column + Text.width c) rest

/-- The coordinates of an offset. -/
def ofOffset (text : String) (offset : Nat) : Position :=
  let (line, column) := walk offset 1 1 text.toList
  ⟨saturate line, saturate column⟩

/-- The offset of coordinates; a zero counts as a one. -/
def toOffset (text : String) (p : Position) : Nat :=
  let (before, tail) := Text.lineStart (p.line.toNat - 1) text.toList
  before + Text.fitting (p.column.toNat - 1) (tail.takeWhile (· != '\n'))

/-- The value of coordinates on the wire, where a column is called an offset. -/
def toJson (p : Position) : Json :=
  Json.ofFields [("line", .nat p.line.toNat), ("offset", .nat p.column.toNat)]

/-- The coordinates that a document writes. -/
def ofDocument? (doc : Json.Document) : Option Position :=
  match doc.record? ["line", "offset"] with
  | some [line, column] => do
    let line ← line.required (·.word32?)
    let column ← column.required (·.word32?)
    pure ⟨line, column⟩
  | _ => none

end Position
end Notebook
