import Notebook.Json.Binary64

/-!
# JSON values and their compact text

Numbers written without fraction or exponent are integers, all others are binary64.
The fields of an object are kept in ascending order of their names, each name once,
by building objects with `Json.ofFields`; the text of a value then has one form.
-/

namespace Notebook

namespace Json

/-- A JSON number. -/
inductive Number where
  | integer (value : Int)
  | float (value : Binary64)
  deriving DecidableEq, Repr

end Json

/-- A JSON value. -/
inductive Json where
  | null
  | bool (value : Bool)
  | number (value : Json.Number)
  | string (value : String)
  | array (items : List Json)
  | object (fields : List (String × Json))
  deriving Repr, BEq, Inhabited

namespace Json

/-- An integer as a value. -/
def int (i : Int) : Json :=
  .number (.integer i)

/-- A natural number as a value. -/
def nat (n : Nat) : Json :=
  .number (.integer n)

/-- A value, or null for nothing. -/
def optional {α : Type} (encode : α → Json) : Option α → Json
  | none => .null
  | some a => encode a

/-- An array of strings. -/
def strings (items : List String) : Json :=
  .array (items.map .string)

/-! ## Objects -/

/-- Puts a field into an ordered list of fields; a field of the same name is replaced. -/
def setField (name : String) (value : Json) :
    List (String × Json) → List (String × Json)
  | [] => [(name, value)]
  | (other, old) :: rest =>
    if name = other then (name, value) :: rest
    else if name < other then (name, value) :: (other, old) :: rest
    else (other, old) :: setField name value rest

/-- Fields in ascending order of their names; of several with one name the last stays. -/
def sortFields (fields : List (String × Json)) : List (String × Json) :=
  fields.foldl (fun done field => setField field.1 field.2 done) []

/-- The object with the given fields. -/
def ofFields (fields : List (String × Json)) : Json :=
  .object (sortFields fields)

/-- The field of an object. -/
def field? (name : String) : Json → Option Json
  | .object fields => (fields.find? (fun field => field.1 == name)).map (·.2)
  | _ => none

/-- The text of a string value. -/
def string? : Json → Option String
  | .string s => some s
  | _ => none

/-- The truth of a boolean value. -/
def bool? : Json → Option Bool
  | .bool b => some b
  | _ => none

/-- The items of an array. -/
def items? : Json → Option (List Json)
  | .array items => some items
  | _ => none

/-- A number that is an integer of at least 0. -/
def nat? : Json → Option Nat
  | .number (.integer (.ofNat n)) => some n
  | _ => none

/-! ## Compact text -/

/-- Four hexadecimal digits. -/
def hexadecimal (n : Nat) : List Char :=
  let digits := Nat.toDigits 16 n
  List.replicate (4 - digits.length) '0' ++ digits

/-- A character inside a quoted string. -/
def escaped (c : Char) : List Char :=
  if c = '"' then ['\\', '"']
  else if c = '\\' then ['\\', '\\']
  else if c = '\n' then ['\\', 'n']
  else if c = '\r' then ['\\', 'r']
  else if c = '\t' then ['\\', 't']
  else if c = '\x08' then ['\\', 'b']
  else if c = '\x0c' then ['\\', 'f']
  else if c.toNat < 0x20 then '\\' :: 'u' :: hexadecimal c.toNat
  else [c]

/-- A string in quotes. -/
def quoted (s : String) : List Char :=
  '"' :: s.toList.flatMap escaped ++ ['"']

/-- The decimal text of an integer. -/
def integerText (i : Int) : List Char :=
  if i < 0 then '-' :: Nat.toDigits 10 i.natAbs else Nat.toDigits 10 i.natAbs

/-- The text of a number. -/
def Number.text : Number → List Char
  | .integer i => integerText i
  | .float x => x.text

mutual

/-- The characters of a value without any blanks. -/
def chars : Json → List Char
  | .null => ['n', 'u', 'l', 'l']
  | .bool true => ['t', 'r', 'u', 'e']
  | .bool false => ['f', 'a', 'l', 's', 'e']
  | .number n => n.text
  | .string s => quoted s
  | .array items => '[' :: (itemChars items ++ [']'])
  | .object fields => '\x7b' :: (fieldChars fields ++ ['\x7d'])

/-- The items of an array with commas between them. -/
def itemChars : List Json → List Char
  | [] => []
  | [item] => chars item
  | item :: rest => chars item ++ ',' :: itemChars rest

/-- The fields of an object with commas between them. -/
def fieldChars : List (String × Json) → List Char
  | [] => []
  | [(name, value)] => quoted name ++ ':' :: chars value
  | (name, value) :: rest => quoted name ++ ':' :: (chars value ++ ',' :: fieldChars rest)

end

/-- The compact text of a value. -/
def text (value : Json) : String :=
  String.ofList value.chars

end Json
end Notebook
