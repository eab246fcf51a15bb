/-!
# TOML values

The tree that a TOML document writes.  Floats are kept as they are written, since
nothing here computes with them.
-/

namespace Notebook

namespace Toml

/-- A day of the calendar. -/
structure Date where
  year : Nat
  month : Nat
  day : Nat
  deriving DecidableEq, Repr

/-- A time of day; seconds may be left out, and the fraction is in nanoseconds. -/
structure Time where
  hour : Nat
  minute : Nat
  second : Option Nat
  fraction : Option Nat
  deriving DecidableEq, Repr

/-- A distance from universal time. -/
inductive Offset where
  | universal
  | minutes (west : Bool) (size : Nat)
  deriving DecidableEq, Repr

/-- A date, a time of day or both. -/
structure Datetime where
  date : Option Date
  time : Option Time
  offset : Option Offset
  deriving DecidableEq, Repr

/-- A natural number in a fixed number of digits. -/
def padded (width n : Nat) : String :=
  let digits := Nat.toDigits 10 n
  String.ofList (List.replicate (width - digits.length) '0' ++ digits)

/-- The text of a date. -/
def Date.text (d : Date) : String :=
  padded 4 d.year ++ "-" ++ padded 2 d.month ++ "-" ++ padded 2 d.day

/-- Nine digits without the zeros at their end; at least one stays. -/
def fractionText (nanoseconds : Nat) : String :=
  match ((padded 9 nanoseconds).toList.reverse.dropWhile (· = '0')).reverse with
  | [] => "0"
  | digits => String.ofList digits

/-- The text of a time of day. -/
def Time.text (t : Time) : String :=
  padded 2 t.hour ++ ":" ++ padded 2 t.minute ++
    (match t.second with
      | some s => ":" ++ padded 2 s
      | none => "") ++
    (match t.fraction with
      | some n => "." ++ fractionText n
      | none => "")

/-- The text of a distance from universal time. -/
def Offset.text : Offset → String
  | .universal => "Z"
  | .minutes west size =>
    (if west ∧ size ≠ 0 then "-" else "+") ++ padded 2 (size / 60) ++ ":" ++
      padded 2 (size % 60)

/-- The text of a date, a time or both. -/
def Datetime.text (d : Datetime) : String :=
  let date := (d.date.map Date.text).getD ""
  let time := (d.time.map Time.text).getD ""
  let middle := if d.date.isSome ∧ d.time.isSome then "T" else ""
  date ++ middle ++ time ++ (d.offset.map Offset.text).getD ""

end Toml

/-- A TOML value. -/
inductive Toml where
  | string (text : String)
  | integer (value : Int)
  | float (written : String)
  | bool (value : Bool)
  | datetime (value : Toml.Datetime)
  | array (items : List Toml)
  | table (fields : List (String × Toml))
  deriving Repr, Inhabited

namespace Toml

mutual

/-- Changes every string of a tree; all else, and the shape of the tree, stays. -/
def mapStrings (f : String → String) : Toml → Toml
  | .string s => .string (f s)
  | .integer i => .integer i
  | .float s => .float s
  | .bool b => .bool b
  | .datetime d => .datetime d
  | .array items => .array (mapItems f items)
  | .table fields => .table (mapFields f fields)

/-- Changes every string in a list of trees. -/
def mapItems (f : String → String) : List Toml → List Toml
  | [] => []
  | item :: rest => mapStrings f item :: mapItems f rest

/-- Changes every string among the values of fields. -/
def mapFields (f : String → String) : List (String × Toml) → List (String × Toml)
  | [] => []
  | (name, item) :: rest => (name, mapStrings f item) :: mapFields f rest

end

end Toml
end Notebook
