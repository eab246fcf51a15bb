import Notebook.Json.Basic

/-!
# Reading JSON text

A text is read in two steps.  `Document.parse?` follows the grammar and keeps what
the grammar alone does not judge: repeated field names, numbers too large to be
represented and halves of surrogate pairs.  `Document.toJson?` then takes a document
for a value, and refuses those numbers and strings and nesting beyond a limit.
Records are read off the document directly, so that a field that no record asks for
is held to the grammar only.
-/

namespace Notebook
namespace Json

/-- A JSON text as it was written.  A number or string without a value is `none`. -/
inductive Document where
  | null
  | bool (value : Bool)
  | number (value : Option Number)
  | string (value : Option String)
  | array (items : List Document)
  | object (fields : List (Option String × Document))
  deriving Repr, Inhabited

/-- Containers inside one another beyond this number are refused. -/
def nestingLimit : Nat := 127

/-! ## Numbers -/

/-- A number as written: its digits before and after the point, and the exponent. -/
structure Literal where
  negative : Bool
  whole : List Char
  fraction : Option (List Char)
  exponent : Option (Bool × List Char)
  deriving Repr

/-- The value of a decimal digit. -/
def digitValue (c : Char) : Nat :=
  c.toNat - '0'.toNat

/-- Decimal digits read into an accumulator that stays below `2 ^ 64`; what does not
fit is left over. -/
def significand (acc : Nat) : List Char → Nat × List Char
  | [] => (acc, [])
  | c :: rest =>
    if acc * 10 + digitValue c < UInt64.size then significand (acc * 10 + digitValue c) rest
    else (acc, c :: rest)

/-- The exact value of decimal digits. -/
def decimal (digits : List Char) : Nat :=
  digits.foldl (fun acc c => acc * 10 + digitValue c) 0

/-- Multiplies by a power of ten in steps of at most `10 ^ 308`, rounding each step.
Nothing when the number leaves the range. -/
def scaleByTen (x : Binary64) (e : Int) : Nat → Option Binary64
  | 0 => some x
  | fuel + 1 =>
    if 308 < e.natAbs then
      if x.isZero then some x
      else if 0 ≤ e then none
      else do
        let step ← Binary64.ofQuotient false (Nat.pow 10 308) 1
        let y ← x.div step
        scaleByTen y (e + 308) fuel
    else do
      let power ← Binary64.ofQuotient false (Nat.pow 10 e.natAbs) 1
      if 0 ≤ e then x.mul power else x.div power

/-- The largest exponent that is told from a larger one. -/
def exponentLimit : Nat := 2147483647

/-- The float that a literal with a fraction, an exponent or too many digits denotes:
the leading digits that fit 64 bits, scaled by a power of ten. -/
def Literal.float? (n : Literal) : Option Binary64 :=
  let (lead, excess) := significand 0 n.whole
  let (m, dropped) : Nat × Int :=
    match excess, n.fraction with
    | [], some digits =>
      let (m, rest) := significand lead digits
      (m, -((digits.length - rest.length : Nat) : Int))
    | excess, some digits =>
      let (m, rest) := significand lead digits
      (m, (excess.length : Int) - ((digits.length - rest.length : Nat) : Int))
    | excess, none => (lead, excess.length)
  let (sign, size) :=
    match n.exponent with
    | none => (true, 0)
    | some (up, digits) => (up, decimal digits)
  let start := do
    let x ← Binary64.ofQuotient false m 1
    if exponentLimit < size then
      if m ≠ 0 ∧ sign then none else some (Binary64.zero false)
    else scaleByTen x (if sign then dropped + size else dropped - size) (size + 2000)
  start.map fun x => if n.negative then x.neg else x

/-- The value of a literal; nothing when it is too large. -/
def Literal.number? (n : Literal) : Option Number :=
  let (m, excess) := significand 0 n.whole
  if excess.isEmpty && n.fraction.isNone && n.exponent.isNone &&
      !(n.negative && (m == 0 || 9223372036854775808 < m)) then
    some (.integer (if n.negative then -(m : Int) else m))
  else n.float?.map .float

/-- Splits off the leading decimal digits. -/
def spanDigits (cs : List Char) : List Char × List Char :=
  cs.span Char.isDigit

/-- The digits before the point: a lone zero, or digits that do not start with one. -/
def wholeDigits : List Char → Option (List Char × List Char)
  | '0' :: rest => some (['0'], rest)
  | cs =>
    match spanDigits cs with
    | ([], _) => none
    | (digits, rest) => some (digits, rest)

/-- A point with at least one digit, if there is a point. -/
def fractionDigits : List Char → Option (Option (List Char) × List Char)
  | '.' :: cs =>
    match spanDigits cs with
    | ([], _) => none
    | (digits, rest) => some (some digits, rest)
  | cs => some (none, cs)

/-- The digits of an exponent after its sign. -/
def signedDigits (up : Bool) (cs : List Char) :
    Option (Option (Bool × List Char) × List Char) :=
  match spanDigits cs with
  | ([], _) => none
  | (digits, rest) => some (some (up, digits), rest)

/-- An exponent with at least one digit, if there is one. -/
def exponentDigits : List Char → Option (Option (Bool × List Char) × List Char)
  | c :: cs =>
    if c = 'e' ∨ c = 'E' then
      match cs with
      | '+' :: rest => signedDigits true rest
      | '-' :: rest => signedDigits false rest
      | rest => signedDigits true rest
    else some (none, c :: cs)
  | [] => some (none, [])

/-- A number literal after its sign. -/
def unsignedLiteral (negative : Bool) (cs : List Char) :
    Option (Literal × List Char) := do
  let (whole, cs) ← wholeDigits cs
  let (fraction, cs) ← fractionDigits cs
  let (exponent, cs) ← exponentDigits cs
  pure (⟨negative, whole, fraction, exponent⟩, cs)

/-- A number literal. -/
def literal : List Char → Option (Literal × List Char)
  | '-' :: cs => unsignedLiteral true cs
  | cs => unsignedLiteral false cs

/-! ## Strings -/

/-- A piece of a quoted string: a character, or a UTF-16 unit given by its number. -/
inductive Piece where
  | char (c : Char)
  | unit (n : Nat)
  deriving DecidableEq, Repr

/-- The value of a hexadecimal digit. -/
def hexValue (c : Char) : Option Nat :=
  if '0' ≤ c ∧ c ≤ '9' then some (c.toNat - '0'.toNat)
  else if 'a' ≤ c ∧ c ≤ 'f' then some (c.toNat - 'a'.toNat + 10)
  else if 'A' ≤ c ∧ c ≤ 'F' then some (c.toNat - 'A'.toNat + 10)
  else none

/-- The number of four hexadecimal digits. -/
def hexUnit (a b c d : Char) : Option Nat := do
  let a ← hexValue a
  let b ← hexValue b
  let c ← hexValue c
  let d ← hexValue d
  pure (((a * 16 + b) * 16 + c) * 16 + d)

/-- The character that a short escape stands for. -/
def shortEscape (c : Char) : Option Char :=
  if c = '"' ∨ c = '\\' ∨ c = '/' then some c
  else if c = 'n' then some '\n'
  else if c = 'r' then some '\r'
  else if c = 't' then some '\t'
  else if c = 'b' then some '\x08'
  else if c = 'f' then some '\x0c'
  else none

/-- The pieces of a string up to its closing quote, in reverse before `acc`. -/
def pieces (acc : List Piece) : List Char → Option (List Piece × List Char)
  | [] => none
  | '"' :: rest => some (acc.reverse, rest)
  | '\\' :: 'u' :: a :: b :: c :: d :: rest =>
    match hexUnit a b c d with
    | some n => pieces (.unit n :: acc) rest
    | none => none
  | '\\' :: c :: rest =>
    match shortEscape c with
    | some x => pieces (.char x :: acc) rest
    | none => none
  | c :: rest =>
    if c.toNat < 0x20 ∨ c = '\\' then none else pieces (.char c :: acc) rest

/-- Whether a number is the first half of a surrogate pair. -/
def isLead (n : Nat) : Bool :=
  0xD800 ≤ n && n ≤ 0xDBFF

/-- Whether a number is the second half of a surrogate pair. -/
def isTrail (n : Nat) : Bool :=
  0xDC00 ≤ n && n ≤ 0xDFFF

/-- The characters of the pieces; nothing when half of a pair stands alone. -/
def unpaired (acc : List Char) : List Piece → Option (List Char)
  | [] => some acc.reverse
  | .char c :: rest => unpaired (c :: acc) rest
  | .unit n :: rest =>
    if isTrail n then none
    else if isLead n then
      match rest with
      | .unit m :: rest =>
        if isTrail m then
          unpaired (Char.ofNat (0x10000 + (n - 0xD800) * 0x400 + (m - 0xDC00)) :: acc) rest
        else none
      | _ => none
    else unpaired (Char.ofNat n :: acc) rest

/-- A string after its opening quote. -/
def stringBody (cs : List Char) : Option (Option String × List Char) :=
  match pieces [] cs with
  | some (ps, rest) => some ((unpaired [] ps).map String.ofList, rest)
  | none => none

/-! ## Values -/

/-- The four characters that may stand between tokens. -/
def isSpace (c : Char) : Bool :=
  c == ' ' || c == '\n' || c == '\t' || c == '\r'

/-- What follows the spaces at the start. -/
def skipSpaces (cs : List Char) : List Char :=
  cs.dropWhile isSpace

/-- What follows a keyword. -/
def keyword? (word : List Char) (cs : List Char) : Option (List Char) :=
  if word.isPrefixOf cs then some (cs.drop word.length) else none

namespace Document

mutual

/-- A value at the start of a text, which has no leading spaces. -/
def value? (fuel : Nat) (cs : List Char) : Option (Document × List Char) :=
  match fuel with
  | 0 => none
  | fuel + 1 =>
    match cs with
    | '"' :: rest => (stringBody rest).map fun (s, rest) => (.string s, rest)
    | '[' :: rest =>
      match skipSpaces rest with
      | ']' :: rest => some (.array [], rest)
      | rest => (items? fuel [] rest).map fun (items, rest) => (.array items, rest)
    | '\x7b' :: rest =>
      match skipSpaces rest with
      | '\x7d' :: rest => some (.object [], rest)
      | rest => (fields? fuel [] rest).map fun (fields, rest) => (.object fields, rest)
    | 'n' :: rest => (keyword? ['u', 'l', 'l'] rest).map fun rest => (.null, rest)
    | 't' :: rest => (keyword? ['r', 'u', 'e'] rest).map fun rest => (.bool true, rest)
    | 'f' :: rest =>
      (keyword? ['a', 'l', 's', 'e'] rest).map fun rest => (.bool false, rest)
    | cs => (literal cs).map fun (n, rest) => (.number n.number?, rest)

/-- The items of an array from its first one to the closing bracket. -/
def items? (fuel : Nat) (acc : List Document) (cs : List Char) :
    Option (List Document × List Char) :=
  match fuel with
  | 0 => none
  | fuel + 1 =>
    match value? fuel cs with
    | none => none
    | some (item, rest) =>
      match skipSpaces rest with
      | ']' :: rest => some ((item :: acc).reverse, rest)
      | ',' :: rest => items? fuel (item :: acc) (skipSpaces rest)
      | _ => none

/-- The fields of an object from its first one to the closing brace. -/
def fields? (fuel : Nat) (acc : List (Option String × Document)) (cs : List Char) :
    Option (List (Option String × Document) × List Char) :=
  match fuel with
  | 0 => none
  | fuel + 1 =>
    match cs with
    | '"' :: rest =>
      match stringBody rest with
      | none => none
      | some (name, rest) =>
        match skipSpaces rest with
        | ':' :: rest =>
          match value? fuel (skipSpaces rest) with
          | none => none
          | some (value, rest) =>
            match skipSpaces rest with
            | '\x7d' :: rest => some (((name, value) :: acc).reverse, rest)
            | ',' :: rest => fields? fuel ((name, value) :: acc) (skipSpaces rest)
            | _ => none
        | _ => none
    | _ => none

end

end Document

/-- The document that a list of characters writes, with spaces around it. -/
def Document.ofChars? (cs : List Char) : Option Document :=
  match Document.value? (cs.length + 1) (skipSpaces cs) with
  | some (doc, rest) => if (skipSpaces rest).isEmpty then some doc else none
  | none => none

/-- The document that a text writes. -/
def Document.parse? (text : String) : Option Document :=
  Document.ofChars? text.toList

/-! ## Documents as values -/

mutual

/-- The value of a document in which at most `depth` containers are nested. -/
def Document.toJson? (depth : Nat) : Document → Option Json
  | .null => some .null
  | .bool b => some (.bool b)
  | .number n => n.map .number
  | .string s => s.map .string
  | .array items =>
    match depth with
    | 0 => none
    | depth + 1 => (Document.listToJson? depth items).map .array
  | .object fields =>
    match depth with
    | 0 => none
    | depth + 1 => (Document.fieldsToJson? depth fields).map ofFields

/-- The values of several documents. -/
def Document.listToJson? (depth : Nat) : List Document → Option (List Json)
  | [] => some []
  | item :: rest =>
    match Document.toJson? depth item, Document.listToJson? depth rest with
    | some v, some vs => some (v :: vs)
    | _, _ => none

/-- The values of fields, in the order written. -/
def Document.fieldsToJson? (depth : Nat) :
    List (Option String × Document) → Option (List (String × Json))
  | [] => some []
  | (name, item) :: rest =>
    match name, Document.toJson? depth item, Document.fieldsToJson? depth rest with
    | some n, some v, some vs => some ((n, v) :: vs)
    | _, _, _ => none

end

mutual

/-- A value as a document. -/
def toDocument : Json → Document
  | .null => .null
  | .bool b => .bool b
  | .number n => .number (some n)
  | .string s => .string (some s)
  | .array items => .array (listToDocument items)
  | .object fields => .object (fieldsToDocument fields)

/-- Values as documents. -/
def listToDocument : List Json → List Document
  | [] => []
  | item :: rest => toDocument item :: listToDocument rest

/-- Fields as fields of a document. -/
def fieldsToDocument : List (String × Json) → List (Option String × Document)
  | [] => []
  | (name, item) :: rest => (some name, toDocument item) :: fieldsToDocument rest

end

/-- The value that a text writes. -/
def parse? (text : String) : Option Json :=
  (Document.parse? text).bind (·.toJson? nestingLimit)

end Json
end Notebook
