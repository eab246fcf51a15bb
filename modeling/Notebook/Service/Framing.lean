import Notebook.Json.Document
import Notebook.Text.Blank

/-!
# Frames of the analysis service

The service writes JSON values, each either as an object on a line of its own or as a
block of header lines, an empty line and a body whose size the headers give.  Both kinds
may be mixed, with blank lines between them.

Reading is a step per byte, so it does not matter in which pieces the bytes arrive.  The
first problem ends the reading.
-/

namespace Notebook
namespace Framing

/-- Lines and bodies may have this many bytes. -/
def sizeLimit : Nat := 16 * 1024 * 1024

/-- Why reading ends before the output does. -/
inductive Problem where
  | lineTooLong
  | lineNotText
  | lineNotJson
  | headerTooLong
  | headerNotText
  | malformedHeader (line : String)
  | invalidLength
  | missingLength
  | endInHeaders
  | bodyTooLong (size : Nat)
  | endInBody
  | bodyNotJson
  deriving DecidableEq, Repr

/-- The wording of a problem. -/
def Problem.message : Problem → String
  | .lineTooLong => "reading frame line"
  | .lineNotText => "frame line is not UTF-8"
  | .lineNotJson => "parsing JSON line"
  | .headerTooLong => "reading header line"
  | .headerNotText => "header line is not UTF-8"
  | .malformedHeader line => s!"malformed header line: {line}"
  | .invalidLength => "invalid Content-Length value"
  | .missingLength => "missing Content-Length header"
  | .endInHeaders => "unexpected EOF while reading headers"
  | .bodyTooLong size => s!"Content-Length {size} exceeds maximum {sizeLimit}"
  | .endInBody => "reading frame body"
  | .bodyNotJson => "parsing framed JSON body"

/-- What is being read. -/
inductive Phase where
  /-- The line that starts a frame. -/
  | line (read : ByteArray)
  /-- A line after the first header; the size that the headers gave so far. -/
  | header (size : Option Nat) (read : ByteArray)
  /-- A body, of which some bytes are due. -/
  | body (due : Nat) (read : ByteArray)
  /-- Nothing more. -/
  | failed (problem : Problem)
  deriving Inhabited

/-- What a line without its blanks, or a byte, leads to. -/
structure Step where
  phase : Phase
  value : Option Json

/-! ## Lines -/

/-- Splits a line at its first colon. -/
def splitAtColon : List Char → Option (List Char × List Char)
  | [] => none
  | c :: rest =>
    if c = ':' then some ([], rest)
    else (splitAtColon rest).map fun (key, value) => (c :: key, value)

/-- The number that decimal digits after an optional plus sign write, below `2 ^ 64`. -/
def size? (cs : List Char) : Option Nat :=
  let digits := match cs with
    | '+' :: rest => rest
    | cs => cs
  if digits.isEmpty || !digits.all Char.isDigit then none
  else
    let n := digits.foldl (fun acc c => acc * 10 + (c.toNat - '0'.toNat)) 0
    if n < UInt64.size then some n else none

/-- The size that a header line gives; nothing for another header. -/
def sizeOf (line : List Char) : Except Problem (Option Nat) :=
  match splitAtColon line with
  | none => .error (.malformedHeader (String.ofList line))
  | some (key, value) =>
    if (Text.trimmed key).map Char.toLower = "content-length".toList then
      match size? (Text.trimmed value) with
      | some n => .ok (some n)
      | none => .error .invalidLength
    else .ok none

/-- A step that ends the reading. -/
def fail (problem : Problem) : Step :=
  ⟨.failed problem, none⟩

/-- The value of a body. -/
def bodyStep (read : ByteArray) : Step :=
  match (String.fromUTF8? read).bind Json.parse? with
  | some value => ⟨.line .empty, some value⟩
  | none => fail .bodyNotJson

/-- What follows the empty line after the headers. -/
def startBody (size : Option Nat) : Step :=
  match size with
  | none => fail .missingLength
  | some n =>
    if sizeLimit < n then fail (.bodyTooLong n)
    else if n = 0 then bodyStep .empty
    else ⟨.body n .empty, none⟩

/-- Takes a whole line that may start a frame. -/
def takeLine (read : ByteArray) : Step :=
  match String.fromUTF8? read with
  | none => fail .lineNotText
  | some text =>
    match Text.trimmed text.toList with
    | [] => ⟨.line .empty, none⟩
    | '\x7b' :: rest =>
      match Json.parse? (String.ofList ('\x7b' :: rest)) with
      | some value => ⟨.line .empty, some value⟩
      | none => fail .lineNotJson
    | line =>
      match sizeOf line with
      | .ok size => ⟨.header size .empty, none⟩
      | .error problem => fail problem

/-- Takes a whole line after the first header. -/
def takeHeader (size : Option Nat) (read : ByteArray) : Step :=
  match String.fromUTF8? read with
  | none => fail .headerNotText
  | some text =>
    match Text.trimmed text.toList with
    | [] => startBody size
    | line =>
      match sizeOf line with
      | .ok (some n) => ⟨.header (some n) .empty, none⟩
      | .ok none => ⟨.header size .empty, none⟩
      | .error problem => fail problem

/-! ## Bytes -/

/-- Whether a byte ends a line. -/
def isLineEnd (b : UInt8) : Bool :=
  b == 0x0A

/-- Takes a byte. -/
def feed (phase : Phase) (b : UInt8) : Step :=
  match phase with
  | .line read =>
    if sizeLimit ≤ read.size then fail .lineTooLong
    else if isLineEnd b then takeLine (read.push b)
    else ⟨.line (read.push b), none⟩
  | .header size read =>
    if sizeLimit ≤ read.size then fail .headerTooLong
    else if isLineEnd b then takeHeader size (read.push b)
    else ⟨.header size (read.push b), none⟩
  | .body due read =>
    if due ≤ 1 then bodyStep (read.push b) else ⟨.body (due - 1) (read.push b), none⟩
  | .failed problem => ⟨.failed problem, none⟩

/-- How reading has ended. -/
inductive Ending where
  | clean
  | broken (problem : Problem)
  deriving DecidableEq, Repr

/-- The last value, and how reading ends, when no byte follows.  A last line needs no
end. -/
def finish (phase : Phase) : Option Json × Ending :=
  match phase with
  | .line read =>
    if read.size = 0 then (none, .clean)
    else
      match takeLine read with
      | ⟨.failed problem, _⟩ => (none, .broken problem)
      | ⟨.header .., _⟩ => (none, .broken .endInHeaders)
      | ⟨_, value⟩ => (value, .clean)
  | .header size read =>
    if read.size = 0 then (none, .broken .endInHeaders)
    else
      match takeHeader size read with
      | ⟨.failed problem, _⟩ => (none, .broken problem)
      | ⟨.header .., _⟩ => (none, .broken .endInHeaders)
      | ⟨.body .., _⟩ => (none, .broken .endInBody)
      | ⟨.line _, value⟩ => (value, .clean)
  | .body .. => (none, .broken .endInBody)
  | .failed problem => (none, .broken problem)

/-- Values read so far, newest first, and what is being read. -/
structure Reader where
  newest : List Json
  phase : Phase
  deriving Inhabited

namespace Reader

/-- A reader at the start of the output. -/
def start : Reader :=
  ⟨[], .line .empty⟩

/-- Takes a byte. -/
def step (r : Reader) (b : UInt8) : Reader :=
  match feed r.phase b with
  | ⟨phase, none⟩ => ⟨r.newest, phase⟩
  | ⟨phase, some value⟩ => ⟨value :: r.newest, phase⟩

/-- Takes a piece of output. -/
def take (r : Reader) (bytes : ByteArray) : Reader :=
  bytes.data.foldl step r

/-- All values, and how reading ends, when no byte follows. -/
def close (r : Reader) : List Json × Ending :=
  let (last, ending) := finish r.phase
  ((last.toList ++ r.newest).reverse, ending)

end Reader

/-- Reads a whole output. -/
def readAll (bytes : ByteArray) : List Json × Ending :=
  (Reader.start.take bytes).close

/-- The line that writes a value. -/
def line (value : Json) : String :=
  value.text ++ "\n"

end Framing
end Notebook
