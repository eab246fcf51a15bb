import Notebook.Toml.Scalar
import Notebook.Toml.Tree

/-!
# Reading TOML text

`Toml.parse?` reads a document in three steps.  First the characters are checked: no
control characters, and a carriage return only before a line feed, which then stands
for both.  Then the text is split into statements, and these are assembled.
-/

namespace Notebook
namespace Toml

/-! ## Characters -/

/-- Whether a character may stand in a document. -/
def isAllowed (c : Char) : Bool :=
  0x20 ≤ c.toNat && c.toNat ≠ 0x7F || c = '\t' || c = '\n'

/-- Text with line feeds alone at the ends of its lines; nothing when a character is
not allowed. -/
def normalized? : List Char → Option (List Char)
  | [] => some []
  | '\r' :: '\n' :: rest => (normalized? rest).map ('\n' :: ·)
  | c :: rest => if isAllowed c then (normalized? rest).map (c :: ·) else none

/-- Whether a character separates tokens on a line. -/
def isGap (c : Char) : Bool :=
  c = ' ' || c = '\t'

/-- What follows the gaps at the start. -/
def skipGaps (cs : List Char) : List Char :=
  cs.dropWhile isGap

/-- What follows gaps, comments and ends of lines at the start. -/
def skipLines (fuel : Nat) (cs : List Char) : List Char :=
  match fuel with
  | 0 => cs
  | fuel + 1 =>
    match skipGaps cs with
    | '\n' :: rest => skipLines fuel rest
    | '#' :: rest => skipLines fuel (rest.dropWhile (· ≠ '\n'))
    | cs => cs

/-- What follows the end of a line, which may carry a comment. -/
def endOfLine? (cs : List Char) : Option (List Char) :=
  match skipGaps cs with
  | [] => some []
  | '\n' :: rest => some rest
  | '#' :: rest => some (rest.dropWhile (· ≠ '\n'))
  | _ => none

/-! ## Strings -/

/-- The character of a number, if it has one. -/
def scalar? (n : Nat) : Option Char :=
  if n.isValidChar then some (Char.ofNat n) else none

/-- A character given by a fixed number of hexadecimal digits. -/
def coded? (count : Nat) (cs : List Char) : Option (Char × List Char) := do
  let ds ← (cs.take count).mapM (digit? 16)
  if ds.length = count then
    let c ← scalar? (ofDigits 16 ds)
    pure (c, cs.drop count)
  else none

/-- The character of an escape sequence, after its backslash. -/
def escape? : List Char → Option (Char × List Char)
  | 'b' :: rest => some ('\x08', rest)
  | 't' :: rest => some ('\t', rest)
  | 'n' :: rest => some ('\n', rest)
  | 'f' :: rest => some ('\x0c', rest)
  | 'r' :: rest => some ('\r', rest)
  | 'e' :: rest => some ('\x1b', rest)
  | '"' :: rest => some ('"', rest)
  | '\\' :: rest => some ('\\', rest)
  | 'x' :: rest => coded? 2 rest
  | 'u' :: rest => coded? 4 rest
  | 'U' :: rest => coded? 8 rest
  | _ => none

/-- The rest of a string in double quotes on one line. -/
def basic? (fuel : Nat) (acc : List Char) (cs : List Char) :
    Option (String × List Char) :=
  match fuel with
  | 0 => none
  | fuel + 1 =>
    match cs with
    | '"' :: rest => some (String.ofList acc.reverse, rest)
    | '\\' :: rest =>
      match escape? rest with
      | some (c, rest) => basic? fuel (c :: acc) rest
      | none => none
    | c :: rest => if c = '\n' then none else basic? fuel (c :: acc) rest
    | [] => none

/-- The rest of a string in single quotes on one line. -/
def literal? (acc : List Char) : List Char → Option (String × List Char)
  | '\'' :: rest => some (String.ofList acc.reverse, rest)
  | c :: rest => if c = '\n' then none else literal? (c :: acc) rest
  | [] => none

/-- Closes a string of several lines: up to two quotes before the closing ones belong to
the string. -/
def closing (quote : Char) (acc rest : List Char) : String × List Char :=
  match rest with
  | a :: b :: rest' =>
    if a = quote ∧ b = quote then (String.ofList (quote :: quote :: acc).reverse, rest')
    else if a = quote then (String.ofList (quote :: acc).reverse, b :: rest')
    else (String.ofList acc.reverse, rest)
  | [a] =>
    if a = quote then (String.ofList (quote :: acc).reverse, [])
    else (String.ofList acc.reverse, rest)
  | [] => (String.ofList acc.reverse, [])

/-- The rest of a string of several lines in double quotes.  A backslash at the end of a
line joins it with the next text. -/
def basicLines? (fuel : Nat) (acc : List Char) (cs : List Char) :
    Option (String × List Char) :=
  match fuel with
  | 0 => none
  | fuel + 1 =>
    match cs with
    | '"' :: '"' :: '"' :: rest => some (closing '"' acc rest)
    | '\\' :: rest =>
      match skipGaps rest with
      | '\n' :: rest =>
        basicLines? fuel acc (rest.dropWhile fun c => isGap c || c = '\n')
      | _ =>
        match escape? rest with
        | some (c, rest) => basicLines? fuel (c :: acc) rest
        | none => none
    | c :: rest => basicLines? fuel (c :: acc) rest
    | [] => none

/-- The rest of a string of several lines in single quotes. -/
def literalLines? (acc : List Char) : List Char → Option (String × List Char)
  | '\'' :: '\'' :: '\'' :: rest => some (closing '\'' acc rest)
  | c :: rest => literalLines? (c :: acc) rest
  | [] => none

/-- What follows a line feed right after the opening quotes. -/
def skipFirstBreak : List Char → List Char
  | '\n' :: rest => rest
  | cs => cs

/-- A string of any kind at the start of a text. -/
def string? : List Char → Option (String × List Char)
  | '"' :: '"' :: '"' :: rest => basicLines? (rest.length + 1) [] (skipFirstBreak rest)
  | '"' :: rest => basic? (rest.length + 1) [] rest
  | '\'' :: '\'' :: '\'' :: rest => literalLines? [] (skipFirstBreak rest)
  | '\'' :: rest => literal? [] rest
  | _ => none

/-! ## Keys -/

/-- Whether a character may stand in a key without quotes. -/
def isKeyChar (c : Char) : Bool :=
  c.isAlphanum || c = '_' || c = '-'

/-- One part of a key. -/
def keyPart? : List Char → Option (String × List Char)
  | '"' :: rest => basic? (rest.length + 1) [] rest
  | '\'' :: rest => literal? [] rest
  | cs =>
    match cs.span isKeyChar with
    | ([], _) => none
    | (key, rest) => some (String.ofList key, rest)

/-- A dotted key with gaps around its dots: the parts before the last, and the last. -/
def key? (fuel : Nat) (cs : List Char) : Option (List String × String × List Char) :=
  match fuel with
  | 0 => none
  | fuel + 1 => do
    let (part, rest) ← keyPart? (skipGaps cs)
    match skipGaps rest with
    | '.' :: rest => do
      let (path, last, rest) ← key? fuel rest
      pure (part :: path, last, rest)
    | rest => pure ([], part, rest)

/-! ## Values -/

/-- Containers inside one another beyond this number are refused. -/
def nestingLimit : Nat := 80

/-- Whether a character may stand in a word. -/
def isWordChar (c : Char) : Bool :=
  !(isGap c || c = '\n' || c = ',' || c = ']' || c = '\x7d' || c = '#')

/-- A word at the start of a text.  A date may be followed by a space and a time. -/
def spanWord (cs : List Char) : List Char × List Char :=
  let (word, rest) := cs.span isWordChar
  match rest with
  | ' ' :: d :: rest' =>
    match date? word with
    | some (_, []) =>
      if d.isDigit then
        let (more, rest) := (d :: rest').span isWordChar
        (word ++ ' ' :: more, rest)
      else (word, rest)
    | _ => (word, rest)
  | _ => (word, rest)

mutual

/-- A value at the start of a text. -/
def value? (fuel depth : Nat) (cs : List Char) : Option (Toml × List Char) :=
  match fuel with
  | 0 => none
  | fuel + 1 =>
    match cs with
    | '[' :: rest =>
      match depth with
      | 0 => none
      | depth + 1 => items? fuel depth [] (skipLines rest.length rest)
    | '\x7b' :: rest =>
      match depth with
      | 0 => none
      | depth + 1 => inline? fuel depth [] (skipLines rest.length rest)
    | '"' :: _ => (string? cs).map fun (s, rest) => (.string s, rest)
    | '\'' :: _ => (string? cs).map fun (s, rest) => (.string s, rest)
    | cs =>
      let (word, rest) := spanWord cs
      (word? word).map fun value => (value, rest)

/-- The items of an array up to its closing bracket. -/
def items? (fuel depth : Nat) (acc : List Toml) (cs : List Char) :
    Option (Toml × List Char) :=
  match fuel with
  | 0 => none
  | fuel + 1 =>
    match cs with
    | ']' :: rest => some (.array acc.reverse, rest)
    | cs =>
      match value? fuel depth cs with
      | none => none
      | some (item, rest) =>
        match skipLines rest.length rest with
        | ',' :: rest => items? fuel depth (item :: acc) (skipLines rest.length rest)
        | ']' :: rest => some (.array (item :: acc).reverse, rest)
        | _ => none

/-- The fields of an inline table up to its closing brace. -/
def inline? (fuel depth : Nat) (acc : Fields) (cs : List Char) :
    Option (Toml × List Char) :=
  match fuel with
  | 0 => none
  | fuel + 1 =>
    match cs with
    | '\x7d' :: rest => some (.table (finishFields acc), rest)
    | cs =>
      match assignment? fuel depth cs with
      | none => none
      | some (path, key, value, rest) =>
        match Fields.assign path key value acc with
        | none => none
        | some acc =>
          match skipLines rest.length rest with
          | ',' :: rest => inline? fuel depth acc (skipLines rest.length rest)
          | '\x7d' :: rest => some (.table (finishFields acc), rest)
          | _ => none

/-- A key, an equals sign and a value. -/
def assignment? (fuel depth : Nat) (cs : List Char) :
    Option (List String × String × Toml × List Char) :=
  match fuel with
  | 0 => none
  | fuel + 1 =>
    match key? cs.length cs with
    | some (path, key, '=' :: rest) =>
      match value? fuel depth (skipGaps rest) with
      | some (value, rest) => some (path, key, value, rest)
      | none => none
    | _ => none

end

/-! ## Documents -/

/-- One statement with the end of its line. -/
def statement? (cs : List Char) : Option (Statement × List Char) :=
  match cs with
  | '[' :: '[' :: rest =>
    match key? rest.length rest with
    | some (path, key, ']' :: ']' :: rest) =>
      (endOfLine? rest).map fun rest => (.item path key, rest)
    | _ => none
  | '[' :: rest =>
    match key? rest.length rest with
    | some (path, key, ']' :: rest) =>
      (endOfLine? rest).map fun rest => (.header path key, rest)
    | _ => none
  | cs => do
    let (path, key, value, rest) ← assignment? (2 * cs.length + 2) nestingLimit cs
    let rest ← endOfLine? rest
    pure (.assignment path key value, rest)

/-- The statements of a text. -/
def statements? (fuel : Nat) (cs : List Char) : Option (List Statement) :=
  match fuel with
  | 0 => none
  | fuel + 1 =>
    match skipLines cs.length cs with
    | [] => some []
    | cs => do
      let (first, rest) ← statement? cs
      let others ← statements? fuel rest
      pure (first :: others)

/-- A text without the mark that may stand in front of it. -/
def withoutMark : List Char → List Char
  | '\uFEFF' :: rest => rest
  | cs => cs

/-- The document that a text writes. -/
def parse? (text : String) : Option Toml := do
  let cs ← normalized? (withoutMark text.toList)
  let lines ← statements? (cs.length + 1) cs
  assemble lines

end Toml
end Notebook
