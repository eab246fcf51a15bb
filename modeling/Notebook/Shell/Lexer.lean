import Notebook.Shell.Command

/-!
# Words and operators of the shell language

A text is split into words and operators.  Inside a word quotes and expansions are
recognised; what stands inside an expansion is kept as text and read when it is needed.
-/

set_option autoImplicit false

namespace Notebook
namespace Shell

/-- A token with the number of its line. -/
inductive Token where
  | word (line : Nat) (word : Word)
  | operator (line : Nat) (text : String)
  /-- A text that stands in the script itself, as what a command reads. -/
  | here (content : Word)
  /-- A number in front of a redirection. -/
  | descriptor (fd : Nat)
  deriving Repr, Inhabited

/-- The characters that end a word. -/
def isBreak (c : Char) : Bool :=
  c = ' ' || c = '\t' || c = '\n' || c = ';' || c = '&' || c = '|' || c = '<' ||
    c = '>' || c = '(' || c = ')'

/-- Whether a character may start a name. -/
def isNameStart (c : Char) : Bool :=
  c.isAlpha || c = '_'

/-- Whether a character may stand in a name. -/
def isNameChar (c : Char) : Bool :=
  c.isAlphanum || c = '_'

/-- Whether a text is a name. -/
def isName (cs : List Char) : Bool :=
  match cs with
  | [] => false
  | c :: rest => isNameStart c && rest.all isNameChar

/-- The parameters that are written with one special character. -/
def isSpecial (c : Char) : Bool :=
  c = '@' || c = '*' || c = '#' || c = '?' || c = '$' || c = '!' || c = '-'

/-- A text up to the single quote that closes it. -/
def untilQuote (acc : List Char) : List Char → Option (List Char × List Char)
  | [] => none
  | '\'' :: rest => some (acc.reverse, rest)
  | c :: rest => untilQuote (c :: acc) rest

/-- A text up to the closing bracket of its nesting depth; quotes are passed over. -/
def untilClose (opening closing : Char) (fuel depth : Nat) (acc : List Char)
    (cs : List Char) : Option (List Char × List Char) :=
  match fuel with
  | 0 => none
  | fuel + 1 =>
    match cs with
    | [] => none
    | '\\' :: c :: rest => untilClose opening closing fuel depth (c :: '\\' :: acc) rest
    | '\'' :: rest =>
      match untilQuote [] rest with
      | some (inner, rest) =>
        untilClose opening closing fuel depth
          ('\'' :: (inner.reverse ++ '\'' :: acc)) rest
      | none => untilClose opening closing fuel depth ('\'' :: acc) rest
    | c :: rest =>
      if c = closing then
        if depth = 0 then some (acc.reverse, rest)
        else untilClose opening closing fuel (depth - 1) (c :: acc) rest
      else if c = opening then untilClose opening closing fuel (depth + 1) (c :: acc) rest
      else untilClose opening closing fuel depth (c :: acc) rest

/-- A text up to the character that closes an old-style substitution. -/
def untilTick (acc : List Char) : List Char → Option (List Char × List Char)
  | [] => none
  | '\\' :: c :: rest =>
    if c = '\x60' || c = '\\' || c = '$' then untilTick (c :: acc) rest
    else untilTick (c :: '\\' :: acc) rest
  | c :: rest => if c = '\x60' then some (acc.reverse, rest) else untilTick (c :: acc) rest

/-- A modifier with the word beside it. -/
def modifier? (cs : List Char) : Option (Modifier × Bool × List Char) :=
  match cs with
  | ':' :: '-' :: w => some (.default, true, w)
  | '-' :: w => some (.default, false, w)
  | ':' :: '=' :: w => some (.assign, true, w)
  | '=' :: w => some (.assign, false, w)
  | ':' :: '?' :: w => some (.error, true, w)
  | '?' :: w => some (.error, false, w)
  | ':' :: '+' :: w => some (.alternative, true, w)
  | '+' :: w => some (.alternative, false, w)
  | '%' :: '%' :: w => some (.longestSuffix, false, w)
  | '%' :: w => some (.shortestSuffix, false, w)
  | '#' :: '#' :: w => some (.longestStart, false, w)
  | '#' :: w => some (.shortestStart, false, w)
  | _ => none

/-- What stands inside the braces of an expansion. -/
def braced (quoted : Bool) (cs : List Char) : Part :=
  match cs with
  | '#' :: c :: rest =>
    if isName (c :: rest) then .length quoted (String.ofList (c :: rest))
    else .parameter quoted "#"
  | cs =>
    let (name, rest) :=
      match cs with
      | c :: rest =>
        if isSpecial c then ([c], rest)
        else if c.isDigit then cs.span Char.isDigit
        else cs.span isNameChar
      | [] => ([], [])
    match modifier? rest with
    | some (modifier, orEmpty, word) =>
      .modified quoted (String.ofList name) modifier orEmpty word
    | none => .parameter quoted (String.ofList name)

/-- An expansion after its dollar sign; a lone dollar sign stands for itself. -/
def dollar (quoted : Bool) (cs : List Char) : Option (Part × List Char) :=
  match cs with
  | '(' :: '(' :: rest =>
    match untilClose '(' ')' (rest.length + 1) 0 [] rest with
    | some (source, ')' :: rest) => some (.arithmetic quoted source, rest)
    | _ => (untilClose '(' ')' (rest.length + 2) 0 [] ('(' :: rest)).map
        fun (source, rest) => (.command quoted source, rest)
  | '(' :: rest =>
    (untilClose '(' ')' (rest.length + 1) 0 [] rest).map
      fun (source, rest) => (.command quoted source, rest)
  | '\x7b' :: rest =>
    (untilClose '\x7b' '\x7d' (rest.length + 1) 0 [] rest).map
      fun (source, rest) => (braced quoted source, rest)
  | c :: rest =>
    if isSpecial c || c.isDigit then some (.parameter quoted (String.ofList [c]), rest)
    else if isNameStart c then
      let (name, rest) := (c :: rest).span isNameChar
      some (.parameter quoted (String.ofList name), rest)
    else some (.text true ['$'], cs)
  | [] => some (.text true ['$'], [])

/-- The parts of a text in double quotes, up to the closing one if `closed`. -/
def quotedParts (closed : Bool) (fuel : Nat) (acc : List Part) (cs : List Char) :
    Option (List Part × List Char) :=
  match fuel with
  | 0 => none
  | fuel + 1 =>
    match cs with
    | [] => if closed then none else some (acc.reverse, [])
    | '"' :: rest =>
      if closed then some (acc.reverse, rest)
      else quotedParts closed fuel (.text true ['"'] :: acc) rest
    | '\\' :: '\n' :: rest => quotedParts closed fuel acc rest
    | '\\' :: c :: rest =>
      if c = '$' || c = '\x60' || c = '"' || c = '\\' then
        quotedParts closed fuel (.text true [c] :: acc) rest
      else quotedParts closed fuel (.text true ['\\', c] :: acc) rest
    | '$' :: rest =>
      match dollar true rest with
      | some (part, rest) => quotedParts closed fuel (part :: acc) rest
      | none => none
    | c :: rest =>
      if c = '\x60' then
        match untilTick [] rest with
        | some (source, rest) => quotedParts closed fuel (.command true source :: acc) rest
        | none => none
      else
        let (more, rest) := rest.span fun c =>
          c ≠ '"' && c ≠ '\\' && c ≠ '$' && c ≠ '\x60'
        quotedParts closed fuel (.text true (c :: more) :: acc) rest

/-- The parts of a word up to a character of the given class. -/
def wordParts (stop : Char → Bool) (fuel : Nat) (acc : List Part) (cs : List Char) :
    Option (List Part × List Char) :=
  match fuel with
  | 0 => none
  | fuel + 1 =>
    match cs with
    | [] => some (acc.reverse, [])
    | '\'' :: rest =>
      match untilQuote [] rest with
      | some (inner, rest) => wordParts stop fuel (.text true inner :: acc) rest
      | none => none
    | '"' :: rest =>
      match quotedParts true (rest.length + 1) [] rest with
      | some (parts, rest) =>
        wordParts stop fuel (parts.reverse ++ .text true [] :: acc) rest
      | none => none
    | '\\' :: '\n' :: rest => wordParts stop fuel acc rest
    | '\\' :: c :: rest => wordParts stop fuel (.text true [c] :: acc) rest
    | '$' :: rest =>
      match dollar false rest with
      | some (part, rest) => wordParts stop fuel (part :: acc) rest
      | none => none
    | c :: rest =>
      if stop c then some (acc.reverse, cs)
      else if c = '\x60' then
        match untilTick [] rest with
        | some (source, rest) => wordParts stop fuel (.command false source :: acc) rest
        | none => none
      else wordParts stop fuel (.text false [c] :: acc) rest

/-- Joins texts of the same kind that stand next to each other. -/
def joinTexts : List Part → List Part
  | .text q a :: rest =>
    match joinTexts rest with
    | .text r b :: rest =>
      if q = r then .text q (a ++ b) :: rest else .text q a :: .text r b :: rest
    | rest => .text q a :: rest
  | part :: rest => part :: joinTexts rest
  | [] => []

/-- The operators, longer ones before their starts. -/
def operators : List (List Char) :=
  [['&', '&'], ['|', '|'], [';', ';'], ['>', '>'], ['<', '<', '-'], ['<', '<'],
   ['<', '&'], ['>', '&'], ['>', '|'], ['\n'], [';'], ['&'], ['|'], ['('], [')'], ['<'], ['>']]

/-- The operator at the start of a text. -/
def operator? (cs : List Char) : Option (List Char × List Char) :=
  (operators.find? fun op => op.isPrefixOf cs).map fun op => (op, cs.drop op.length)

/-- Whether a redirection starts a text. -/
def startsRedirection : List Char → Bool
  | '<' :: _ => true
  | '>' :: _ => true
  | _ => false

/-- The lines up to one that is the delimiter, and what follows. -/
def hereLines (tabs : Bool) (delimiter : List Char) (fuel : Nat) (cs : List Char) :
    List Char × List Char :=
  match fuel with
  | 0 => ([], cs)
  | fuel + 1 =>
    let (line, rest) := cs.span (· ≠ '\n')
    let line := if tabs then line.dropWhile (· = '\t') else line
    if line = delimiter then ([], rest.drop 1)
    else
      match rest with
      | [] => (line, [])
      | _ :: rest =>
        let (body, rest) := hereLines tabs delimiter fuel rest
        (line ++ '\n' :: body, rest)

/-- The text that a redirection takes from the lines that follow, and what is left to
read: the rest of its own line, and what comes after the text. -/
def hereText? (tabs : Bool) (cs : List Char) : Option (Word × List Char) :=
  match wordParts isBreak (cs.length + 1) [] (cs.dropWhile fun c => c = ' ' || c = '\t') with
  | none => none
  | some (parts, rest) =>
    let delimiter := parts.flatMap fun
      | .text _ cs => cs
      | _ => []
    let quoted := parts.any fun
      | .text q _ => q
      | _ => false
    let (line, after) := rest.span (· ≠ '\n')
    let (body, after) := hereLines tabs delimiter (after.length + 1) (after.drop 1)
    let content :=
      if quoted then some [.text true body]
      else (quotedParts false (body.length + 1) [] body).map (·.1)
    content.map fun content => (joinTexts content, line ++ '\n' :: after)

/-- The tokens of a text. -/
def tokens? (fuel line : Nat) (acc : List Token) (cs : List Char) : Option (List Token) :=
  match fuel with
  | 0 => none
  | fuel + 1 =>
    match cs with
    | [] => some acc.reverse
    | ' ' :: rest => tokens? fuel line acc rest
    | '\t' :: rest => tokens? fuel line acc rest
    | '\\' :: '\n' :: rest => tokens? fuel (line + 1) acc rest
    | '#' :: rest => tokens? fuel line acc (rest.dropWhile (· ≠ '\n'))
    | cs =>
      match operator? cs with
      | some (['<', '<'], rest) =>
        match hereText? false rest with
        | some (content, rest) => tokens? fuel line (.here content :: acc) rest
        | none => none
      | some (['<', '<', '-'], rest) =>
        match hereText? true rest with
        | some (content, rest) => tokens? fuel line (.here content :: acc) rest
        | none => none
      | some (op, rest) =>
        let next := if op = ['\n'] then line + 1 else line
        tokens? fuel next (.operator line (String.ofList op) :: acc) rest
      | none =>
        let (digits, rest) := cs.span Char.isDigit
        if !digits.isEmpty && startsRedirection rest then
          tokens? fuel line (.descriptor ((String.ofList digits).toNat?.getD 0) :: acc) rest
        else
          match wordParts isBreak (cs.length + 1) [] cs with
          | some (parts, rest) =>
            let breaks := (cs.take (cs.length - rest.length)).count '\n'
            tokens? fuel (line + breaks) (.word line (joinTexts parts) :: acc) rest
          | none => none

end Shell
end Notebook
