import Notebook.Shell.Lexer

/-!
# Commands of the shell language

Commands are read from tokens: simple commands, compound ones, functions, pipelines and
lists.  A text that is no list of commands has no reading.
-/

set_option autoImplicit false

namespace Notebook
namespace Shell

/-- A word that consists of unquoted text only. -/
def bareText? : Word → Option (List Char)
  | [] => some []
  | .text false cs :: rest => (bareText? rest).map (cs ++ ·)
  | _ => none

/-- The words with a meaning of their own where a command may start. -/
def reserved : List String :=
  ["if", "then", "else", "elif", "fi", "while", "until", "do", "done", "for", "in", "case",
   "esac", "\x7b", "\x7d", "!"]

/-- The text of a word token that is not quoted. -/
def Token.bare? : Token → Option String
  | .word _ w => (bareText? w).map String.ofList
  | _ => none

/-- Whether a token is the given operator. -/
def Token.isOperator (t : Token) (text : String) : Bool :=
  match t with
  | .operator _ op => op == text
  | _ => false

/-- Passes over a reserved word. -/
def keyword? (text : String) : List Token → Option (List Token)
  | t :: rest => if t.bare? == some text then some rest else none
  | [] => none

/-- Passes over an operator. -/
def operatorRest? (text : String) : List Token → Option (List Token)
  | t :: rest => if t.isOperator text then some rest else none
  | [] => none

/-- Passes over ends of lines. -/
def skipLines (ts : List Token) : List Token :=
  ts.dropWhile (·.isOperator "\n")

/-- Passes over the signs that end a command. -/
def skipEnds (ts : List Token) : List Token :=
  ts.dropWhile fun t => t.isOperator "\n" || t.isOperator ";"

/-- The assignment that a word stands for. -/
def assignment? : Word → Option (String × Word)
  | .text false cs :: rest =>
    match cs.span isNameChar with
    | (name, '=' :: value) =>
      if isName name then
        some (String.ofList name, if value.isEmpty then rest else .text false value :: rest)
      else none
    | _ => none
  | _ => none

/-- A redirection after its descriptor, if one is written. -/
def redirection? (fd : Option Nat) : List Token → Option (Redirection × List Token)
  | .operator _ op :: .word _ w :: rest =>
    match op with
    | "<" => some (.input (fd.getD 0) w, rest)
    | ">" => some (.output (fd.getD 1) w, rest)
    | ">|" => some (.output (fd.getD 1) w, rest)
    | ">>" => some (.append (fd.getD 1) w, rest)
    | "<&" => some (.duplicate (fd.getD 0) w, rest)
    | ">&" => some (.duplicate (fd.getD 1) w, rest)
    | _ => none
  | .here w :: rest => some (.here (fd.getD 0) w, rest)
  | _ => none

/-- The redirections at the start of some tokens. -/
def redirections (fuel : Nat) (ts : List Token) : List Redirection × List Token :=
  match fuel with
  | 0 => ([], ts)
  | fuel + 1 =>
    let read :=
      match ts with
      | .descriptor fd :: rest => redirection? (some fd) rest
      | ts => redirection? none ts
    match read with
    | some (r, rest) =>
      let (more, rest) := redirections fuel rest
      (r :: more, rest)
    | none => ([], ts)

/-- What has been read of a simple command. -/
structure Draft where
  assignments : List (String × Word)
  words : List Word
  redirections : List Redirection

/-- The words and redirections of a simple command. -/
def simpleRest (fuel : Nat) (draft : Draft) (ts : List Token) : Draft × List Token :=
  match fuel with
  | 0 => (draft, ts)
  | fuel + 1 =>
    match redirections (ts.length + 1) ts with
    | ([], .word _ w :: rest) =>
      match draft.words, assignment? w with
      | [], some a =>
        simpleRest fuel { draft with assignments := draft.assignments ++ [a] } rest
      | words, _ => simpleRest fuel { draft with words := words ++ [w] } rest
    | ([], ts) => (draft, ts)
    | (rs, rest) =>
      simpleRest fuel { draft with redirections := draft.redirections ++ rs } rest

/-- The line of the first word. -/
def lineOf : List Token → Nat
  | .word line _ :: _ => line
  | .operator line _ :: _ => line
  | _ => 1

/-- The words of a loop up to the end of its line. -/
def listWords : List Token → List Word × List Token
  | .word _ w :: rest =>
    let (ws, rest) := listWords rest
    (w :: ws, rest)
  | ts => ([], ts)

/-- The patterns of an arm. -/
def patterns? : List Token → Option (List Word × List Token)
  | .word _ w :: .operator _ "|" :: rest =>
    (patterns? rest).map fun (ws, rest) => (w :: ws, rest)
  | .word _ w :: .operator _ ")" :: rest => some ([w], rest)
  | _ => none

/-- Adds redirections to a compound command. -/
def withRedirections (c : Command) (ts : List Token) : Command × List Token :=
  match redirections (ts.length + 1) ts with
  | ([], ts) => (c, ts)
  | (rs, ts) => (.redirected c rs, ts)

mutual

/-- A list of commands up to a token that cannot start one. -/
def commands? (fuel : Nat) (ts : List Token) : Option (Command × List Token) :=
  match fuel with
  | 0 => none
  | fuel + 1 => do
    let ts := skipEnds ts
    let stops : Bool :=
      match ts with
      | [] => true
      | t :: _ =>
        t.isOperator ")" || t.isOperator ";;" ||
          (match t.bare? with
          | some w => ["then", "else", "elif", "fi", "do", "done", "esac", "\x7d"].contains w
          | none => false)
    if stops then pure (.nothing, ts)
    else
      let (first, ts) ← chain? fuel ts
      match ts with
      | .operator _ "&" :: rest =>
        let (others, ts) ← commands? fuel rest
        pure (.sequence (.background first) others, ts)
      | .operator _ ";" :: rest =>
        let (others, ts) ← commands? fuel rest
        pure (.sequence first others, ts)
      | .operator _ "\n" :: rest =>
        let (others, ts) ← commands? fuel rest
        pure (.sequence first others, ts)
      | ts => pure (first, ts)

/-- Pipelines joined by `&&` and `||`. -/
def chain? (fuel : Nat) (ts : List Token) : Option (Command × List Token) :=
  match fuel with
  | 0 => none
  | fuel + 1 => do
    let (first, ts) ← pipeline? fuel ts
    chainRest? fuel first ts

/-- What follows the first pipeline of a chain. -/
def chainRest? (fuel : Nat) (first : Command) (ts : List Token) :
    Option (Command × List Token) :=
  match fuel with
  | 0 => none
  | fuel + 1 =>
    match ts with
    | .operator _ "&&" :: rest => do
      let (second, ts) ← pipeline? fuel (skipLines rest)
      chainRest? fuel (.both first second) ts
    | .operator _ "||" :: rest => do
      let (second, ts) ← pipeline? fuel (skipLines rest)
      chainRest? fuel (.either first second) ts
    | ts => some (first, ts)

/-- Commands joined by pipes. -/
def pipeline? (fuel : Nat) (ts : List Token) : Option (Command × List Token) :=
  match fuel with
  | 0 => none
  | fuel + 1 =>
    match keyword? "!" ts with
    | some rest => do
      let (c, ts) ← pipeline? fuel rest
      pure (.negated c, ts)
    | none => do
      let (first, ts) ← command? fuel ts
      let (others, ts) ← stages? fuel ts
      pure (if others.isEmpty then first else .pipeline (first :: others), ts)

/-- The further commands of a pipeline. -/
def stages? (fuel : Nat) (ts : List Token) : Option (List Command × List Token) :=
  match fuel with
  | 0 => none
  | fuel + 1 =>
    match ts with
    | .operator _ "|" :: rest => do
      let (c, ts) ← command? fuel (skipLines rest)
      let (others, ts) ← stages? fuel ts
      pure (c :: others, ts)
    | ts => some ([], ts)

/-- One command. -/
def command? (fuel : Nat) (ts : List Token) : Option (Command × List Token) :=
  match fuel with
  | 0 => none
  | fuel + 1 =>
    match ts with
    | .operator _ "(" :: rest => do
      let (body, ts) ← commands? fuel rest
      let ts ← operatorRest? ")" ts
      pure (withRedirections (.subshell body) ts)
    | .word _ w :: .operator _ "(" :: .operator _ ")" :: rest => do
      let name ← bareText? w
      if !isName name then none
      let (body, ts) ← command? fuel (skipLines rest)
      pure (.function (String.ofList name) body, ts)
    | t :: rest =>
      match t.bare? with
      | some "\x7b" => do
        let (body, ts) ← commands? fuel rest
        let ts ← keyword? "\x7d" ts
        pure (withRedirections (.group body) ts)
      | some "while" => loop? fuel true rest
      | some "until" => loop? fuel false rest
      | some "if" => do
        let (c, ts) ← branch? fuel rest
        pure (withRedirections c ts)
      | some "for" => do
        match rest with
        | .word _ w :: rest =>
          let name ← bareText? w
          if !isName name then none
          let (words, ts) :=
            match keyword? "in" (skipLines rest) with
            | some rest =>
              let (ws, ts) := listWords rest
              (some ws, ts)
            | none => (none, rest)
          let ts ← keyword? "do" (skipEnds ts)
          let (body, ts) ← commands? fuel ts
          let ts ← keyword? "done" ts
          pure (withRedirections (.repeatFor (String.ofList name) words body) ts)
        | _ => none
      | some "case" => do
        match rest with
        | .word _ w :: rest =>
          let ts ← keyword? "in" (skipLines rest)
          let (arms, ts) ← arms? fuel (skipLines ts)
          pure (withRedirections (.select w arms) ts)
        | _ => none
      | other =>
        if other.any reserved.contains then none
        else
          let (draft, rest) := simpleRest (ts.length + 1) ⟨[], [], []⟩ ts
          if rest.length < ts.length then
            some (.simple (lineOf ts) draft.assignments draft.words draft.redirections, rest)
          else none
    | [] => none

/-- The rest of a conditional loop. -/
def loop? (fuel : Nat) (expected : Bool) (ts : List Token) : Option (Command × List Token) :=
  match fuel with
  | 0 => none
  | fuel + 1 => do
    let (condition, ts) ← commands? fuel ts
    let ts ← keyword? "do" ts
    let (body, ts) ← commands? fuel ts
    let ts ← keyword? "done" ts
    pure (withRedirections (.repeatWhile expected condition body) ts)

/-- The rest of a choice, from its condition to its end. -/
def branch? (fuel : Nat) (ts : List Token) : Option (Command × List Token) :=
  match fuel with
  | 0 => none
  | fuel + 1 => do
    let (condition, ts) ← commands? fuel ts
    let ts ← keyword? "then" ts
    let (yes, ts) ← commands? fuel ts
    match keyword? "elif" ts, keyword? "else" ts with
    | some ts, _ =>
      let (no, ts) ← branch? fuel ts
      pure (.choose condition yes no, ts)
    | _, some ts =>
      let (no, ts) ← commands? fuel ts
      let ts ← keyword? "fi" ts
      pure (.choose condition yes no, ts)
    | _, _ =>
      let ts ← keyword? "fi" ts
      pure (.choose condition yes .nothing, ts)

/-- The arms of a selection, up to its end. -/
def arms? (fuel : Nat) (ts : List Token) :
    Option (List (List Word × Command) × List Token) :=
  match fuel with
  | 0 => none
  | fuel + 1 =>
    match keyword? "esac" ts with
    | some ts => some ([], ts)
    | none => do
      let (ws, ts) ← patterns? ((operatorRest? "(" ts).getD ts)
      let (body, ts) ← commands? fuel ts
      match operatorRest? ";;" ts with
      | some ts =>
        let (others, ts) ← arms? fuel (skipLines ts)
        pure ((ws, body) :: others, ts)
      | none =>
        let ts ← keyword? "esac" ts
        pure ([(ws, body)], ts)

end

/-- Reads a text as commands. -/
def parse? (text : List Char) : Option Command := do
  let ts ← tokens? (text.length + 1) 1 [] text
  let (c, rest) ← commands? (8 * ts.length + 8) ts
  if rest.isEmpty then some c else none

end Shell
end Notebook
