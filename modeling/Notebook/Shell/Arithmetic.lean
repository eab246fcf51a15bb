import Notebook.Shell.Lexer

/-!
# Arithmetic of the shell language

Expressions over 64-bit integers with variables, assignments and the operators of the
language, read and worked out in one pass.
-/

set_option autoImplicit false

namespace Notebook
namespace Shell
namespace Arithmetic

/-- A token of an expression. -/
inductive Item where
  | number (n : Int)
  | name (s : String)
  | operator (s : String)
  deriving DecidableEq, Repr, Inhabited

/-- Why an expression has no value. -/
inductive Problem where
  | divisionByZero
  | illegalNumber (text : String)
  | unreadable
  deriving DecidableEq, Repr

/-- The wording of a problem in an expression. -/
def Problem.message (source : String) : Problem → String
  | .divisionByZero => s!"arithmetic expression: division by zero: \"{source}\""
  | .illegalNumber text => s!"Illegal number: {text}"
  | .unreadable => s!"arithmetic expression: expecting primary: \"{source}\""

/-- The value of a digit. -/
def digitValue (c : Char) : Nat :=
  if c.isDigit then c.toNat - 48
  else if 'a' ≤ c && c ≤ 'z' then c.toNat - 87
  else if 'A' ≤ c && c ≤ 'Z' then c.toNat - 55
  else 99

/-- Digits in a base as a number. -/
def ofDigits? (base : Nat) (cs : List Char) : Option Int :=
  if cs.isEmpty || cs.any fun c => base ≤ digitValue c then none
  else some (cs.foldl (fun n c => n * base + digitValue c) (0 : Nat) : Nat)

/-- A number as it is written: decimal, octal or hexadecimal. -/
def number? (cs : List Char) : Option Int :=
  match cs with
  | '0' :: 'x' :: rest => ofDigits? 16 rest
  | '0' :: 'X' :: rest => ofDigits? 16 rest
  | '0' :: c :: rest => ofDigits? 8 (c :: rest)
  | cs => ofDigits? 10 cs

/-- A number with a sign, as in a variable. -/
def signed? (cs : List Char) : Option Int :=
  match cs with
  | '-' :: rest => (number? rest).map (-·)
  | '+' :: rest => number? rest
  | cs => number? cs

/-- The operators, longer ones before their starts. -/
def symbols : List String :=
  ["<<=", ">>=", "&&", "||", "<=", ">=", "==", "!=", "<<", ">>", "+=", "-=", "*=", "/=",
   "%=", "&=", "|=", "^=", "+", "-", "*", "/", "%", "<", ">", "=", "&", "|", "^", "!", "~",
   "?", ":", "(", ")"]

/-- The tokens of an expression. -/
def items (fuel : Nat) (cs : List Char) : Except Problem (List Item) :=
  match fuel with
  | 0 => .ok []
  | fuel + 1 =>
    match cs with
    | [] => .ok []
    | c :: rest =>
      if c = ' ' || c = '\t' || c = '\n' then items fuel rest
      else if c.isDigit then
        let (digits, rest) := cs.span Char.isAlphanum
        match number? digits with
        | some n => do
          let more ← items fuel rest
          pure (.number n :: more)
        | none => .error (.illegalNumber (String.ofList digits))
      else if isNameStart c then do
        let (name, rest) := cs.span isNameChar
        let more ← items fuel rest
        pure (.name (String.ofList name) :: more)
      else
        match symbols.find? fun s => s.toList.isPrefixOf cs with
        | some s => do
          let more ← items fuel (cs.drop s.length)
          pure (.operator s :: more)
        | none => .error .unreadable

/-- Variables that an expression has set, over those that it finds. -/
structure Scope where
  find : String → Option String
  set : List (String × Int)

/-- The value of a variable; one that is not set or empty counts as zero. -/
def Scope.value (s : Scope) (name : String) : Except Problem Int :=
  match s.set.lookup name with
  | some n => .ok n
  | none =>
    let text := ((s.find name).getD "").toList.filter fun c => c ≠ ' '
    if text.isEmpty then .ok 0
    else
      match signed? text with
      | some n => .ok n
      | none => .error (.illegalNumber (String.ofList text))

/-- The nearest 64-bit value. -/
def wrap (n : Int) : Int :=
  Int.bmod n UInt64.size

/-- Truth as a number. -/
def truth (b : Bool) : Int :=
  if b then 1 else 0

/-- An operation on the bits of two numbers. -/
def onBits (f : Nat → Nat → Nat) (a b : Int) : Int :=
  wrap (f (a % UInt64.size).toNat (b % UInt64.size).toNat)

/-- How tightly an operator binds. -/
def level? : String → Option Nat
  | "||" => some 1
  | "&&" => some 2
  | "|" => some 3
  | "^" => some 4
  | "&" => some 5
  | "==" => some 6
  | "!=" => some 6
  | "<" => some 7
  | ">" => some 7
  | "<=" => some 7
  | ">=" => some 7
  | "<<" => some 8
  | ">>" => some 8
  | "+" => some 9
  | "-" => some 9
  | "*" => some 10
  | "/" => some 10
  | "%" => some 10
  | _ => none

/-- The value of an operation. -/
def operate (op : String) (a b : Int) : Except Problem Int :=
  match op with
  | "||" => .ok (truth (a ≠ 0 || b ≠ 0))
  | "&&" => .ok (truth (a ≠ 0 && b ≠ 0))
  | "|" => .ok (onBits (· ||| ·) a b)
  | "^" => .ok (onBits (· ^^^ ·) a b)
  | "&" => .ok (onBits (· &&& ·) a b)
  | "==" => .ok (truth (a = b))
  | "!=" => .ok (truth (a ≠ b))
  | "<" => .ok (truth (a < b))
  | ">" => .ok (truth (b < a))
  | "<=" => .ok (truth (a ≤ b))
  | ">=" => .ok (truth (b ≤ a))
  | "<<" => .ok (wrap (a * (Nat.pow 2 (b % 64).toNat : Int)))
  | ">>" => .ok (a / (Nat.pow 2 (b % 64).toNat : Int))
  | "+" => .ok (wrap (a + b))
  | "-" => .ok (wrap (a - b))
  | "*" => .ok (wrap (a * b))
  | "/" => if b = 0 then .error .divisionByZero else .ok (wrap (a.tdiv b))
  | "%" => if b = 0 then .error .divisionByZero else .ok (a.tmod b)
  | _ => .error .unreadable

/-- A value, the scope after it and what is left. -/
abbrev Outcome := Except Problem (Int × Scope × List Item)

mutual

/-- An expression of operators that bind at least as tightly as a level. -/
def binary (fuel level : Nat) (s : Scope) (ts : List Item) : Outcome :=
  match fuel with
  | 0 => .error .unreadable
  | fuel + 1 => do
    let (a, s, ts) ← unary fuel s ts
    continued fuel level a s ts

/-- The operators after a first operand. -/
def continued (fuel level : Nat) (a : Int) (s : Scope) (ts : List Item) : Outcome :=
  match fuel with
  | 0 => .error .unreadable
  | fuel + 1 =>
    match ts with
    | .operator op :: rest =>
      match level? op with
      | some l =>
        if l < level then .ok (a, s, ts)
        else do
          let (b, s, ts) ← binary fuel (l + 1) s rest
          let c ← operate op a b
          continued fuel level c s ts
      | none => .ok (a, s, ts)
    | ts => .ok (a, s, ts)

/-- An operand. -/
def unary (fuel : Nat) (s : Scope) (ts : List Item) : Outcome :=
  match fuel with
  | 0 => .error .unreadable
  | fuel + 1 =>
    match ts with
    | .number n :: rest => .ok (wrap n, s, rest)
    | .name x :: rest => do
      let n ← s.value x
      pure (n, s, rest)
    | .operator "(" :: rest => do
      let (n, s, ts) ← whole fuel s rest
      match ts with
      | .operator ")" :: ts => pure (n, s, ts)
      | _ => throw .unreadable
    | .operator op :: rest => do
      let (n, s, ts) ← unary fuel s rest
      match op with
      | "-" => pure (wrap (-n), s, ts)
      | "+" => pure (n, s, ts)
      | "!" => pure (truth (n = 0), s, ts)
      | "~" => pure (-n - 1, s, ts)
      | _ => throw .unreadable
    | [] => .error .unreadable

/-- A whole expression, with assignments and choices. -/
def whole (fuel : Nat) (s : Scope) (ts : List Item) : Outcome :=
  match fuel with
  | 0 => .error .unreadable
  | fuel + 1 =>
    let chosen : Outcome := do
      let (a, s, ts) ← binary fuel 1 s ts
      match ts with
      | .operator "?" :: rest =>
        let (b, s, ts) ← whole fuel s rest
        match ts with
        | .operator ":" :: rest =>
          let (c, s, ts) ← whole fuel s rest
          pure (if a ≠ 0 then b else c, s, ts)
        | _ => throw .unreadable
      | ts => pure (a, s, ts)
    match ts with
    | .name x :: .operator op :: rest =>
      if op = "=" then do
        let (n, s, ts) ← whole fuel s rest
        pure (n, { s with set := (x, n) :: s.set }, ts)
      else if op.endsWith "=" && (level? op).isNone then do
        let old ← s.value x
        let (n, s, ts) ← whole fuel s rest
        let n ← operate (op.dropEnd 1).toString old n
        pure (n, { s with set := (x, n) :: s.set }, ts)
      else chosen
    | _ => chosen

end

/-- The value of an expression and the variables that it sets, the last ones first. -/
def evaluate (find : String → Option String) (source : List Char) :
    Except Problem (Int × List (String × Int)) := do
  let ts ← items (source.length + 1) source
  if ts.isEmpty then pure (0, [])
  else
    let (n, s, rest) ← whole (8 * ts.length + 8) ⟨find, []⟩ ts
    if rest.isEmpty then pure (n, s.set) else throw .unreadable

end Arithmetic
end Shell
end Notebook
