import Notebook.Shell.Arithmetic
import Notebook.Text.Utf8

/-!
# Formatted output

Escapes with a backslash and conversions with a percent sign, as tools write them.  The
result is bytes, because an octal escape may write any byte.
-/

set_option autoImplicit false

namespace Notebook
namespace Shell
namespace Format

/-- The value of up to some octal digits and what follows them. -/
def octal (most value : Nat) (cs : List Char) : Nat × List Char :=
  match most with
  | 0 => (value, cs)
  | most + 1 =>
    match cs with
    | c :: rest =>
      if '0' ≤ c && c ≤ '7' then octal most (value * 8 + (c.toNat - 48)) rest else (value, cs)
    | [] => (value, [])

/-- The byte of a simple escape. -/
def simpleEscape? : Char → Option UInt8
  | 'n' => some 10
  | 't' => some 9
  | 'r' => some 13
  | 'a' => some 7
  | 'b' => some 8
  | 'f' => some 12
  | 'v' => some 11
  | '\\' => some 92
  | _ => none

/-- A text with escapes as bytes, and whether it ends all output.  In an argument, octal
escapes start with a zero. -/
def escaped (zeroFirst : Bool) (fuel : Nat) (cs : List Char) : List UInt8 × Bool :=
  match fuel with
  | 0 => ([], false)
  | fuel + 1 =>
    match cs with
    | [] => ([], false)
    | '\\' :: c :: rest =>
      if c = 'c' then ([], true)
      else
        match simpleEscape? c with
        | some b =>
          let (more, stop) := escaped zeroFirst fuel rest
          (b :: more, stop)
        | none =>
          if '0' ≤ c && c ≤ '7' && (!zeroFirst || c = '0') then
            let (value, rest) :=
              if zeroFirst then octal 3 0 rest else octal 3 0 (c :: rest)
            let (more, stop) := escaped zeroFirst fuel rest
            (UInt8.ofNat value :: more, stop)
          else
            let (more, stop) := escaped zeroFirst fuel (c :: rest)
            (92 :: more, stop)
    | c :: rest =>
      let (more, stop) := escaped zeroFirst fuel rest
      (Utf8.encode [c] ++ more, stop)

/-- A text with escapes, as an argument of a tool. -/
def escapedText (cs : List Char) : List UInt8 × Bool :=
  escaped true (cs.length + 1) cs

/-- A conversion. -/
structure Conversion where
  left : Bool
  zero : Bool
  plus : Bool
  width : Nat
  precision : Option Nat
  kind : Char
  deriving Repr, Inhabited

/-- The flags at the start of a conversion. -/
def flags (c : Conversion) : List Char → Conversion × List Char
  | '-' :: rest => flags { c with left := true } rest
  | '0' :: rest => flags { c with zero := true } rest
  | '+' :: rest => flags { c with plus := true } rest
  | ' ' :: rest => flags c rest
  | '#' :: rest => flags c rest
  | cs => (c, cs)

/-- A decimal number at the start of a text. -/
def decimal (cs : List Char) : Nat × List Char :=
  let (digits, rest) := cs.span Char.isDigit
  ((String.ofList digits).toNat?.getD 0, rest)

/-- A conversion after its percent sign. -/
def conversion? (cs : List Char) : Option (Conversion × List Char) :=
  let (c, cs) := flags ⟨false, false, false, 0, none, 's'⟩ cs
  let (width, cs) := decimal cs
  let (precision, cs) :=
    match cs with
    | '.' :: rest =>
      let (n, rest) := decimal rest
      (some n, rest)
    | cs => (none, cs)
  match cs with
  | kind :: rest => some ({ c with width, precision, kind }, rest)
  | [] => none

/-- A field of at least some width. -/
def padded (c : Conversion) (zeros : Bool) (body : List UInt8) : List UInt8 :=
  let missing := c.width - body.length
  if c.left then body ++ List.replicate missing 32
  else if zeros then
    match body with
    | 45 :: digits => 45 :: (List.replicate missing 48 ++ digits)
    | body => List.replicate missing 48 ++ body
  else List.replicate missing 32 ++ body

/-- The number that an argument stands for. -/
def numberOf? (arg : String) : Option Int :=
  match arg.toList with
  | '\'' :: c :: _ => some c.toNat
  | '"' :: c :: _ => some c.toNat
  | [] => some 0
  | cs => Arithmetic.signed? cs

/-- The text of a number in a base. -/
def digits (base : Nat) (upper : Bool) (n : Int) : String :=
  let text := String.ofList (Nat.toDigits base (n % UInt64.size).toNat)
  if upper then text.toUpper else text

/-- The bytes of an argument under a conversion, whether output ends, and whether the
argument was no number. -/
def convert? (c : Conversion) (arg : String) : Option (List UInt8 × Bool × Bool) :=
  let bytes := arg.toUTF8.toList
  let cutTo (bs : List UInt8) : List UInt8 :=
    match c.precision with
    | some n => bs.take n
    | none => bs
  let number (f : Int → String) : Option (List UInt8 × Bool × Bool) :=
    let n := numberOf? arg
    let text := (f (n.getD 0)).toUTF8.toList
    let text := List.replicate (c.precision.getD 0 - text.length) 48 ++ text
    some (padded c (c.zero && c.precision.isNone) text, false, n.isNone)
  match c.kind with
  | 's' => some (padded c false (cutTo bytes), false, false)
  | 'b' =>
    let (bs, stop) := escapedText arg.toList
    some (padded c false (cutTo bs), stop, false)
  | 'c' => some (padded c false (bytes.take 1), false, false)
  | 'd' => number fun n => if c.plus && 0 ≤ n then "+" ++ toString n else toString n
  | 'i' => number fun n => if c.plus && 0 ≤ n then "+" ++ toString n else toString n
  | 'u' => number (digits 10 false)
  | 'x' => number (digits 16 false)
  | 'X' => number (digits 16 true)
  | 'o' => number (digits 8 false)
  | _ => none

/-- What one pass over a format gives. -/
structure Pass where
  bytes : List UInt8
  args : List String
  /-- A conversion was met. -/
  used : Bool
  stop : Bool
  bad : List String
  deriving Inhabited

/-- One pass over a format. -/
def pass (fuel : Nat) (p : Pass) (cs : List Char) : Pass :=
  match fuel with
  | 0 => p
  | fuel + 1 =>
    match cs with
    | [] => p
    | '%' :: '%' :: rest => pass fuel { p with bytes := p.bytes ++ [37] } rest
    | '%' :: rest =>
      match conversion? rest with
      | none => { p with stop := true, bad := p.bad ++ ["%"] }
      | some (c, rest) =>
        let arg := p.args.headD ""
        match convert? c arg with
        | none => { p with stop := true, bad := p.bad ++ ["%"] }
        | some (bytes, stop, wrong) =>
          let p := { p with
            bytes := p.bytes ++ bytes
            args := p.args.drop 1
            used := true
            stop
            bad := if wrong then p.bad ++ [arg] else p.bad }
          if stop then p else pass fuel p rest
    | cs =>
      let (plain, rest) := cs.span (· ≠ '%')
      let (bytes, stop) := escaped false (plain.length + 1) plain
      let p := { p with bytes := p.bytes ++ bytes, stop }
      if stop then p else pass fuel p rest

/-- Passes over a format until there are no more arguments. -/
def passes (fuel : Nat) (format : List Char) (p : Pass) : Pass :=
  match fuel with
  | 0 => p
  | fuel + 1 =>
    let p := pass (format.length + 1) { p with used := false } format
    if p.stop || !p.used || p.args.isEmpty then p else passes fuel format p

/-- The bytes of a format with arguments, and the arguments that were no numbers. -/
def render (format : String) (args : List String) : List UInt8 × List String :=
  let p := passes (args.length + 1) format.toList ⟨[], args, false, false, []⟩
  (p.bytes, p.bad)

end Format
end Shell
end Notebook
