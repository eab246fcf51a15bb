import Notebook.Json.Binary64
import Notebook.Toml.Basic

/-!
# Words of a TOML document

Truth values, numbers and dates are written without quotes.  A word is read as a whole;
it either is one of them or an error.
-/

namespace Notebook
namespace Toml

/-- The value of a digit in a base of at most 16. -/
def digit? (base : Nat) (c : Char) : Option Nat :=
  let n :=
    if '0' ≤ c ∧ c ≤ '9' then c.toNat - '0'.toNat
    else if 'a' ≤ c ∧ c ≤ 'f' then c.toNat - 'a'.toNat + 10
    else if 'A' ≤ c ∧ c ≤ 'F' then c.toNat - 'A'.toNat + 10
    else 16
  if n < base then some n else none

/-- Digits with single underscores between them. -/
def digits? (base : Nat) : List Char → Option (List Nat)
  | [] => none
  | [c] => (digit? base c).map ([·])
  | c :: '_' :: rest => do
    let d ← digit? base c
    let ds ← digits? base rest
    pure (d :: ds)
  | c :: rest => do
    let d ← digit? base c
    let ds ← digits? base rest
    pure (d :: ds)

/-- The number that digits write. -/
def ofDigits (base : Nat) (ds : List Nat) : Nat :=
  ds.foldl (fun acc d => acc * base + d) 0

/-- Digits before the point: a lone zero or digits that do not start with one. -/
def wholeDigits? (cs : List Char) : Option (List Nat) :=
  match digits? 10 cs with
  | some [0] => some [0]
  | some (0 :: _) => none
  | other => other

/-- An integer of 64 bits with a sign. -/
def signedWord? (i : Int) : Option Toml :=
  if -9223372036854775808 ≤ i ∧ i < 9223372036854775808 then some (.integer i) else none

/-- Splits a text at the first character of a class. -/
def cutAt (p : Char → Bool) (cs : List Char) : List Char × Option (List Char) :=
  match cs.dropWhile (fun c => !p c) with
  | [] => (cs, none)
  | _ :: rest => (cs.takeWhile (fun c => !p c), some rest)

/-- A sign and what follows it. -/
def unsign (cs : List Char) : Bool × Bool × List Char :=
  match cs with
  | '-' :: rest => (true, true, rest)
  | '+' :: rest => (true, false, rest)
  | rest => (false, false, rest)

/-- An exponent that is small enough to compute with; a larger one becomes the bound. -/
def exponent? (cs : List Char) : Option Int := do
  let (_, negative, cs) := unsign cs
  let ds ← digits? 10 cs
  let size := min (ofDigits 10 ds) 1000000
  pure (if negative then -(size : Int) else size)

/-- Whether a decimal is in the range of binary64. -/
def inRange (ds : List Nat) (exponent : Int) : Bool :=
  let n := ofDigits 10 ds
  let count := (Nat.toDigits 10 n).length
  if n = 0 then true
  else if exponent + count < -400 then true
  else if 400 < exponent + count then false
  else if 0 ≤ exponent then (Binary64.ofQuotient false (n * Nat.pow 10 exponent.toNat) 1).isSome
  else (Binary64.ofQuotient false n (Nat.pow 10 (-exponent).toNat)).isSome

/-- A number with a fraction or an exponent. -/
def float? (word body : List Char) : Option Toml := do
  let (mantissa, power) := cutAt (fun c => c = 'e' || c = 'E') body
  let (whole, fraction) := cutAt (· = '.') mantissa
  if power.isNone ∧ fraction.isNone then none
  else
    let whole ← wholeDigits? whole
    let fraction ←
      match fraction with
      | none => some []
      | some cs => digits? 10 cs
    let exponent ←
      match power with
      | none => some 0
      | some cs => exponent? cs
    if inRange (whole ++ fraction) (exponent - fraction.length) then
      pure (.float (String.ofList word))
    else none

/-- A number. -/
def number? (word : List Char) : Option Toml :=
  let (signed, negative, body) := unsign word
  match body with
  | '0' :: 'x' :: rest => if signed then none else (digits? 16 rest).bind ofBase16
  | '0' :: 'o' :: rest => if signed then none else (digits? 8 rest).bind ofBase8
  | '0' :: 'b' :: rest => if signed then none else (digits? 2 rest).bind ofBase2
  | ['i', 'n', 'f'] => some (.float (String.ofList word))
  | ['n', 'a', 'n'] => some (.float (String.ofList word))
  | body =>
    match wholeDigits? body with
    | some ds =>
      signedWord? (if negative then -(ofDigits 10 ds : Int) else ofDigits 10 ds)
    | none => float? word body
where
  ofBase16 (ds : List Nat) := signedWord? (ofDigits 16 ds)
  ofBase8 (ds : List Nat) := signedWord? (ofDigits 8 ds)
  ofBase2 (ds : List Nat) := signedWord? (ofDigits 2 ds)

/-! ## Dates and times -/

/-- A number of exactly two digits. -/
def twoDigits? (a b : Char) : Option Nat := do
  let a ← digit? 10 a
  let b ← digit? 10 b
  pure (a * 10 + b)

/-- The number of days in a month. -/
def daysIn (year month : Nat) : Nat :=
  if month = 2 then
    if year % 4 = 0 ∧ (year % 100 ≠ 0 ∨ year % 400 = 0) then 29 else 28
  else if month = 4 ∨ month = 6 ∨ month = 9 ∨ month = 11 then 30
  else 31

/-- A date at the start of a text. -/
def date? : List Char → Option (Date × List Char)
  | a :: b :: c :: d :: '-' :: e :: f :: '-' :: g :: h :: rest => do
    let century ← twoDigits? a b
    let years ← twoDigits? c d
    let month ← twoDigits? e f
    let day ← twoDigits? g h
    let year := century * 100 + years
    if 1 ≤ month ∧ month ≤ 12 ∧ 1 ≤ day ∧ day ≤ daysIn year month then
      pure (⟨year, month, day⟩, rest)
    else none
  | _ => none

/-- The nanoseconds that the digits of a fraction write; digits past the ninth do not
count. -/
def nanoseconds (ds : List Nat) : Nat :=
  let ds := ds.take 9
  ofDigits 10 ds * Nat.pow 10 (9 - ds.length)

/-- The fraction of a second at the start of a text, if there is one. -/
def secondFraction? : List Char → Option (Option Nat × List Char)
  | '.' :: rest => do
    let ds ← digits? 10 (rest.takeWhile Char.isDigit)
    pure (some (nanoseconds ds), rest.dropWhile Char.isDigit)
  | rest => some (none, rest)

/-- A time of day at the start of a text. -/
def time? : List Char → Option (Time × List Char)
  | a :: b :: ':' :: c :: d :: rest => do
    let hour ← twoDigits? a b
    let minute ← twoDigits? c d
    if hour ≤ 23 ∧ minute ≤ 59 then
      match rest with
      | ':' :: e :: f :: rest => do
        let second ← twoDigits? e f
        let (fraction, rest) ← secondFraction? rest
        if second ≤ 60 then pure (⟨hour, minute, some second, fraction⟩, rest) else none
      | rest => pure (⟨hour, minute, none, none⟩, rest)
    else none
  | _ => none

/-- A distance from universal time that makes up a whole text; no text is none. -/
def offset? : List Char → Option (Option Offset)
  | [] => some none
  | ['Z'] => some (some .universal)
  | ['z'] => some (some .universal)
  | [sign, a, b, ':', c, d] =>
    if sign = '+' ∨ sign = '-' then do
      let hours ← twoDigits? a b
      let minutes ← twoDigits? c d
      if hours ≤ 23 ∧ minutes ≤ 59 then
        pure (some (.minutes (sign = '-') (hours * 60 + minutes)))
      else none
    else none
  | _ => none

/-- A date, a time or both. -/
def datetime? (word : List Char) : Option Datetime :=
  match date? word with
  | some (date, []) => some ⟨some date, none, none⟩
  | some (date, mark :: rest) =>
    if mark = 'T' ∨ mark = 't' ∨ mark = ' ' then do
      let (time, rest) ← time? rest
      let offset ← offset? rest
      pure ⟨some date, some time, offset⟩
    else none
  | none =>
    match time? word with
    | some (time, []) => some ⟨none, some time, none⟩
    | _ => none

/-- The value that a word writes. -/
def word? (word : List Char) : Option Toml :=
  if word = ['t', 'r', 'u', 'e'] then some (.bool true)
  else if word = ['f', 'a', 'l', 's', 'e'] then some (.bool false)
  else
    match datetime? word with
    | some d => some (.datetime d)
    | none => number? word

end Toml
end Notebook
