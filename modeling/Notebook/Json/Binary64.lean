/-!
# Double-precision numbers, exactly

A finite binary64 number is a sign, a mantissa and a power of two.  All rounding is
done on quotients of natural numbers, to the nearest number and to the even mantissa
on a tie, so that every step can be computed and reasoned about without machine
floats.

The written form is the shortest decimal that reads back as the same number; of
several it is the nearest one.  `Binary64.text` lays the digits out: positional up to
sixteen digits before the point and five zeros after it, otherwise with an exponent,
and always with a point or an exponent so that it is told from an integer.
-/

namespace Notebook

/-- A finite binary64 number `± mantissa * 2 ^ exponent`. -/
structure Binary64 where
  negative : Bool
  mantissa : Nat
  exponent : Int
  deriving DecidableEq, Repr

namespace Binary64

/-- The least exponent: that of the subnormal numbers and of zero. -/
def minExponent : Int := -1074

/-- The greatest exponent of a finite number. -/
def maxExponent : Int := 971

/-- Zero with a sign. -/
def zero (negative : Bool) : Binary64 :=
  ⟨negative, 0, minExponent⟩

/-- Whether the number is zero, of either sign. -/
def isZero (x : Binary64) : Bool :=
  x.mantissa == 0

/-- The number without its sign. -/
def abs (x : Binary64) : Binary64 :=
  { x with negative := false }

/-- The number with the opposite sign. -/
def neg (x : Binary64) : Binary64 :=
  { x with negative := !x.negative }

/-- The quotient rounded to the nearest natural number, ties to even. -/
def roundDiv (num den : Nat) : Nat :=
  let q := num / den
  let r := num % den
  if 2 * r < den then q
  else if den < 2 * r then q + 1
  else if q % 2 = 0 then q else q + 1

/-- What a mantissa stays below: it has at most 53 bits. -/
def mantissaLimit : Nat := 9007199254740992

/-- `num / (den * 2 ^ e)` as a numerator and a denominator. -/
def scale (num den : Nat) (e : Int) : Nat × Nat :=
  if 0 ≤ e then (num, den * Nat.pow 2 e.toNat) else (num * Nat.pow 2 (-e).toNat, den)

/-- The exponent at which the quotient has a 53-bit mantissa, not below the least. -/
def exponentOf (num den : Nat) : Int :=
  let guess : Int := (Nat.log2 num : Int) - (Nat.log2 den : Int) - 53
  let (n, d) := scale num den guess
  max minExponent (if n / d < mantissaLimit then guess else guess + 1)

/-- The binary64 number nearest to `num / den`; nothing when it is out of range. -/
def ofQuotient (negative : Bool) (num den : Nat) : Option Binary64 :=
  if num = 0 then some (zero negative)
  else
    let e := exponentOf num den
    let (n, d) := scale num den e
    let m := roundDiv n d
    let (m, e) := if m = mantissaLimit then (mantissaLimit / 2, e + 1) else (m, e)
    if maxExponent < e then none
    else if m = 0 then some (zero negative)
    else some ⟨negative, m, e⟩

/-- The magnitude as a quotient. -/
def quotient (x : Binary64) : Nat × Nat :=
  if 0 ≤ x.exponent then (x.mantissa * Nat.pow 2 x.exponent.toNat, 1)
  else (x.mantissa, Nat.pow 2 (-x.exponent).toNat)

/-- Rounded product. -/
def mul (x y : Binary64) : Option Binary64 :=
  let (a, b) := x.quotient
  let (c, d) := y.quotient
  ofQuotient (x.negative != y.negative) (a * c) (b * d)

/-- Rounded quotient by a number that is not zero. -/
def div (x y : Binary64) : Option Binary64 :=
  let (a, b) := x.quotient
  let (c, d) := y.quotient
  ofQuotient (x.negative != y.negative) (a * d) (b * c)

/-- Whether the number has no fractional part. -/
def isWhole (x : Binary64) : Bool :=
  let (a, b) := x.quotient
  a % b == 0

/-! ## Shortest decimal -/

/-- Decimal digits `digits` scaled by a power of ten. -/
structure Decimal where
  digits : Nat
  exponent : Int
  deriving DecidableEq, Repr

/-- The ends of the interval of reals that round to `x`, over a common denominator:
lower end, the number itself, upper end, denominator. -/
def interval (x : Binary64) : Nat × Nat × Nat × Nat :=
  let (low, mid, high, e) :=
    if x.mantissa = mantissaLimit / 2 ∧ minExponent < x.exponent then
      (4 * x.mantissa - 1, 4 * x.mantissa, 4 * x.mantissa + 2, x.exponent - 2)
    else
      (2 * x.mantissa - 1, 2 * x.mantissa, 2 * x.mantissa + 1, x.exponent - 1)
  if 0 ≤ e then (low * Nat.pow 2 e.toNat, mid * Nat.pow 2 e.toNat, high * Nat.pow 2 e.toNat, 1)
  else (low, mid, high, Nat.pow 2 (-e).toNat)

/-- The power of ten `10 ^ k` as a quotient. -/
def powerOfTen (k : Int) : Nat × Nat :=
  if 0 ≤ k then (Nat.pow 10 k.toNat, 1) else (1, Nat.pow 10 (-k).toNat)

/-- The nearest point of the grid of multiples of `10 ^ k` that reads back as `x`. -/
def onGrid (x : Binary64) (k : Int) : Option Decimal :=
  let (low, mid, high, den) := x.interval
  let (pn, pd) := powerOfTen k
  let unit := pn * den
  let inside (n : Nat) : Bool :=
    if x.mantissa % 2 = 0 then low * pd ≤ n * unit && n * unit ≤ high * pd
    else low * pd < n * unit && n * unit < high * pd
  let below := mid * pd / unit
  let nearest := roundDiv (mid * pd) unit
  if inside nearest then some ⟨nearest, k⟩
  else if inside below then some ⟨below, k⟩
  else if inside (below + 1) then some ⟨below + 1, k⟩
  else none

/-- The number of decimal digits of a natural number. -/
def digitCount (n : Nat) : Nat :=
  (Nat.toDigits 10 n).length

/-- The exponent of the leading decimal digit of a positive number. -/
def leadingExponent (x : Binary64) : Int :=
  let (a, b) := x.quotient
  let guess : Int := (digitCount a : Int) - (digitCount b : Int)
  let (pn, pd) := powerOfTen guess
  if a * pd < pn * b then guess - 1 else guess

/-- Tries grids of ever more digits, `count` of them. -/
def shortestFrom (x : Binary64) (k : Int) : Nat → Decimal
  | 0 => ⟨x.mantissa, 0⟩
  | count + 1 =>
    match onGrid x k with
    | some d => d
    | none => shortestFrom x (k - 1) count

/-- Moves the zeros at the end of the digits into the exponent. -/
def Decimal.strip (d : Decimal) : Nat → Decimal
  | 0 => d
  | fuel + 1 =>
    if d.digits ≠ 0 ∧ d.digits % 10 = 0 then
      Decimal.strip ⟨d.digits / 10, d.exponent + 1⟩ fuel
    else d

/-- The shortest decimal that reads back as `x`, which is not zero. -/
def shortest (x : Binary64) : Decimal :=
  (shortestFrom x x.leadingExponent 18).strip 20

/-- A run of zeros. -/
def zeros (n : Nat) : List Char :=
  List.replicate n '0'

/-- The layout of a decimal, by the place of its point. -/
def Decimal.text (d : Decimal) : List Char :=
  let ds := Nat.toDigits 10 d.digits
  let point : Int := ds.length + d.exponent
  if 0 ≤ d.exponent ∧ point ≤ 16 then
    ds ++ zeros d.exponent.toNat ++ ['.', '0']
  else if 0 < point ∧ point ≤ 16 then
    ds.take point.toNat ++ ['.'] ++ ds.drop point.toNat
  else if -5 < point ∧ point ≤ 0 then
    ['0', '.'] ++ zeros (-point).toNat ++ ds
  else
    let exponent := (toString (point - 1)).toList
    match ds with
    | [d] => d :: 'e' :: exponent
    | first :: rest => first :: '.' :: rest ++ 'e' :: exponent
    | [] => []

/-- The written form of a number. -/
def text (x : Binary64) : List Char :=
  let magnitude := if x.isZero then ['0', '.', '0'] else x.shortest.text
  if x.negative then '-' :: magnitude else magnitude

end Binary64
end Notebook
