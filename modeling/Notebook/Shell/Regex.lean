/-!
# Regular expressions of text tools

An expression is a list of items, each of which takes one character of a set once or any
number of times, with optional anchors at its ends.
-/

set_option autoImplicit false

namespace Notebook
namespace Shell

/-- A set of characters. -/
inductive CharSet where
  | one (c : Char)
  | any
  | ranges (negated : Bool) (items : List (Char × Char))
  deriving DecidableEq, Repr, Inhabited

/-- Whether a character is in a set. -/
def CharSet.has (s : CharSet) (c : Char) : Bool :=
  match s with
  | .one d => c = d
  | .any => true
  | .ranges negated items => (items.any fun (low, high) => low ≤ c && c ≤ high) != negated

/-- An item: a character of a set, once or as often as possible. -/
structure RegexItem where
  set : CharSet
  least : Nat
  many : Bool
  deriving DecidableEq, Repr, Inhabited

/-- An expression. -/
structure Regex where
  fromStart : Bool
  toEnd : Bool
  items : List RegexItem
  deriving DecidableEq, Repr, Inhabited

namespace Regex

/-- The ranges of a class up to its closing bracket. -/
def classRanges (fuel : Nat) (atStart : Bool) (acc : List (Char × Char)) (cs : List Char) :
    List (Char × Char) × List Char :=
  match fuel with
  | 0 => (acc.reverse, cs)
  | fuel + 1 =>
    match cs with
    | [] => (acc.reverse, [])
    | ']' :: rest =>
      if atStart then classRanges fuel false ((']', ']') :: acc) rest else (acc.reverse, rest)
    | c :: '-' :: ']' :: rest => ((('-', '-') :: (c, c) :: acc).reverse, rest)
    | c :: '-' :: d :: rest => classRanges fuel false ((c, d) :: acc) rest
    | c :: rest => classRanges fuel false ((c, c) :: acc) rest

/-- The items of an expression; `extended` is the newer notation. -/
def itemsOf (extended : Bool) (fuel : Nat) (acc : List RegexItem) (cs : List Char) :
    List RegexItem × Bool :=
  match fuel with
  | 0 => (acc.reverse, false)
  | fuel + 1 =>
    let repeated (least : Nat) (many : Bool) (rest : List Char) : List RegexItem × Bool :=
      match acc with
      | item :: others => itemsOf extended fuel ({ item with least, many } :: others) rest
      | [] => itemsOf extended fuel [⟨.one '*', 1, false⟩] rest
    let single (set : CharSet) (rest : List Char) : List RegexItem × Bool :=
      itemsOf extended fuel (⟨set, 1, false⟩ :: acc) rest
    match cs with
    | [] => (acc.reverse, false)
    | ['$'] => (acc.reverse, true)
    | '*' :: rest => repeated 0 true rest
    | '.' :: rest => single .any rest
    | '[' :: '^' :: rest =>
      let (items, rest) := classRanges (rest.length + 1) true [] rest
      single (.ranges true items) rest
    | '[' :: rest =>
      let (items, rest) := classRanges (rest.length + 1) true [] rest
      single (.ranges false items) rest
    | '\\' :: '+' :: rest => if extended then single (.one '+') rest else repeated 1 true rest
    | '\\' :: c :: rest => single (.one c) rest
    | '+' :: rest => if extended then repeated 1 true rest else single (.one '+') rest
    | '?' :: rest => if extended then repeated 0 false rest else single (.one '?') rest
    | c :: rest => single (.one c) rest

/-- The expression of a text. -/
def read (extended : Bool) (cs : List Char) : Regex :=
  let (fromStart, cs) :=
    match cs with
    | '^' :: rest => (true, rest)
    | cs => (false, cs)
  let (items, toEnd) := itemsOf extended (cs.length + 1) [] cs
  ⟨fromStart, toEnd, items⟩

/-- The lengths of starts that an item may take, the longest one first. -/
def lengths (item : RegexItem) (cs : List Char) : List Nat :=
  let most := (cs.takeWhile item.set.has).length
  let most := if item.many then most else min most 1
  ((List.range (most + 1)).filter (item.least ≤ ·)).reverse

/-- The length of the match at the start of a text. -/
def matchItems (toEnd : Bool) : List RegexItem → List Char → Option Nat
  | [], cs => if toEnd && !cs.isEmpty then none else some 0
  | item :: rest, cs =>
    (lengths item cs).findSome? fun n => (matchItems toEnd rest (cs.drop n)).map (n + ·)

/-- The first match in a text: what stands before it and how long it is. -/
def findFrom (r : Regex) (before : List Char) : List Char → Option (List Char × Nat)
  | [] => (matchItems r.toEnd r.items []).map fun n => (before.reverse, n)
  | c :: rest =>
    match matchItems r.toEnd r.items (c :: rest) with
    | some n => some (before.reverse, n)
    | none => if r.fromStart then none else findFrom r (c :: before) rest

/-- Whether an expression matches somewhere in a text. -/
def isIn (r : Regex) (cs : List Char) : Bool :=
  (findFrom r [] cs).isSome

/-- The replacement for a match. -/
def replacement (found : List Char) : List Char → List Char
  | [] => []
  | '\\' :: 'n' :: rest => '\n' :: replacement found rest
  | '\\' :: c :: rest => c :: replacement found rest
  | '&' :: rest => found ++ replacement found rest
  | c :: rest => c :: replacement found rest

/-- Replaces the first match, or all of them. -/
def replace (r : Regex) (fuel : Nat) (all : Bool) (new cs : List Char) : List Char × Bool :=
  match fuel with
  | 0 => (cs, false)
  | fuel + 1 =>
    match findFrom r [] cs with
    | none => (cs, false)
    | some (before, n) =>
      let rest := cs.drop (before.length + n)
      let start := before ++ replacement ((cs.drop before.length).take n) new
      if all && !r.fromStart then
        if n = 0 then
          match rest with
          | [] => (start, true)
          | c :: rest => (start ++ c :: (replace r fuel all new rest).1, true)
        else if rest.isEmpty then (start, true)
        else (start ++ (replace r fuel all new rest).1, true)
      else (start ++ rest, true)

end Regex
end Shell
end Notebook
