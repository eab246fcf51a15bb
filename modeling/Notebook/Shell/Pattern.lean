import Notebook.Disk

/-!
# Patterns of the shell language

A pattern is a list of items, each of which takes a run of characters, one character or
one of a class.  Quoted characters stand for themselves.
-/

set_option autoImplicit false

namespace Notebook
namespace Shell

/-- An item of a pattern. -/
inductive PatternItem where
  | literal (c : Char)
  | anyOne
  | anyRun
  | oneOf (negated : Bool) (ranges : List (Char × Char))
  deriving DecidableEq, Repr, Inhabited

/-- A character with the mark of its quotes. -/
abbrev Marked := Bool × Char

namespace Pattern

/-- The ranges of a class up to its closing bracket. -/
def ranges? (atStart : Bool) (acc : List (Char × Char)) :
    List Marked → Option (List (Char × Char) × List Marked)
  | [] => none
  | (quoted, c) :: rest =>
    if c = ']' && !quoted && !atStart then some (acc.reverse, rest)
    else
      match rest with
      | (false, '-') :: (q, high) :: others =>
        if high = ']' && !q then
          ranges? false ((c, c) :: acc) ((false, '-') :: (q, high) :: others)
        else ranges? false ((c, high) :: acc) others
      | rest => ranges? false ((c, c) :: acc) rest
  termination_by cs => cs.length

/-- A class after its opening bracket. -/
def class? (cs : List Marked) : Option (PatternItem × List Marked) :=
  match cs with
  | (false, '!') :: rest => (ranges? true [] rest).map fun (rs, rest) => (.oneOf true rs, rest)
  | cs => (ranges? true [] cs).map fun (rs, rest) => (.oneOf false rs, rest)

/-- The items of a text. -/
def read (fuel : Nat) (cs : List Marked) : List PatternItem :=
  match fuel with
  | 0 => []
  | fuel + 1 =>
    match cs with
    | [] => []
    | (false, '*') :: rest => .anyRun :: read fuel rest
    | (false, '?') :: rest => .anyOne :: read fuel rest
    | (false, '[') :: rest =>
      match class? rest with
      | some (item, rest) => item :: read fuel rest
      | none => .literal '[' :: read fuel rest
    | (_, c) :: rest => .literal c :: read fuel rest

/-- The pattern of a text. -/
def ofMarked (cs : List Marked) : List PatternItem :=
  read (cs.length + 1) cs

/-- Whether a text matches. -/
def accepts : List PatternItem → List Char → Bool
  | [], cs => cs.isEmpty
  | .anyRun :: rest, [] => accepts rest []
  | .anyRun :: rest, c :: cs => accepts rest (c :: cs) || accepts (.anyRun :: rest) cs
  | .literal _ :: _, [] => false
  | .literal d :: rest, c :: cs => c = d && accepts rest cs
  | .anyOne :: _, [] => false
  | .anyOne :: rest, _ :: cs => accepts rest cs
  | .oneOf .. :: _, [] => false
  | .oneOf negated ranges :: rest, c :: cs =>
    ((ranges.any fun (low, high) => low ≤ c && c ≤ high) != negated) && accepts rest cs
  termination_by items cs => items.length + cs.length

/-- Whether a text has special characters outside quotes. -/
def isSpecial (cs : List Marked) : Bool :=
  cs.any fun (quoted, c) => !quoted && (c = '*' || c = '?' || c = '[')

/-! ## Files -/

/-- Splits a text at slashes. -/
def splitPath : List Marked → List (List Marked)
  | [] => [[]]
  | (q, c) :: rest =>
    if c = '/' then [] :: splitPath rest
    else
      match splitPath rest with
      | [] => [[(q, c)]]
      | piece :: others => ((q, c) :: piece) :: others

/-- The names in a directory that match. -/
def matchesIn (d : Disk) (place : Disk.Place) (pattern : List Marked) : List (List Char) :=
  let items := ofMarked pattern
  let hidden := (pattern.head?.map (·.2)) = some '.'
  (d.namesIn place).filter fun name =>
    accepts items name && (hidden || name.head? ≠ some '.')

/-- The paths below a place that match, each with what leads to the place in front. -/
def pathsBelow (d : Disk) (place : Disk.Place) (lead : List Char) :
    List (List Marked) → List (List Char)
  | [] => []
  | piece :: rest =>
    let text := piece.map (·.2)
    let next (name : List Char) : List (List Char) :=
      let path := lead ++ name
      match rest with
      | [] => [path]
      | _ =>
        match Path.components name with
        | [] => pathsBelow d place (path ++ ['/']) rest
        | c :: _ =>
          match d.step place c with
          | .ok place =>
            if d.holdsDirectory place then pathsBelow d place (path ++ ['/']) rest
            else []
          | .error _ => []
    if isSpecial piece then (matchesIn d place piece).flatMap next
    else
      match rest with
      | [] =>
        if text.isEmpty || (d.isThere place (String.ofList text)) then [lead ++ text] else []
      | _ => next text

/-- The paths that match, in order; a pattern that nothing matches stands for itself. -/
def paths (d : Disk) (cwd : Disk.Place) (pattern : List Marked) : List (List Char) :=
  let found :=
    match splitPath pattern with
    | [] :: rest => pathsBelow d [] ['/'] rest
    | pieces => pathsBelow d cwd [] pieces
  if found.isEmpty then [pattern.map (·.2)]
  else found.mergeSort fun a b => !decide (String.ofList b < String.ofList a)

end Pattern
end Shell
end Notebook
