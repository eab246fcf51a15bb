/-!
# The shell language

Words are made of parts that are expanded when a command runs, and commands are simple
ones or compositions of others.
-/

set_option autoImplicit false

namespace Notebook
namespace Shell

/-- What becomes of a parameter with a word beside it. -/
inductive Modifier where
  | default
  | assign
  | error
  | alternative
  | shortestSuffix
  | longestSuffix
  | shortestStart
  | longestStart
  deriving DecidableEq, Repr

/-- A part of a word. -/
inductive Part where
  | text (quoted : Bool) (chars : List Char)
  | parameter (quoted : Bool) (name : String)
  | length (quoted : Bool) (name : String)
  /-- A parameter with a modifier; `orEmpty` says whether empty counts as unset. -/
  | modified (quoted : Bool) (name : String) (modifier : Modifier) (orEmpty : Bool)
      (word : List Char)
  | command (quoted : Bool) (source : List Char)
  | arithmetic (quoted : Bool) (source : List Char)
  deriving Repr, Inhabited

/-- A word. -/
abbrev Word := List Part

/-- A redirection of a file descriptor. -/
inductive Redirection where
  | input (fd : Nat) (target : Word)
  | output (fd : Nat) (target : Word)
  | append (fd : Nat) (target : Word)
  | duplicate (fd : Nat) (source : Word)
  | here (fd : Nat) (content : Word)
  deriving Repr, Inhabited

/-- A command. -/
inductive Command where
  | simple (line : Nat) (assignments : List (String × Word)) (words : List Word)
      (redirections : List Redirection)
  | group (body : Command)
  | subshell (body : Command)
  | redirected (body : Command) (redirections : List Redirection)
  | repeatWhile (expected : Bool) (condition body : Command)
  | repeatFor (name : String) (words : Option (List Word)) (body : Command)
  | choose (condition yes no : Command)
  | select (word : Word) (arms : List (List Word × Command))
  | function (name : String) (body : Command)
  | sequence (first second : Command)
  | both (first second : Command)
  | either (first second : Command)
  | negated (body : Command)
  | pipeline (stages : List Command)
  | background (body : Command)
  | nothing
  deriving Repr, Inhabited

end Shell
end Notebook
