import Notebook.Text.Uppercase

/-!
# Names of secret variables

Environment variables whose names match one of a few patterns never reach a child
process.  A pattern may start or end with a star, which stands for any text; a star
elsewhere is an ordinary character.  Pattern and name are compared in uppercase.
-/

namespace Notebook
namespace Secret

/-- A pattern without its outer stars. -/
inductive Pattern where
  | exactly (text : List Char)
  | startsWith (text : List Char)
  | endsWith (text : List Char)
  | contains (text : List Char)
  deriving DecidableEq, Repr

namespace Pattern

/-- Reads a pattern that is already in uppercase.  A lone star is one that stands at
the start. -/
def ofChars (cs : List Char) : Pattern :=
  match cs with
  | [] => .exactly []
  | ['*'] => .endsWith []
  | '*' :: rest =>
    if rest.getLast? = some '*' then .contains rest.dropLast else .endsWith rest
  | cs => if cs.getLast? = some '*' then .startsWith cs.dropLast else .exactly cs

/-- Whether a text occurs somewhere in another. -/
def occursIn (text : List Char) : List Char → Bool
  | [] => text.isEmpty
  | c :: rest => text.isPrefixOf (c :: rest) || occursIn text rest

/-- Whether a name that is already in uppercase matches. -/
def accepts (name : List Char) : Pattern → Bool
  | .exactly text => name == text
  | .startsWith text => text.isPrefixOf name
  | .endsWith text => text.isSuffixOf name
  | .contains text => occursIn text name

end Pattern

/-- Whether a name matches a pattern when both are written in uppercase. -/
def globMatches (pattern name : String) : Bool :=
  (Pattern.ofChars (Text.uppercase pattern.toList)).accepts (Text.uppercase name.toList)

/-- The patterns of names that are kept from child processes. -/
def patterns : List String :=
  ["*_KEY", "*_TOKEN", "*_SECRET*", "*_PASSWORD*", "*_CREDENTIAL*",
    "AWS_*", "ANTHROPIC_*", "OPENAI_*"]

/-- Whether a variable is kept from child processes. -/
def isSecret (name : String) : Bool :=
  patterns.any (globMatches · name)

end Secret
end Notebook
