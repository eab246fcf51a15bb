import Notebook.Language
import Notebook.Text.Blank

/-!
# Filenames of code cells

A code cell is stored in a file of its own next to the others, so its name has to be
one path component with the extension of the session's language.  Blanks around a
name do not count.
-/

namespace Notebook
namespace Filename

/-- Why a filename is refused. -/
inductive Problem where
  /-- Nothing but blanks. -/
  | empty
  /-- More than one path component, or a component that names a directory. -/
  | pathSeparator (filename : String)
  /-- Not the extension of the language. -/
  | wrongExtension (filename : String) (expected : String)
  deriving DecidableEq, Repr

/-- The wording of a problem. -/
def Problem.message : Problem → String
  | .empty => "filename must not be empty"
  | .pathSeparator filename => s!"filename '{filename}' must not contain path separators"
  | .wrongExtension filename expected => s!"filename '{filename}' must end in .{expected}"

/-- Whether a name is not a single ordinary path component. -/
def leavesDirectory (name : List Char) : Bool :=
  name.contains '/' || name.contains '\\' || name == ['.'] || name == ['.', '.']

/-- Checks a filename against the rules of a language. -/
def check (filename : String) (language : Language) : Except Problem Unit :=
  let name := Text.trim filename
  if name.isEmpty then .error .empty
  else if leavesDirectory name.toList then .error (.pathSeparator filename)
  else if Language.ofFilename? name ≠ some language then
    .error (.wrongExtension filename language.fileExtension)
  else .ok ()

end Filename
end Notebook
