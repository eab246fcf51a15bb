import Notebook.Json.Record

/-!
# Languages of a notebook

A notebook is written in one of two languages, and the extension of a filename tells
which one a file is in.  Only the typed language is served by an analysis service.
-/

namespace Notebook

/-- The language of a session and of its code cells. -/
inductive Language where
  | javascript
  | typescript
  deriving DecidableEq, Repr, Inhabited

namespace Language

/-- The name of a language on the wire. -/
def name : Language → String
  | .javascript => "javascript"
  | .typescript => "typescript"

/-- The name of a language in prose. -/
def title : Language → String
  | .javascript => "JavaScript"
  | .typescript => "TypeScript"

/-- The extension of new files. -/
def fileExtension : Language → String
  | .javascript => "js"
  | .typescript => "ts"

/-- Whether an analysis service understands the language. -/
def isTyped : Language → Bool
  | .javascript => false
  | .typescript => true

/-- The language of an extension. -/
def ofExtension? (ext : String) : Option Language :=
  if ext = "js" ∨ ext = "mjs" ∨ ext = "cjs" then some .javascript
  else if ext = "ts" ∨ ext = "mts" ∨ ext = "cts" then some .typescript
  else none

/-- What follows the last dot of a filename. -/
def extension? (filename : List Char) : Option (List Char) :=
  if filename.contains '.' then
    some (filename.reverse.takeWhile (· != '.')).reverse
  else none

/-- The language of a file. -/
def ofFilename? (filename : String) : Option Language :=
  (extension? filename.toList).bind fun ext => ofExtension? (String.ofList ext)

/-- The names by which a document writes a language. -/
def table : List (String × Language) :=
  [("javascript", .javascript), ("typescript", .typescript)]

/-- The value of a language on the wire. -/
def toJson (l : Language) : Json :=
  .string l.name

end Language
end Notebook
