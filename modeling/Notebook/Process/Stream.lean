import Notebook.Text.Utf8

/-!
# Output as text

The output of a process is read in pieces and passed on as text.  A piece may end inside
a character; the start of that character is held back until the rest arrives.  When a
piece shows bytes that encode nothing, everything read so far is passed on at once with
replacement characters, the held back start included.
-/

set_option autoImplicit false

namespace Notebook
namespace Stream

/-- The number of bytes that are read at once. -/
def pieceSize : Nat := 4096

/-- Text that is passed on; empty text is not. -/
def chunk? (text : List Char) : Option String :=
  if text.isEmpty then none else some (String.ofList text)

/-- Takes a piece: the text to pass on, and what is held back. -/
def take (tail : Option Utf8.Partial) (piece : List UInt8) :
    Option String × Option Utf8.Partial :=
  let s := Utf8.scan tail piece
  if s.flawed then (chunk? s.closed, none) else (chunk? s.text, s.tail)

/-- The text to pass on when the output ends. -/
def close (tail : Option Utf8.Partial) : Option String :=
  chunk? (Utf8.scan tail []).closed

/-- The texts that are passed on for pieces up to the end of the output. -/
def chunks (tail : Option Utf8.Partial) : List (List UInt8) → List String
  | [] => (close tail).toList
  | piece :: rest =>
    let (text, tail) := take tail piece
    text.toList ++ chunks tail rest

end Stream
end Notebook
