/-!
# Paths

A path is a text whose components are separated by slashes.  Repeated slashes, a
slash at the end and components of one dot count for nothing; two dots are a component
of their own.  `Path.join` appends a relative path and is replaced by an absolute one.
-/

namespace Notebook
namespace Path

/-- A part of a path. -/
inductive Component where
  | root
  | current
  | parent
  | name (chars : List Char)
  deriving DecidableEq, Repr

/-- Splits a text at every slash. -/
def pieces : List Char → List (List Char)
  | [] => [[]]
  | c :: rest =>
    if c = '/' then [] :: pieces rest
    else
      match pieces rest with
      | [] => [[c]]
      | piece :: others => (c :: piece) :: others

/-- The component that a piece stands for, if any; a dot counts at the start only. -/
def component? (atStart : Bool) (piece : List Char) : Option Component :=
  if piece = [] then none
  else if piece = ['.'] then if atStart then some .current else none
  else if piece = ['.', '.'] then some .parent
  else some (.name piece)

/-- The components of a path. -/
def components (path : List Char) : List Component :=
  match path with
  | '/' :: rest => .root :: (pieces rest).filterMap (component? false)
  | path =>
    match pieces path with
    | [] => []
    | first :: others =>
      (component? true first).toList ++ others.filterMap (component? false)

/-- A name below a directory. -/
def joined (base name : List Char) : List Char :=
  match name with
  | '/' :: _ => name
  | _ =>
    match base.getLast? with
    | none => name
    | some last => if last = '/' then base ++ name else base ++ '/' :: name

/-- A name below a directory. -/
def join (base name : String) : String :=
  String.ofList (joined base.toList name.toList)

/-- What remains of a list of components below another. -/
def below? : List Component → List Component → Option (List Component)
  | [], rest => some rest
  | _ :: _, [] => none
  | a :: as, b :: bs => if a = b then below? as bs else none

/-- The one component that a path adds to that of a directory, as a name. -/
def filenameIn? (dir path : String) : Option String :=
  match below? (components dir.toList) (components path.toList) with
  | some [.name chars] => some (String.ofList chars)
  | some [.parent] => some ".."
  | _ => none

end Path
end Notebook
