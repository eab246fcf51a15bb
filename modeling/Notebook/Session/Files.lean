import Notebook.Disk
import Notebook.Session

/-!
# The files of a session

A runner works on files, so every code cell is kept in the source directory and the
package manifest beside it.  Titles and prose have no file.  The changes are listed as
`FileDeed`s, in the order in which they are tried; a deed that fails leaves what the
earlier ones have done.
-/

set_option autoImplicit false

namespace Notebook

/-- A change to the disk. -/
inductive FileDeed where
  | makeDirectory (path : String)
  | write (path text : String)
  | remove (path : String)
  deriving DecidableEq, Repr, Inhabited

namespace FileDeed

/-- The path that a deed is about. -/
def path : FileDeed → String
  | .makeDirectory path => path
  | .write path _ => path
  | .remove path => path

/-- The disk after a deed.  A file that is gone already is as good as removed. -/
def run (d : Disk) : FileDeed → Except Disk.Problem Disk
  | .makeDirectory path => d.makeDirectories [] path
  | .write path text => d.write [] path text.toUTF8
  | .remove path =>
    match d.removeFile [] path with
    | .error .notFound => .ok d
    | result => result

/-- Tries deeds in order up to the first that fails. -/
def runAll (d : Disk) : List FileDeed → Option Disk.Problem × Disk
  | [] => (none, d)
  | deed :: rest =>
    match deed.run d with
    | .ok d => runAll d rest
    | .error problem => (some problem, d)

end FileDeed

namespace Session

/-- What keeps a cell on disk. -/
def writing (s : Session) : Cell → List FileDeed
  | .code c => [.makeDirectory s.sourceDir, .write (s.pathFor c.filename) c.source]
  | .manifest c => [.write s.manifestPath c.source]
  | .title _ => []
  | .markdown _ => []

/-- What takes a code cell's file off the disk. -/
def removing (s : Session) (filename : String) : List FileDeed :=
  [.remove (s.pathFor filename)]

/-- What makes a directory ready for a session. -/
def preparing (s : Session) : List FileDeed :=
  .makeDirectory s.sourceDir :: s.cells.flatMap s.writing

/-- The manifest on disk, if it can be read. -/
def manifestOn (s : Session) (d : Disk) : Option String :=
  (d.readText [] s.manifestPath).toOption

/-- The first manifest cell. -/
def manifest? (s : Session) : Option ManifestCell :=
  s.cells.findSome? fun
    | .manifest c => some c
    | _ => none

/-- The sources of the code cells by filename, in the order of the filenames.  Of two
cells with one filename the later counts. -/
def sources (s : Session) : List (String × String) :=
  let table := s.codeCells.foldl (fun (t : Table String String) c =>
    t.set c.filename c.source) .empty
  table.entries.mergeSort fun x y => !decide (y.1 < x.1)

end Session
end Notebook
