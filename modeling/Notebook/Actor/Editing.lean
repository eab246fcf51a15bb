import Notebook.Actor.Basic

/-!
# Editing a session

Cells are created, renamed, deleted and given new sources.  Each edit first changes the
session, or is refused and changes nothing; then the files on disk and the open files of
the analysis service follow, and the subscribers are told.
-/

set_option autoImplicit false

namespace Notebook
namespace Room

/-- A new cell as the session takes it in: idle, and if it has code, in the session's
language and with a filename that is in order.  There is one manifest at most. -/
def accept (s : Session) (cell : Cell) : Except Refusal Cell :=
  match cell.withStatus .idle with
  | .code c =>
    match Filename.check c.filename s.language with
    | .error problem => .error (.filename problem)
    | .ok () =>
      .ok (.code { c with filename := Text.trim c.filename, language := s.language })
  | .manifest c =>
    if s.cells.any Cell.isManifest then .error .duplicateManifest else .ok (.manifest c)
  | cell => .ok cell

/-- Creates a cell. -/
def create (r : Room) (index : Nat) (cell : Cell) : Handled :=
  match accept r.actor.session cell with
  | .error e => r.refuse e
  | .ok cell =>
    match r.actor.session.insert index cell with
    | .error problem => r.refuse (.session problem)
    | .ok session =>
      let r := (r.withSession session).persist (session.writing cell)
      let r := match cell with
        | .code c => r.inform (Bridge.openFile c.filename c.source)
        | _ => r
      (r.broadcast (.updated cell)).done

/-- Gives a code cell another filename, which is in order. -/
def renameTo (r : Room) (code : CodeCell) (filename : String) : Handled :=
  if code.filename = filename then (r.broadcast (.updated (.code code))).done
  else
    let renamed := { code with filename }
    match r.actor.session.replace (.code renamed) with
    | .error problem => r.refuse (.session problem)
    | .ok (_, session) =>
      let r := (r.withSession session).persist (session.writing (.code renamed))
      let r := r.persist (session.removing code.filename)
      let r := r.inform (Bridge.rename code.filename filename code.source)
      (r.broadcast (.updated (.code renamed))).done

/-- Renames a code cell. -/
def rename (r : Room) (cell : CellId) (filename : String) : Handled :=
  match Filename.check filename r.actor.session.language with
  | .error problem => r.refuse (.filename problem)
  | .ok () =>
    match r.actor.session.cell? cell with
    | none => r.refuse (.unknownCell cell)
    | some (.code code) => r.renameTo code (Text.trim filename)
    | some _ => r.refuse (.notCode cell)

/-- Deletes a cell; its process is asked to end. -/
def delete (r : Room) (cell : CellId) : Handled :=
  match r.actor.session.remove cell with
  | .error problem => r.refuse (.session problem)
  | .ok (removed, session) =>
    let r := (r.withSession session).stop cell
    let r := match removed with
      | .code c =>
        (r.inform (Bridge.closeFile c.filename)).persist (session.removing c.filename)
      | _ => r
    (r.broadcast (.deleted cell)).done

/-- Gives a cell a new source. -/
def edit (r : Room) (id : CellId) (source : String) : Handled :=
  match r.actor.session.cell? id with
  | none => r.refuse (.unknownCell id)
  | some cell =>
    let session := r.actor.session.update id (·.withSource source)
    let cell := cell.withSource source
    let r := (r.withSession session).persist (session.writing cell)
    let r := match cell with
      | .code c => r.inform (Bridge.resync c.filename c.source session.filenames)
      | _ => r
    (r.broadcast (.updated cell)).done

end Room
end Notebook
