import Notebook.Actor.Basic

/-!
# Analysis of a session

The bridge to the analysis service is made when it is first needed and then has the
files of all code cells open.  A call that fails leaves the bridge stale: the next one
that needs it first makes the open files right again.

A navigation request is answered in any case, at once or by a later letter.
-/

set_option autoImplicit false

namespace Notebook
namespace Room

/-! ## The bridge -/

/-- Makes a new bridge, unless there is one. -/
def ensureBridge (r : Room) : Room :=
  match r.actor.bridge with
  | some _ => r
  | none =>
    { r with actor := { r.actor with bridge := some r.actor.former.renew, stale := true } }

/-- Opens exactly the files of the code cells, if the bridge is stale. -/
def freshen (r : Room) : Except BridgeError Unit × Room :=
  if r.actor.stale then
    match r.call (Bridge.adopt r.actor.session.sources) with
    | (.ok (), r) => (.ok (), { r with actor.stale := false })
    | (.error e, r) => (.error e, r)
  else (.ok (), r)

/-- Makes a call on the bridge, which is made and freshened before. -/
def analyze {α : Type} (r : Room) (c : Call α) : Except Refusal α × Room :=
  if r.actor.session.language.isTyped then
    match r.ensureBridge.freshen with
    | (.error e, r) => (.error (.service e), r)
    | (.ok (), r) =>
      match r.call c with
      | (.error e, r) => (.error (.service e), r)
      | (.ok a, r) => (.ok a, r)
  else (.error .untyped, r)

/-- Says that the service runs. -/
def announceService (r : Room) : Room :=
  (r.broadcast (.service .running)).tell (.telemetry .serviceStarted)

/-- Gives up the bridge. -/
def dismissBridge (r : Room) : Room :=
  let r := (r.call Bridge.shutdown).2
  match r.actor.bridge with
  | some b => { r with actor := { r.actor with bridge := none, former := b } }
  | none => r

/-! ## Intents -/

/-- Starts the service. -/
def startService (r : Room) : Handled :=
  match r.analyze Bridge.start with
  | (.error e, r) => r.refuse e
  | (.ok (), r) => r.announceService.done

/-- Stops the service. -/
def stopService (r : Room) : Handled :=
  let r := r.dismissBridge
  ({ r with actor.stale := false }.broadcast (.service .stopped)).done

/-- Asks for the findings of all code cells. -/
def requestDiagnostics (r : Room) : Handled :=
  let delay := r.facilities.service.diagnosticsDelay.toNat
  match r.analyze (Bridge.requestDiagnostics r.actor.session.filenames delay) with
  | (.error e, r) => r.refuse e
  | (.ok (), r) => r.done

/-! ## Navigation -/

/-- The place in a cell of the session that a location stands for. -/
def target? (s : Session) (location : Location) : Option Target :=
  (s.codeNamed? location.filename).map fun c =>
    ⟨c.id, location.filename, location.start, location.end⟩

/-- The notice that an answer makes. -/
def noticeOf (s : Session) (request : RequestId) : Answer → Notice
  | .quickinfo info => .quickinfo request info
  | .definition location => .definition request (location.bind (target? s))
  | .completions entries => .completions request (entries.getD [])

/-- Passes an answer on. -/
def answer (r : Room) (request : RequestId) (answer : Answer) : Room :=
  r.broadcast (noticeOf r.actor.session request answer)

/-- Remembers that an answer is waited for. -/
def await (r : Room) (inquiry : Inquiry) : Room :=
  { r with actor.inquiries := r.actor.inquiries ++ [inquiry] }

/-- Asks about a place in a code cell.  Without such a cell, or without the service,
there is nothing to wait for. -/
def navigate (r : Room) (navigation : Navigation) (query : Query) : Handled :=
  match (r.actor.session.cell? query.cell).bind Cell.code? with
  | none => (r.answer query.request (.nothing navigation)).done
  | some code =>
    match r.analyze (pure ()) with
    | (.error _, r) => (r.answer query.request (.nothing navigation)).done
    | (.ok (), r) =>
      let (ticket, r) := r.call (Bridge.navigate navigation code.filename query.offset.toNat)
      (r.await ⟨navigation, query.request, ticket.toOption⟩).done

/-! ## Reports -/

/-- Publishes findings in a file, if a code cell owns it. -/
def publish (r : Room) (filename : String) (notice : CellId → Notice) : Room :=
  match r.actor.session.codeNamed? filename with
  | some c => r.broadcast (notice c.id)
  | none => r

/-- Takes a report of the service. -/
def hear (r : Room) (report : Report) : Room :=
  match r.actor.bridge with
  | none => r
  | some b =>
    let (event, b) := b.handle report
    let r := { r with actor.bridge := some b }
    match event with
    | none => r
    | some (.diagnostics filename items) => r.publish filename (.diagnostics · items)
    | some (.suggestions filename items) => r.publish filename (.suggestions · items)
    | some (.stopped _) => r.broadcast (.service .stopped)

/-- Takes the first report that waits. -/
def hearNext (r : Room) : Room :=
  match r.actor.bridge with
  | none => r
  | some b =>
    match b.reports with
    | [] => r
    | report :: rest => { r with actor.bridge := some { b with reports := rest } }.hear report

end Room

namespace Actor

/-- The letter that ends an inquiry, once its fate is known. -/
def conclude (a : Actor) (inquiry : Inquiry) : Option Letter :=
  let nothing : Letter := .answered inquiry.request (.nothing inquiry.navigation)
  match inquiry.ticket with
  | none => some nothing
  | some ticket =>
    match a.ledger.outcome ticket with
    | .pending => none
    | .turnedAway => some nothing
    | .expired => some nothing
    | .answered frame =>
      some (.answered inquiry.request
        (.ofResponse inquiry.navigation a.ledger.sourceDir frame))

/-- Ends the inquiries whose fate is known. -/
def concludeAll (a : Actor) : List Letter × Actor :=
  (a.inquiries.filterMap a.conclude,
    { a with inquiries := a.inquiries.filter fun i => (a.conclude i).isNone })

end Actor
end Notebook
