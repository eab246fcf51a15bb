import Notebook.Actor.Analysis

/-!
# Running cells and installing packages

A code cell is run by the runner of its language on the cell's file, and packages are
installed on behalf of the manifest cell.  A cell is running from the start of its
process until its exit has been observed; an exit that belongs to an earlier process of
the cell changes nothing.
-/

set_option autoImplicit false

namespace Notebook

/-- The command that runs the cells of a language. -/
def RunnerSettings.command (s : RunnerSettings) : Language → List String
  | .javascript => s.javascript
  | .typescript => s.typescript

namespace Room

/-- The request to run a command for a cell. -/
def runRequest (r : Room) (cell : CellId) (program : String) (args : List String) :
    RunRequest :=
  ⟨r.actor.key cell, program, args, r.actor.session.dir, r.facilities.environment⟩

/-- Runs a command for a cell.  A cell whose process still runs is left alone, and one
whose process cannot be started is idle. -/
def spawn (r : Room) (cell : CellId) (program : String) (args : List String)
    (purpose : Purpose) : Except RunError Unit × Room :=
  let request := r.runRequest cell program args
  let (result, supervisor, _) :=
    r.supervisor.run request.key (fun disk => (r.spawner disk request, disk)) r.disk
  let r := { r with supervisor }
  match result with
  | .ok (generation, pid) =>
    let r := { r with actor.runs := r.actor.runs.set cell pid }
    (.ok (), (r.tell (.spawned generation pid request purpose)).setStatus cell .running)
  | .error (.alreadyRunning key) => (.error (.alreadyRunning key), r)
  | .error (.spawn failure) =>
    (.error (.spawn failure),
      (r.setStatus cell .idle).broadcast (.failed (some cell) failure.message))

/-! ## Intents -/

/-- Installs packages; without packages, those that the manifest lists. -/
def install (r : Room) (packages : List String) : Handled :=
  match r.actor.session.manifest? with
  | none => r.refuse .noManifest
  | some manifest =>
    match r.facilities.runner.install with
    | [] => r.refuse .noInstaller
    | program :: args =>
      match r.onDisk (r.actor.session.writing (.manifest manifest)) with
      | (some problem, r) => r.refuse (.disk problem)
      | (none, r) =>
        match r.spawn manifest.id program (args ++ packages) (.install packages) with
        | (.ok (), r) => (r.broadcast (.install .installing packages none)).done
        | (.error (.spawn _), r) => (r.broadcast (.install .failed packages none)).done
        | (.error (.alreadyRunning _), r) => r.done

/-- Runs a code cell. -/
def executeCode (r : Room) (cell : CellId) (code : CodeCell) : Handled :=
  match r.facilities.runner.command code.language with
  | [] => r.refuse (.noRunner code.language)
  | program :: args =>
    match r.onDisk (r.actor.session.writing (.code code)) with
    | (some problem, r) => r.refuse (.disk problem)
    | (none, r) =>
      let path := r.actor.session.pathFor code.filename
      match r.spawn cell program (args ++ [path]) .cell with
      | (.ok (), r) => (r.tell (.telemetry (.executed code.language))).done
      | (.error _, r) => r.done

/-- Runs a cell. -/
def execute (r : Room) (cell : CellId) : Handled :=
  match r.actor.session.cell? cell with
  | none => r.refuse (.unknownCell cell)
  | some (.title _) => r.refuse (.notRunnable cell)
  | some (.markdown _) => r.refuse (.notRunnable cell)
  | some (.manifest _) => r.install []
  | some (.code code) => r.executeCode cell code

/-! ## Exits -/

/-- Takes over the manifest from the disk: the installer may have changed it.  The
manifest is the cell that its name finds. -/
def refreshManifest (r : Room) : Room :=
  match r.actor.session.manifestOn r.disk, r.actor.session.manifest? with
  | some source, some named =>
    match r.actor.session.cell? named.id with
    | some (.manifest c) =>
      if c.source = source then r
      else
        (r.withSession (r.actor.session.update c.id (·.withSource source))).broadcast
          (.updated (.manifest { c with source }))
    | some other => r.broadcast (.updated other)
    | none => r
  | _, _ => r

/-- What the service is asked after an installation: imports may have become
resolvable. -/
def reanalyze (filenames : List String) (delay : Nat) : Call Unit := do
  Bridge.start
  Bridge.reload
  Bridge.requestDiagnostics filenames delay

/-- Lets the service look at the packages that have been installed. -/
def refreshService (r : Room) : Room :=
  let ran := r.actor.bridge.any (·.isRunning)
  let delay := r.facilities.service.diagnosticsDelay.toNat
  match r.analyze (reanalyze r.actor.session.filenames delay) with
  | (.ok (), r) => if ran then r else r.announceService
  | (.error _, r) => r

/-- Reports the end of an installation. -/
def finishInstall (r : Room) (packages : List String) (info : ExitInfo) : Room :=
  let status := if info.success then InstallStatus.complete else .failed
  let r := (r.broadcast (.install status packages info.code)).tell
    (.telemetry (.installed packages.length info.success))
  if info.success then r.refreshManifest.refreshService else r

/-- Takes note of an exit, unless it is that of an earlier process. -/
def exited (r : Room) (cell : CellId) (pid : Nat) (purpose : Purpose) (info : ExitInfo) :
    Room :=
  if r.actor.runs.find? cell = some pid ∧ ¬r.supervisor.isRunning (r.actor.key cell) then
    let r := ({ r with actor.runs := r.actor.runs.erase cell }).setStatus cell .idle
    match purpose with
    | .cell => r
    | .install packages => r.finishInstall packages info
  else r

end Room
end Notebook
