import Notebook.Filename
import Notebook.Hub
import Notebook.Process.Supervisor
import Notebook.Service.Bridge
import Notebook.Session.Files
import Notebook.Settings.Sections

/-!
# Session actors

An open session belongs to an actor, which works off the letters in its mailbox one by
one.  A letter carries an intent of a client, the exit of a process, the answer of the
analysis service, or a wish of those who opened the session.

The actor works in a `Room`: it sees and changes the disk and the supervisor, which it
shares with other actors, and everything else that it does to the world is recorded as an
`Effect`.  What others do to disk, supervisor and service happens between two letters.
-/

set_option autoImplicit false

namespace Notebook

/-- What a process is run for. -/
inductive Purpose where
  | cell
  | install (packages : List String)
  deriving DecidableEq, Repr, Inhabited

/-- Why an intent is refused. -/
inductive Refusal where
  | unknownCell (cell : CellId)
  | notRunnable (cell : CellId)
  | notCode (cell : CellId)
  | duplicateManifest
  | noManifest
  | noRunner (language : Language)
  | noInstaller
  | untyped
  | filename (problem : Filename.Problem)
  | session (problem : Session.Problem)
  | service (error : BridgeError)
  | disk (problem : Disk.Problem)
  deriving DecidableEq, Repr

/-- The wording of a refusal. -/
def Refusal.message : Refusal → String
  | .unknownCell cell => s!"cell {cell.text} not found"
  | .notRunnable cell => s!"cell {cell.text} cannot be executed"
  | .notCode cell => s!"cell {cell.text} is not a code cell"
  | .duplicateManifest => "session already has a package manifest"
  | .noManifest => "session has no package manifest"
  | .noRunner language => s!"no runner configured for {language.title} cells"
  | .noInstaller => "no dependency install command configured"
  | .untyped => "language service requires a statically-typed session"
  | .filename problem => problem.message
  | .session problem => problem.message
  | .service error => error.message
  | .disk problem => s!"failed to write cell file: {problem.message}"

/-- What is counted. -/
inductive Telemetry where
  | executed (language : Language)
  | installed (packages : Nat) (success : Bool)
  | serviceStarted
  deriving DecidableEq, Repr, Inhabited

/-- A letter to an actor. -/
inductive Letter where
  | intent (sender : ConnectionId) (intent : Intent)
  /-- A process that ran for a cell has exited. -/
  | exited (cell : CellId) (pid : Nat) (purpose : Purpose) (info : ExitInfo)
  /-- A navigation request has come to its end. -/
  | answered (request : RequestId) (answer : Answer)
  /-- A call wants to know the cells. -/
  | snapshot (call : Nat)
  /-- A call closes the session. -/
  | close (call : Nat)
  deriving DecidableEq, Repr, Inhabited

/-- What an actor does to the world. -/
inductive Effect where
  | notice (notice : Notice)
  | refusal (client : ConnectionId) (refusal : Refusal)
  /-- These deeds are tried in order. -/
  | files (deeds : List FileDeed)
  | spawned (generation pid : Nat) (request : RunRequest) (purpose : Purpose)
  /-- A process is asked to end. -/
  | signalled (pid : Nat)
  | telemetry (event : Telemetry)
  | snapshot (call : Nat) (cells : List Cell)
  | closed (call : Nat)
  deriving DecidableEq, Repr

/-- A navigation request whose answer is waited for.  One that could not be sent has no
ticket. -/
structure Inquiry where
  navigation : Navigation
  request : RequestId
  ticket : Option Ticket
  deriving DecidableEq, Repr, Inhabited

/-- The actor of a session. -/
structure Actor where
  session : Session
  bridge : Option Bridge
  /-- The bridge that was given up last. -/
  former : Bridge
  /-- A call of the bridge has failed, so its open files may not be those of the session. -/
  stale : Bool
  /-- The pid of the latest process of each cell. -/
  runs : Table CellId Nat
  inquiries : List Inquiry
  deriving Inhabited

/-- What all sessions share and nobody changes. -/
structure Facilities where
  runner : RunnerSettings
  service : ServiceSettings
  /-- Variables for every process. -/
  environment : List (String × String)
  deriving Inhabited

/-- An actor at work. -/
structure Room where
  facilities : Facilities
  spawner : Spawner
  disk : Disk
  supervisor : Supervisor
  actor : Actor
  /-- What the actor has done, in order. -/
  effects : List Effect

/-- A room after an intent, and the reason if the intent was refused. -/
abbrev Handled : Type := Option Refusal × Room

namespace Actor

/-- The actor of a session that has just been opened. -/
def new (facilities : Facilities) (session : Session) : Actor where
  session
  bridge := none
  former := .new facilities.service session.dir
  stale := false
  runs := .empty
  inquiries := []

/-- All that is known about service instances. -/
def ledger (a : Actor) : Bridge :=
  a.bridge.getD a.former

/-- The actor with something happened to its service instances. -/
def withLedger (a : Actor) (b : Bridge) : Actor :=
  match a.bridge with
  | some _ => { a with bridge := some b }
  | none => { a with former := b }

/-- The key of a cell's process. -/
def key (a : Actor) (cell : CellId) : ProcessKey :=
  ⟨a.session.id, cell⟩

end Actor

namespace Room

/-! ## Telling -/

/-- Records an effect. -/
def tell (r : Room) (effect : Effect) : Room :=
  { r with effects := r.effects ++ [effect] }

/-- Tells the subscribers of the session. -/
def broadcast (r : Room) (notice : Notice) : Room :=
  r.tell (.notice notice)

/-- Ends an intent with a refusal. -/
def refuse (r : Room) (refusal : Refusal) : Handled :=
  (some refusal, r)

/-- Ends an intent without a refusal. -/
def done (r : Room) : Handled :=
  (none, r)

/-! ## Cells -/

/-- The room with the session changed. -/
def withSession (r : Room) (session : Session) : Room :=
  { r with actor.session := session }

/-- Gives a cell that can run a status, and says so. -/
def setStatus (r : Room) (cell : CellId) (status : CellStatus) : Room :=
  if (r.actor.session.cell? cell).any (·.hasStatus) then
    (r.withSession (r.actor.session.update cell (·.withStatus status))).broadcast
      (.statusChanged cell status)
  else r

/-! ## Files -/

/-- Tries deeds on the disk. -/
def onDisk (r : Room) (deeds : List FileDeed) : Option Disk.Problem × Room :=
  let (problem, disk) := FileDeed.runAll r.disk deeds
  (problem, { r with disk }.tell (.files deeds))

/-- Tries deeds on the disk and does without them if they fail: the cells in memory
count, and the next writing catches up. -/
def persist (r : Room) (deeds : List FileDeed) : Room :=
  (r.onDisk deeds).2

/-! ## Processes -/

/-- Asks the process of a cell to end. -/
def stop (r : Room) (cell : CellId) : Room :=
  match r.supervisor.stop (r.actor.key cell) with
  | some pid => r.tell (.signalled pid)
  | none => r

/-! ## Service -/

/-- Makes a call on the bridge, if there is one. -/
def call {α : Type} (r : Room) (c : Call α) : Except BridgeError α × Room :=
  match r.actor.bridge with
  | none => (.error .unavailable, r)
  | some b =>
    let (result, b) := (c.run).run b
    (result, { r with actor.bridge := some b })

/-- Makes a call on the bridge, if there is one.  A failure is only remembered. -/
def inform (r : Room) (c : Call Unit) : Room :=
  match r.actor.bridge with
  | none => r
  | some _ =>
    match r.call c with
    | (.ok (), r) => r
    | (.error _, r) => { r with actor.stale := true }

end Room
end Notebook
