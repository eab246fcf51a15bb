import Notebook.Coordinator
import Notebook.Process.Host
import Notebook.Service.Stage

/-!
# The engine

The engine joins the coordinator with what it works on: the hub, the host of the
processes, and the service instances of every resident.  What an actor does to the world
is put into effect as soon as its letter has been handled.

For every process of a cell there is a forwarder, which broadcasts its output and tells
the actor of its exit.
-/

set_option autoImplicit false

namespace Notebook

open Unix (Machine Handle)

/-- Who passes on the output of a process. -/
structure Forwarder where
  resident : Nat
  session : SessionId
  cell : CellId
  pid : Nat
  purpose : Purpose
  deriving DecidableEq, Repr, Inhabited

/-- How service instances come into being. -/
inductive Launcher where
  /-- Somebody outside plays them. -/
  | played
  /-- They are processes. -/
  | command
  deriving DecidableEq, Repr, Inhabited

/-- A service instance of a resident. -/
structure InstanceId where
  resident : Nat
  generation : Nat
  deriving DecidableEq, Repr, Inhabited

/-- A service instance that is a process. -/
structure ServiceProcess where
  pid : Nat
  /-- The pipe to its input. -/
  input : Nat
  /-- The pipe from its output. -/
  output : Nat
  /-- Bytes that wait for room in the pipe to its input. -/
  queue : List UInt8
  deriving DecidableEq, Repr, Inhabited

/-- What the engine knows at a moment. -/
structure Engine where
  coordinator : Coordinator
  hub : Hub
  host : Host
  /-- The variables that children inherit. -/
  parent : List (String × String)
  launcher : Launcher
  /-- The results of coming launches. -/
  launches : List (Option LaunchProblem)
  /-- The forwarders by the generations of their runs. -/
  forwarders : Table Nat Forwarder
  stages : Table Nat Stage
  /-- All instances in the order of their launches. -/
  instances : List InstanceId
  services : Table InstanceId ServiceProcess
  /-- When answers are no longer waited for. -/
  deadlines : Table (Nat × Ticket) Nat
  /-- What the instances have noticed, in order. -/
  sights : List (InstanceId × Sight)
  telemetry : List (SessionId × Telemetry)
  /-- What the clients have received. -/
  received : Table ConnectionId (List String)

namespace Engine

/-- An engine without sessions. -/
def new (facilities : Facilities) (channel : ChannelSettings) (disk : Disk)
    (parent : List (String × String)) (launcher : Launcher) : Engine :=
  let host := Host.new disk facilities.runner.outputCapacity.toNat
  { coordinator := .new facilities host.spawner disk host.supervisor
    hub := .empty channel.outboundCapacity.toNat
    host
    parent
    launcher
    launches := []
    forwarders := .empty
    stages := .empty
    instances := []
    services := .empty
    deadlines := .empty
    sights := []
    telemetry := []
    received := .empty }

/-! ## Effects -/

/-- Puts an effect of an actor into effect. -/
def apply (e : Engine) (resident : Nat) (session : SessionId) : Effect → Engine
  | .notice notice => { e with hub := (e.hub.broadcast session notice).2 }
  | .refusal client refusal =>
    { e with hub := (e.hub.sendError client (some session.topic) refusal.message).2 }
  | .spawned generation pid request purpose =>
    { e with
      host := e.host.attach e.parent generation request
      forwarders := e.forwarders.set generation
        ⟨resident, session, request.key.cell, pid, purpose⟩ }
  | .signalled pid => { e with host := (e.host.signal pid .term).2 }
  | .telemetry event => { e with telemetry := e.telemetry ++ [(session, event)] }
  | .files _ => e
  | .snapshot .. => e
  | .closed _ => e

/-- Puts into effect what has been done. -/
def applyEntry (e : Engine) : LogEntry → Engine
  | .effect resident session effect => e.apply resident session effect
  | .killed pids => { e with host := (e.host.signalAll .kill pids).2 }

/-- Lets the coordinator do something, with disk and supervisor as they are.  What has
been done is not put into effect yet. -/
def consult {α : Type} (e : Engine) (f : Coordinator → α × Coordinator) :
    α × List LogEntry × Engine :=
  let (a, c) := f { e.coordinator with
    disk := e.host.machine.disk
    supervisor := e.host.supervisor
    spawner := e.host.spawner }
  (a, c.log, { e with
    coordinator := { c with log := [] }
    host := { e.host with
      machine := { e.host.machine with disk := c.disk }
      supervisor := c.supervisor } })

/-- Lets the coordinator do something, and puts into effect what has been done. -/
def coordinate {α : Type} (e : Engine) (f : Coordinator → α × Coordinator) : α × Engine :=
  let (a, log, e) := e.consult f
  (a, log.foldl applyEntry e)

/-- Lets the coordinator do something. -/
def direct (e : Engine) (f : Coordinator → Coordinator) : Engine :=
  (e.coordinate fun c => ((), f c)).2

/-! ## Residents -/

/-- What is known about the service instances of a resident. -/
def ledger? (e : Engine) (resident : Nat) : Option Bridge :=
  (e.coordinator.residents.find? resident).map (·.actor.ledger)

/-- Something has happened to the service instances of a resident. -/
def withLedger (e : Engine) (resident : Nat) (b : Bridge) : Engine :=
  { e with coordinator := e.coordinator.change resident fun r =>
      { r with actor := r.actor.withLedger b } }

/-- The stage of a resident. -/
def stage (e : Engine) (resident : Nat) : Stage :=
  (e.stages.find? resident).getD .empty

/-- Changes the stage of a resident. -/
def withStage (e : Engine) (resident : Nat) (s : Stage) : Engine :=
  { e with stages := e.stages.set resident s }

/-! ## Forwarders -/

/-- Passes on the events of one process; the answer says whether there were any. -/
def forwardRun (e : Engine) (generation : Nat) (f : Forwarder) : Bool × Engine :=
  match e.host.supervisor.runs.find? generation with
  | none => (false, e)
  | some run =>
    run.queue.foldl (fun (_, e) event =>
      let e := { e with host := e.host.step generation .take }
      match event with
      | .output stream text =>
        (true, { e with hub := (e.hub.broadcast f.session (.output f.cell stream text)).2 })
      | .exited info =>
        (true, { e with
          forwarders := e.forwarders.erase generation
          coordinator := e.coordinator.post f.resident (.exited f.cell f.pid f.purpose info) }))
      (false, e)

/-- Passes on the events of all processes. -/
def forward (e : Engine) : Bool × Engine :=
  e.forwarders.entries.foldl (fun (moved, e) (generation, f) =>
    let (more, e) := e.forwardRun generation f
    (moved || more, e)) (false, e)

end Engine
end Notebook
