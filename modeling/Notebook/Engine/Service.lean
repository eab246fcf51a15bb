import Notebook.Engine.Basic

/-!
# Service instances of the engine

An instance is played on a stage, or it is a process with pipes to its input and from its
output.  A process that is let go finds the end of its input and has some time to exit;
then it is ended.
-/

set_option autoImplicit false

namespace Notebook
namespace Engine

open Unix (Machine Handle)

/-! ## Processes -/

/-- Why no process can be launched, if that is so. -/
def hindrance (e : Engine) (dir : String) : Option LaunchProblem :=
  let command := e.coordinator.facilities.service.command
  let disk := e.host.machine.disk
  match e.launcher with
  | .played => none
  | .command =>
    match Host.resolve disk command "/" [], Host.workingPlace disk command dir with
    | .error (.notFound _), _ => some (.notFound command)
    | .error failure, _ => some (.failed s!"spawning {command}: {failure.message}")
    | .ok _, .error failure => some (.failed s!"spawning {command}: {failure.message}")
    | .ok _, .ok _ => none

/-- Starts the process of an instance. -/
def launchProcess (e : Engine) (i : InstanceId) (dir : String) : Engine :=
  let settings := e.coordinator.facilities.service
  let (input, m) := e.host.machine.makePipe []
  let (output, m) := m.makePipe []
  let m := { m with outside := .sink input :: .source output :: m.outside }
  let (pid, m) := Host.start m settings.command dir settings.args
    (childEnvironment e.parent []) [(0, .source input), (1, .sink output), (2, .null)]
  { e with
    host := { e.host with machine := m }
    services := match pid with
      | .ok pid => e.services.set i ⟨pid, input, output, []⟩
      | .error _ => e.services }

/-- Writes to the input of a process as much as there is room for. -/
def feed (e : Engine) (i : InstanceId) (p : ServiceProcess) : Engine :=
  if p.queue.isEmpty then e
  else
    match e.host.machine.writeOutside p.input p.queue with
    | (some queue, machine) =>
      { e with host := { e.host with machine }, services := e.services.set i { p with queue } }
    | (none, machine) =>
      let e := { e with
        host := { e.host with machine }
        services := e.services.set i { p with queue := [] } }
      match e.ledger? i.resident with
      | some b => e.withLedger i.resident (b.apply (.breaks i.generation))
      | none => e

/-- How long a process may take to exit, in microseconds. -/
def exitGrace : Nat := 2000000

/-- Closes the input of a process and ends it if it does not exit in time.  Meanwhile all
processes work, and forwarders pass on what they do. -/
def dismiss (e : Engine) (i : InstanceId) (p : ServiceProcess) : Engine :=
  let host := { e.host with machine := e.host.machine.letGo (.sink p.input) }
  let ((), host) := host.workUntil Host.patience (host.machine.now + exitGrace)
    (fun _ h => (h.machine.ended.find? p.pid).isSome) (fun _ h => ((), h)) ()
  let machine := ((host.machine.signal false p.pid (some .kill)).2).letGo (.source p.output)
  { e with host := { host with machine }, services := e.services.erase i }.forward.2

/-- Carries out what a bridge has done to an instance. -/
def carryOut (e : Engine) (resident : Nat) (dir : String) (deed : Deed) : Engine :=
  let s := e.stage resident
  match deed with
  | .launched generation =>
    (e.withStage resident { s with players := s.players.set generation .fresh }).launchProcess
      ⟨resident, generation⟩ dir
  | .queued generation request =>
    let i : InstanceId := ⟨resident, generation⟩
    match e.services.find? i with
    | some p =>
      e.feed i { p with queue := p.queue ++ (Framing.line request.toJson).toUTF8.toList }
    | none => e
  | .released generation =>
    let i : InstanceId := ⟨resident, generation⟩
    let e := e.withStage resident
      (s.change generation fun p => { p with heard := false, backlog := [] })
    match e.services.find? i with
    | some p => e.dismiss i p
    | none => e

/-- Reads what a process has written; the answer says whether there was anything. -/
def listenTo (e : Engine) (i : InstanceId) (p : ServiceProcess) : Bool × Engine :=
  match e.host.machine.readOutside p.output Stream.pieceSize with
  | (none, machine) => (false, { e with host := { e.host with machine } })
  | (some [], machine) =>
    let s := e.stage i.resident
    let speaking := (s.players.find? i.generation).any (·.speaking)
    let e := { e with host := { e.host with machine } }
    (speaking, e.withStage i.resident (s.endOutput i.generation).2)
  | (some data, machine) =>
    let e := { e with host := { e.host with machine } }
    (true, e.withStage i.resident ((e.stage i.resident).say i.generation ⟨data.toArray⟩).2)

/-- Reads from and writes to all processes of instances. -/
def serveProcesses (e : Engine) : Bool × Engine :=
  e.services.entries.foldl (fun (moved, e) (i, p) =>
    let e := e.feed i p
    let (more, e) := e.listenTo i p
    (moved || more, e)) (false, e)

/-! ## Both kinds -/

/-- Notes what an instance has noticed. -/
def noteSight (e : Engine) (resident : Nat) (sight : Sight) : Engine :=
  match sight with
  | .launched generation =>
    { e with
      instances := e.instances ++ [⟨resident, generation⟩]
      sights := e.sights ++ [(⟨resident, generation⟩, sight)] }
  | .request generation _ => { e with sights := e.sights ++ [(⟨resident, generation⟩, sight)] }
  | .inputClosed generation =>
    { e with sights := e.sights ++ [(⟨resident, generation⟩, sight)] }

/-- Lets the instances of a resident learn what its bridge has done. -/
def inform (e : Engine) (resident : Nat) (b : Bridge) : Engine :=
  let s := e.stage resident
  match e.launcher with
  | .played =>
    let (s, b, sights) := s.catchUp b
    sights.foldl (noteSight · resident) ((e.withStage resident s).withLedger resident b)
  | .command =>
    let deeds := (b.trace.take (b.trace.length - s.arrived)).reverse
    deeds.foldl (carryOut · resident b.projectDir)
      (e.withStage resident { s with arrived := b.trace.length })

/-- Lets the processes of a resident's instances learn what its bridge has done.  Played
instances learn it later. -/
def attend (e : Engine) (resident : Nat) : Engine :=
  match e.launcher, e.ledger? resident with
  | .command, some b => e.inform resident b
  | _, _ => e

/-- Lets the bridge of a resident read what its instances have said. -/
def listen (e : Engine) (resident : Nat) : Engine :=
  match e.ledger? resident with
  | none => e
  | some b =>
    let s := e.stage resident
    let (s, b) := s.listenAll b s.players.entries
    (e.withStage resident s).withLedger resident b

/-- Lets bridge and instances of a resident hear of each other. -/
def exchange (e : Engine) (resident : Nat) : Engine :=
  match e.ledger? resident with
  | none => e
  | some b => (e.inform resident b).listen resident

end Engine
end Notebook
