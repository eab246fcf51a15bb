import Notebook.Disk
import Notebook.Identifier
import Notebook.Notice
import Notebook.Process.Stream
import Notebook.Secret
import Notebook.Table

/-!
# Supervised processes

Every cell may have one process.  A record keeps its key from being used again until the
exit of the process has been observed; stopping a process does not remove the record.

For each process two pumps read its output into one bounded queue, and a monitor waits
for its exit, lets the pumps finish or gives up on them, removes the record and reports
the exit, in this order.  Each of these is a step of its own, so the steps of many
processes may come in any order.

A pump gets on only while a worker is at it, and the workers of both pumps and of the
monitor work side by side.  To give up a pump is to see that no worker takes it up again.
A worker that is at it by then is not waited for: it goes on, perhaps behind the report of
the exit, until it leaves the pump.
-/

set_option autoImplicit false

namespace Notebook

/-- How a process has ended; a process that a signal has ended has no code. -/
structure ExitInfo where
  code : Option Int32
  deriving DecidableEq, Repr, Inhabited

/-- Whether a process has done what it should. -/
def ExitInfo.success (e : ExitInfo) : Bool :=
  e.code = some 0

/-- What is passed on about a process. -/
inductive ProcessEvent where
  | output (stream : OutputStream) (text : String)
  | exited (info : ExitInfo)
  deriving DecidableEq, Repr, Inhabited

/-- What is to be run. -/
structure RunRequest where
  key : ProcessKey
  program : String
  args : List String
  cwd : String
  /-- Variables that are set besides the inherited ones. -/
  env : List (String × String)
  deriving DecidableEq, Repr, Inhabited

/-- Why a process is not started. -/
inductive SpawnFailure where
  | notFound (program : String)
  | io (program reason : String)
  | noPid (program : String)
  | exitedImmediately (program : String)
  | missingPipes (program : String)
  deriving DecidableEq, Repr, Inhabited

/-- The wording of a failure. -/
def SpawnFailure.message : SpawnFailure → String
  | .notFound program => s!"executable '{program}' not found"
  | .io program reason => s!"failed to spawn '{program}': {reason}"
  | .noPid program => s!"'{program}' started without a pid"
  | .exitedImmediately program => s!"'{program}' exited before it could be tracked"
  | .missingPipes program => s!"'{program}' did not expose its output pipes"

/-- Why a run is refused. -/
inductive RunError where
  | alreadyRunning (key : ProcessKey)
  | spawn (failure : SpawnFailure)
  deriving DecidableEq, Repr, Inhabited

/-- The wording of a refusal. -/
def RunError.message : RunError → String
  | .alreadyRunning key => s!"{key.text} already has a running process"
  | .spawn failure => failure.message

/-- Says of a request on a disk what pid its process gets, or why there is none. -/
abbrev Spawner : Type := Disk → RunRequest → Except SpawnFailure Nat

/-- The variables of a child: those of the parent that are not secret, and the given
ones over them. -/
def childEnvironment (parent given : List (String × String)) : List (String × String) :=
  (parent.filter fun entry =>
      !Secret.isSecret entry.1 && !(given.any fun other => other.1 == entry.1)) ++ given

/-- The process that is registered for a key. -/
structure ProcessRecord where
  pid : Nat
  generation : Nat
  deriving DecidableEq, Repr, Inhabited

/-- What a pump is at. -/
structure Pump where
  tail : Option Utf8.Partial
  /-- Text that waits for room in the queue. -/
  held : Option String
  /-- The output has ended. -/
  ended : Bool
  /-- A worker is at it. -/
  attended : Bool
  deriving DecidableEq, Repr, Inhabited

/-- How far a monitor is. -/
inductive MonitorPhase where
  | waiting
  /-- The process has exited; the pumps may finish. -/
  | draining (info : ExitInfo)
  /-- The pumps are done, or were given up. -/
  | drained (info : ExitInfo)
  /-- The key is free. -/
  | removed (info : ExitInfo)
  | reported
  deriving DecidableEq, Repr, Inhabited

/-- A process from its start to the report of its exit. -/
structure Run where
  key : ProcessKey
  pid : Nat
  stdout : Pump
  stderr : Pump
  queue : List ProcessEvent
  phase : MonitorPhase
  /-- Somebody takes events from the queue. -/
  watched : Bool
  deriving DecidableEq, Repr, Inhabited

/-- All supervised processes. -/
structure Supervisor where
  /-- How many events may wait in a queue. -/
  capacity : Nat
  nextGeneration : Nat
  records : Table ProcessKey ProcessRecord
  /-- All runs by generation. -/
  runs : Table Nat Run
  deriving DecidableEq, Repr, Inhabited

namespace Pump

/-- A pump before the first byte. -/
def fresh : Pump :=
  ⟨none, none, false, false⟩

/-- Whether the pump reads next. -/
def isFree (p : Pump) : Bool :=
  p.held.isNone && !p.ended

/-- Whether nothing is left to do. -/
def isDone (p : Pump) : Bool :=
  p.ended && p.held.isNone

/-- Reads a piece of output. -/
def read (p : Pump) (piece : List UInt8) : Pump :=
  let (held, tail) := Stream.take p.tail piece
  { p with held, tail }

/-- Reads the end of the output. -/
def finish (p : Pump) : Pump :=
  { p with tail := none, held := Stream.close p.tail, ended := true }

end Pump

namespace Run

/-- The pump of a stream. -/
def pump (r : Run) : OutputStream → Pump
  | .stdout => r.stdout
  | .stderr => r.stderr

/-- The run with another pump for a stream. -/
def withPump (r : Run) (stream : OutputStream) (p : Pump) : Run :=
  match stream with
  | .stdout => { r with stdout := p }
  | .stderr => { r with stderr := p }

/-- Whether workers take the pumps up. -/
def isPumping (r : Run) : Bool :=
  match r.phase with
  | .waiting => true
  | .draining _ => true
  | _ => false

/-- Whether a worker is at a pump that reads next. -/
def canRead (r : Run) (stream : OutputStream) : Bool :=
  (r.pump stream).attended && (r.pump stream).isFree

end Run

namespace Supervisor

/-- A supervisor without processes; queues hold at least one event. -/
def new (capacity : Nat) : Supervisor :=
  ⟨max 1 capacity, 1, .empty, .empty⟩

/-! ## Calls -/

/-- Starts a process for a key that is free.  `spawn` is not asked for a key with a
record, and a failure leaves everything as it was. -/
def run {σ : Type} (s : Supervisor) (key : ProcessKey)
    (spawn : σ → Except SpawnFailure Nat × σ) (world : σ) :
    Except RunError (Nat × Nat) × Supervisor × σ :=
  if s.records.contains key then (.error (.alreadyRunning key), s, world)
  else
    match spawn world with
    | (.error failure, world) => (.error (.spawn failure), s, world)
    | (.ok pid, world) =>
      let generation := s.nextGeneration
      (.ok (generation, pid),
        { s with
          nextGeneration := generation + 1
          records := s.records.set key ⟨pid, generation⟩
          runs := s.runs.set generation
            ⟨key, pid, .fresh, .fresh, [], .waiting, true⟩ },
        world)

/-- The process that a stop of a key signals. -/
def stop (s : Supervisor) (key : ProcessKey) : Option Nat :=
  (s.records.find? key).map (·.pid)

/-- The processes that a stop of a session signals. -/
def stopSession (s : Supervisor) (session : SessionId) : List Nat :=
  (s.records.entries.filter fun entry => entry.1.session = session).map (·.2.pid)

/-- The processes that are killed at the end. -/
def killAll (s : Supervisor) : List Nat :=
  s.records.entries.map (·.2.pid)

/-- Whether a key has a record. -/
def isRunning (s : Supervisor) (key : ProcessKey) : Bool :=
  s.records.contains key

/-- The number of records. -/
def runningCount (s : Supervisor) : Nat :=
  s.records.size

/-! ## Steps of pumps and monitors -/

/-- A step on behalf of one run. -/
inductive Step where
  /-- A worker takes a pump up. -/
  | attend (stream : OutputStream)
  /-- The worker leaves the pump. -/
  | unattend (stream : OutputStream)
  /-- A pump reads a piece of output. -/
  | read (stream : OutputStream) (piece : List UInt8)
  /-- A pump reads the end of the output. -/
  | finish (stream : OutputStream)
  /-- A pump puts its text into the queue. -/
  | deliver (stream : OutputStream)
  /-- The exit is observed. -/
  | exit (info : ExitInfo)
  /-- Both pumps are done. -/
  | drain
  /-- The pumps have taken too long; they are not taken up again. -/
  | giveUp
  /-- The record is removed. -/
  | remove
  /-- The exit is reported. -/
  | report
  /-- An event is taken from the queue. -/
  | take
  /-- Nobody takes events any more. -/
  | leave
  deriving DecidableEq, Repr

/-- Changes a run. -/
def changeRun (s : Supervisor) (generation : Nat) (f : Run → Run) : Supervisor :=
  match s.runs.find? generation with
  | some r => { s with runs := s.runs.set generation (f r) }
  | none => s

/-- Puts an event into the queue if there is room.  Nothing is queued for nobody. -/
def offer (capacity : Nat) (r : Run) (event : ProcessEvent) : Option Run :=
  if r.watched then
    if r.queue.length < capacity then some { r with queue := r.queue ++ [event] } else none
  else some r

/-- The key of a run is freed, if the record is still its own. -/
def removeRecord (s : Supervisor) (generation : Nat) (r : Run) : Supervisor :=
  match s.records.find? r.key with
  | some record =>
    if record.generation = generation then { s with records := s.records.erase r.key } else s
  | none => s

/-- Takes a step, if it is due. -/
def step (s : Supervisor) (generation : Nat) (what : Step) : Supervisor :=
  match s.runs.find? generation with
  | none => s
  | some r =>
    match what with
    | .attend stream =>
      if r.isPumping then
        s.changeRun generation fun r =>
          r.withPump stream { r.pump stream with attended := true }
      else s
    | .unattend stream =>
      s.changeRun generation fun r => r.withPump stream { r.pump stream with attended := false }
    | .read stream piece =>
      if r.canRead stream then
        s.changeRun generation fun r => r.withPump stream ((r.pump stream).read piece)
      else s
    | .finish stream =>
      if r.canRead stream then
        s.changeRun generation fun r => r.withPump stream (r.pump stream).finish
      else s
    | .deliver stream =>
      match (r.pump stream).held with
      | some text =>
        if (r.pump stream).attended then
          match offer s.capacity r (.output stream text) with
          | some r =>
            s.changeRun generation fun _ =>
              r.withPump stream { r.pump stream with held := none }
          | none => s
        else s
      | none => s
    | .exit info =>
      match r.phase with
      | .waiting => s.changeRun generation fun r => { r with phase := .draining info }
      | _ => s
    | .drain =>
      match r.phase with
      | .draining info =>
        if r.stdout.isDone && r.stderr.isDone then
          s.changeRun generation fun r => { r with phase := .drained info }
        else s
      | _ => s
    | .giveUp =>
      match r.phase with
      | .draining info => s.changeRun generation fun r => { r with phase := .drained info }
      | _ => s
    | .remove =>
      match r.phase with
      | .drained info =>
        (s.removeRecord generation r).changeRun generation fun r =>
          { r with phase := .removed info }
      | _ => s
    | .report =>
      match r.phase with
      | .removed info =>
        match offer s.capacity r (.exited info) with
        | some r => s.changeRun generation fun _ => { r with phase := .reported }
        | none => s
      | _ => s
    | .take => s.changeRun generation fun r => { r with queue := r.queue.drop 1 }
    | .leave => s.changeRun generation fun r => { r with queue := [], watched := false }

/-- The next event of a run. -/
def nextEvent? (s : Supervisor) (generation : Nat) : Option ProcessEvent :=
  (s.runs.find? generation).bind (·.queue.head?)

end Supervisor
end Notebook
