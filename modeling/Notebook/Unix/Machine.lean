import Notebook.Unix.Program

/-!
# The machine

A machine has a disk, a clock, pipes and processes.  A process runs until it asks for
something that cannot be had yet; then it waits, and the others run.  The clock moves
only when it is told to.

A pipe holds a bounded number of bytes.  Reading an empty pipe waits as long as somebody
holds its other end, and ends otherwise; writing to a pipe that nobody reads ends the
writer.  Those who work with a pipe from outside the machine are counted in `outside`.
-/

set_option autoImplicit false

namespace Notebook
namespace Unix

/-- Bytes on their way; those that came last stand in `back`, the last one first. -/
structure Pipe where
  front : List UInt8
  back : List UInt8
  size : Nat
  deriving DecidableEq, Repr, Inhabited

/-- A process. -/
structure Process where
  group : Nat
  program : Program
  handles : List Handle
  dispositions : List (Signal × Disposition)
  caught : List Signal
  /-- When its sleep ends. -/
  wake : Option Nat
  deriving Inhabited

/-- A machine. -/
structure Machine where
  disk : Disk
  /-- Microseconds since the start. -/
  now : Nat
  processes : Table Nat Process
  /-- How processes have ended. -/
  ended : Table Nat Status
  pipes : Table Nat Pipe
  /-- The ends of pipes that are held outside. -/
  outside : List Handle
  nextPid : Nat
  nextPipe : Nat
  deriving Inhabited

namespace Pipe

/-- The number of bytes that a pipe holds at most. -/
def capacity : Nat := 65536

/-- A pipe with some bytes. -/
def ofBytes (data : List UInt8) : Pipe :=
  ⟨data, [], data.length⟩

/-- Puts bytes in. -/
def push (p : Pipe) (data : List UInt8) : Pipe :=
  ⟨p.front, data.reverse ++ p.back, p.size + data.length⟩

/-- Takes at most some bytes out. -/
def pull (p : Pipe) (limit : Nat) : List UInt8 × Pipe :=
  let all := if p.back.isEmpty then p.front else p.front ++ p.back.reverse
  let taken := all.take limit
  (taken, ⟨all.drop limit, [], p.size - taken.length⟩)

end Pipe

namespace Machine

/-- A machine with a disk. -/
def new (disk : Disk) : Machine :=
  ⟨disk, 0, .empty, .empty, .empty, [], 1000, 1⟩

/-- Whether somebody holds an end of a pipe. -/
def isHeld (m : Machine) (h : Handle) : Bool :=
  m.outside.contains h || m.processes.entries.any fun (_, p) => p.handles.contains h

/-- Makes a pipe. -/
def makePipe (m : Machine) (data : List UInt8) : Nat × Machine :=
  (m.nextPipe,
    { m with nextPipe := m.nextPipe + 1, pipes := m.pipes.set m.nextPipe (.ofBytes data) })

/-- Lets go of the end of a pipe outside. -/
def letGo (m : Machine) (h : Handle) : Machine :=
  { m with outside := m.outside.filter (· ≠ h) }

/-- Starts a program; without a group it leads one of its own. -/
def start (m : Machine) (group : Option Nat) (program : Program) (handles : List Handle)
    (dispositions : List (Signal × Disposition)) : Nat × Machine :=
  let pid := m.nextPid
  (pid, { m with
    nextPid := pid + 1
    processes := m.processes.set pid
      ⟨group.getD pid, program, handles, dispositions, [], none⟩ })

/-- Ends a process. -/
def finish (m : Machine) (pid : Nat) (status : Status) : Machine :=
  { m with processes := m.processes.erase pid, ended := m.ended.set pid status }

/-! ## Signals -/

/-- What becomes of a signal for a process. -/
def dispositionOf (p : Process) (s : Signal) : Disposition :=
  if s = .kill then .standard else (p.dispositions.lookup s).getD .standard

/-- Delivers a signal to a process. -/
def deliver (s : Signal) (m : Machine) (pid : Nat) : Machine :=
  match m.processes.find? pid with
  | none => m
  | some p =>
    match dispositionOf p s with
    | .standard => m.finish pid (.killed s)
    | .ignored => m
    | .caught =>
      { m with processes := m.processes.set pid { p with caught := p.caught ++ [s] } }

/-- The processes that a number stands for. -/
def targets (m : Machine) (group : Bool) (pid : Nat) : List Nat :=
  (m.processes.entries.filter fun (n, p) => if group then p.group = pid else n = pid).map (·.1)

/-- Sends a signal; the answer says whether there was anybody. -/
def signal (m : Machine) (group : Bool) (pid : Nat) (s : Option Signal) : Bool × Machine :=
  let pids := m.targets group pid
  (!pids.isEmpty,
    match s with
    | some s => pids.foldl (deliver s) m
    | none => m)

/-! ## System calls -/

/-- How many microseconds pass at a point at which others may go on. -/
def pauseTime : Nat := 20

/-- What becomes of a request. -/
inductive Outcome where
  | reply (r : Reply)
  /-- It has to wait, perhaps for less than before. -/
  | wait (left : SystemCall)
  /-- A part of it is done, and the rest has to wait. -/
  | part (left : SystemCall)
  | killed (s : Signal)

/-- Adds to the end of a file that is still there. -/
def appendTo (d : Disk) (place : Disk.Place) (data : List UInt8) : Disk :=
  match d.node? place with
  | some (.file old executable) => d.put place (.file (old ++ ⟨data.toArray⟩) executable)
  | _ => d

/-- Writes bytes. -/
def write (m : Machine) (target : Handle) (data : List UInt8) : Outcome × Machine :=
  match target with
  | .null => (.reply .done, m)
  | .file place => (.reply .done, { m with disk := appendTo m.disk place data })
  | .source _ => (.reply (.problem .denied), m)
  | .sink n =>
    if m.isHeld (.source n) then
      match m.pipes.find? n with
      | none => (.killed .pipe, m)
      | some pipe =>
        let room := Pipe.capacity - pipe.size
        let now := data.take room
        let m := { m with pipes := m.pipes.set n (pipe.push now) }
        if now.length = data.length then (.reply .done, m)
        else if room = 0 then (.wait (.write target data), m)
        else (.part (.write target (data.drop room)), m)
    else (.killed .pipe, m)

/-- Reads bytes. -/
def read (m : Machine) (source : Handle) (limit : Nat) : Outcome × Machine :=
  match source with
  | .source n =>
    match m.pipes.find? n with
    | none => (.reply (.bytes []), m)
    | some pipe =>
      if pipe.size = 0 then
        if m.isHeld (.sink n) then (.wait (.read source limit), m)
        else (.reply (.bytes []), m)
      else
        let (data, pipe) := pipe.pull limit
        (.reply (.bytes data), { m with pipes := m.pipes.set n pipe })
  | _ => (.reply (.bytes []), m)

/-- Changes a process. -/
def change (m : Machine) (pid : Nat) (f : Process → Process) : Machine :=
  match m.processes.find? pid with
  | some p => { m with processes := m.processes.set pid (f p) }
  | none => m

/-- Answers a request of a process. -/
def answer (m : Machine) (pid : Nat) (p : Process) (r : SystemCall) : Outcome × Machine :=
  match r with
  | .disk f =>
    let (disk, reply) := f m.disk
    (.reply reply, { m with disk })
  | .write target data => m.write target data
  | .read source limit => m.read source limit
  | .pipe data =>
    let (n, m) := m.makePipe data
    (.reply (.number n), m)
  | .sleep time =>
    match p.wake with
    | none => (.wait r, m.change pid fun p => { p with wake := some (m.now + time) })
    | some wake =>
      if wake ≤ m.now || !p.caught.isEmpty then
        (.reply (.flag p.caught.isEmpty), m.change pid fun p => { p with wake := none })
      else (.wait r, m)
  | .wait other =>
    match m.ended.find? other with
    | some status => (.reply (.status status), m)
    | none => if m.processes.contains other then (.wait r, m) else (.reply .done, m)
  | .kill group other s =>
    let target := if group && other = 0 then p.group else other
    let (found, m) := m.signal group target s
    (.reply (.flag found), m)
  | .dispose s what =>
    (.reply .done, m.change pid fun p => { p with dispositions := (s, what) :: p.dispositions })
  | .caught => (.reply (.signals p.caught), m.change pid fun p => { p with caught := [] })
  | .hold handles => (.reply .done, m.change pid fun p => { p with handles })
  | .pid => (.reply (.number pid), m)
  | .pause => (.reply .done, { m with now := m.now + pauseTime })

/-! ## Running -/

/-- The dispositions that a program starts with: what was ignored stays ignored. -/
def inherited (p : Process) : List (Signal × Disposition) :=
  p.dispositions.filter fun (s, _) => dispositionOf p s = .ignored

/-- Whether others may go on at a request. -/
def isPause : SystemCall → Bool
  | .pause => true
  | _ => false

/-- Runs a process until it waits or ends, or until it has passed some points at which
others may go on; the answer says whether it has got anywhere. -/
def run (fuel pauses : Nat) (pid : Nat) (moved : Bool) (m : Machine) : Bool × Machine :=
  match fuel with
  | 0 => (moved, m)
  | fuel + 1 =>
    match m.processes.find? pid with
    | none => (moved, m)
    | some p =>
      match p.program with
      | .exit code => (true, m.finish pid (.exited code))
      | .fork child handles next =>
        let (n, m) := m.start (some p.group) child handles (inherited p)
        run fuel pauses pid true (m.change pid fun p => { p with program := next n })
      | .ask request next =>
        match m.answer pid p request with
        | (.reply r, m) =>
          let m := m.change pid fun p => { p with program := next r }
          if isPause request then
            if pauses = 0 then (true, m) else run fuel (pauses - 1) pid true m
          else run fuel pauses pid true m
        | (.wait left, m) => (moved, m.change pid fun p => { p with program := .ask left next })
        | (.part left, m) => (true, m.change pid fun p => { p with program := .ask left next })
        | (.killed s, m) => (true, deliver s m pid)

/-- How many requests a process makes at once. -/
def slice : Nat := 10000000

/-- Lets every process run once. -/
def round (m : Machine) : Bool × Machine :=
  m.processes.keys.foldl (fun (moved, m) pid =>
    let (more, m) := m.run slice 100 pid false
    (moved || more, m)) (false, m)

/-- When the next sleep ends. -/
def nextWake (m : Machine) : Option Nat :=
  (m.processes.entries.filterMap fun (_, p) => p.wake).min?

/-- Moves the clock. -/
def setClock (m : Machine) (now : Nat) : Machine :=
  { m with now := max m.now now }

/-! ## From outside -/

/-- Reads from a pipe outside; nothing if there is nothing yet, no bytes at the end. -/
def readOutside (m : Machine) (pipe limit : Nat) : Option (List UInt8) × Machine :=
  match m.read (.source pipe) limit with
  | (.reply (.bytes data), m) => (some data, m)
  | (_, m) => (none, m)

/-- Writes to a pipe outside.  The answer is what there was no room for; there is none if
nobody reads. -/
def writeOutside (m : Machine) (pipe : Nat) (data : List UInt8) :
    Option (List UInt8) × Machine :=
  match m.write (.sink pipe) data with
  | (.reply .done, m) => (some [], m)
  | (.wait _, m) => (some data, m)
  | (.part (.write _ left), m) => (some left, m)
  | (_, m) => (none, m)

end Machine
end Unix
end Notebook
