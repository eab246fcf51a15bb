import Notebook.Path
import Notebook.Process.Supervisor
import Notebook.Unix.Machine
import Notebook.Shell.Interpreter

/-!
# The host of processes

A host is a machine with a supervisor on it.  Starting a process means finding its
program on the machine and giving it pipes for its output; pumps read these pipes, and
monitors see what has ended.  `Host.tick` lets machine, pumps and monitors work once.
-/

set_option autoImplicit false

namespace Notebook

open Unix (Machine Program Handle Signal Status)

/-- How a process is connected. -/
structure Wire where
  stdout : Nat
  stderr : Nat
  /-- When the pumps are given up. -/
  deadline : Option Nat
  deriving DecidableEq, Repr, Inhabited

/-- A machine with a supervisor on it. -/
structure Host where
  machine : Machine
  supervisor : Supervisor
  wires : Table Nat Wire
  deriving Inhabited

namespace Host

/-- A host with a disk. -/
def new (disk : Disk) (capacity : Nat) : Host :=
  ⟨.new disk, .new capacity, .empty⟩

/-! ## Finding programs -/

/-- What is to be run. -/
inductive Executable where
  | shell (name : String) (args : List String)
  | tool (name : String) (args : List String)
  deriving DecidableEq, Repr, Inhabited

/-- What a name without a path stands for. -/
def known? (name path : String) (args : List String) : Option Executable :=
  if name = "sh" || name = "dash" then some (.shell path args)
  else if name = "env" || (Shell.Tool.find? name).isSome then some (.tool name args)
  else none

/-- The program that a path names. -/
def resolvePath (d : Disk) (cwd : Disk.Place) (program path : String) (args : List String) :
    Except SpawnFailure Executable :=
  match d.find cwd path with
  | .ok (_, .file data executable) =>
    if executable then
      match String.fromUTF8? data with
      | none => .error (.io program "Exec format error")
      | some text =>
        if text.startsWith "#!" then
          let line := ((text.drop 2).toString.splitOn "\n").headD ""
          let words := (line.splitOn " ").filter fun w => !w.isEmpty
          let words := if words.head? = some "/usr/bin/env" then words.drop 1 else words
          let name := (((words.headD "").splitOn "/").getLast?).getD ""
          match known? name name (words.drop 1 ++ path :: args) with
          | some found => .ok found
          | none => .error (.io program "No such file or directory")
        else .error (.io program "Exec format error")
    else .error (.io program "Permission denied")
  | .ok _ => .error (.notFound program)
  | .error _ =>
    match Shell.toolDirectories.find? fun dir => path.startsWith dir with
    | some dir =>
      match known? (path.drop dir.length).toString path args with
      | some found => .ok found
      | none => .error (.notFound program)
    | none => .error (.notFound program)

/-- The program of a name or path, for a working directory. -/
def resolve (d : Disk) (program cwd : String) (args : List String) :
    Except SpawnFailure Executable :=
  if program.contains '/' then
    match d.locate [] cwd with
    | .ok place => resolvePath d place program (Path.join cwd program) args
    | .error _ => .error (.notFound program)
  else
    match known? program ("/usr/bin/" ++ program) args with
    | some found => .ok found
    | none => .error (.notFound program)

/-- The place of a working directory. -/
def workingPlace (d : Disk) (program cwd : String) : Except SpawnFailure Disk.Place :=
  match d.find [] cwd with
  | .ok (place, .directory) => .ok place
  | .ok _ => .error (.io program Disk.Problem.notDirectory.message)
  | .error p => .error (.io program p.message)

/-- The program that runs something. -/
def programOf (what : Executable) (env : List (String × String)) (cwd : Disk.Place)
    (fds : List (Nat × Handle)) : Program :=
  match what with
  | .shell name args =>
    (Shell.runShell Shell.Sh.patience args).toProgram (.fresh name [] env cwd fds 0)
  | .tool name args =>
    let step : Shell.Sh Unit := do
      let _ ← Shell.command Shell.Sh.patience name args
      pure ()
    step.toProgram (.fresh name args env cwd fds 0)

/-- Starts a process with its own group. -/
def start (m : Machine) (program cwd : String) (args : List String)
    (env : List (String × String)) (fds : List (Nat × Handle)) :
    Except SpawnFailure Nat × Machine :=
  match resolve m.disk program cwd args, workingPlace m.disk program cwd with
  | .error e, _ => (.error e, m)
  | _, .error e => (.error e, m)
  | .ok what, .ok place =>
    let (pid, m) := m.start none (programOf what env place fds)
      ((fds.map (·.2)).eraseDups) []
    (.ok pid, m)

/-! ## Calls -/

/-- The pid that a process gets if it is started next. -/
def spawner (h : Host) : Spawner := fun d r =>
  match resolve d r.program r.cwd r.args, workingPlace d r.program r.cwd with
  | .error e, _ => .error e
  | _, .error e => .error e
  | .ok _, .ok _ => .ok h.machine.nextPid

/-- Starts the process of a registered run; its output goes into two pipes. -/
def attach (h : Host) (parent : List (String × String)) (generation : Nat)
    (r : RunRequest) : Host :=
  let (out, m) := h.machine.makePipe []
  let (err, m) := m.makePipe []
  let m := { m with outside := .source out :: .source err :: m.outside }
  let (_, m) := start m r.program r.cwd r.args (childEnvironment parent r.env)
    [(0, .null), (1, .sink out), (2, .sink err)]
  { h with machine := m, wires := h.wires.set generation ⟨out, err, none⟩ }

/-- Starts a supervised process. -/
def run (h : Host) (parent : List (String × String)) (r : RunRequest) :
    Except RunError (Nat × Nat) × Host :=
  let (result, supervisor, _) := h.supervisor.run r.key
    (fun d => (h.spawner d r, d)) h.machine.disk
  let h := { h with supervisor }
  match result with
  | .ok (generation, pid) => (.ok (generation, pid), h.attach parent generation r)
  | .error e => (.error e, h)

/-- Whether the end of a process has not been seen yet. -/
def isAwaited (h : Host) (pid : Nat) : Bool :=
  h.supervisor.runs.entries.any fun (_, r) =>
    r.pid = pid && (match r.phase with
      | .waiting => true
      | _ => false)

/-- Signals the group of a process; the answer says whether there is one. -/
def signal (h : Host) (pid : Nat) (s : Signal) : Bool × Host :=
  let (found, machine) := h.machine.signal true pid (some s)
  (found || h.isAwaited pid, { h with machine })

/-- Signals several groups; the answer says how many there are. -/
def signalAll (h : Host) (s : Signal) (pids : List Nat) : Nat × Host :=
  pids.foldl (fun (n, h) pid =>
    let (found, h) := h.signal pid s
    (if found then n + 1 else n, h)) (0, h)

/-- Stops the process of a key. -/
def stop (h : Host) (key : ProcessKey) : Bool × Host :=
  match h.supervisor.stop key with
  | some pid => h.signal pid .term
  | none => (false, h)

/-- Stops the processes of a session. -/
def stopSession (h : Host) (session : SessionId) : Nat × Host :=
  h.signalAll .term (h.supervisor.stopSession session)

/-- Kills all processes. -/
def killAll (h : Host) : Host :=
  (h.signalAll .kill h.supervisor.killAll).2

/-! ## Work -/

/-- How long pumps may work after the exit of their process, in microseconds. -/
def drainGrace : Nat := 2000000

/-- A step on behalf of a run. -/
def step (h : Host) (generation : Nat) (s : Supervisor.Step) : Host :=
  { h with supervisor := h.supervisor.step generation s }

/-- A worker takes a pump up for one step. -/
def attend (h : Host) (generation : Nat) (stream : OutputStream) (s : Supervisor.Step) : Host :=
  ((h.step generation (.attend stream)).step generation s).step generation (.unattend stream)

/-- Lets a pump read and deliver once; the answer says whether it has done anything. -/
def pump (h : Host) (generation : Nat) (stream : OutputStream) (pipe : Nat) : Bool × Host :=
  match h.supervisor.runs.find? generation with
  | none => (false, h)
  | some r =>
    let (moved, h) :=
      if r.isPumping && (r.pump stream).isFree then
        match h.machine.readOutside pipe Stream.pieceSize with
        | (none, machine) => (false, { h with machine })
        | (some [], machine) =>
          (true, { h with machine := machine.letGo (.source pipe) }.attend generation stream
            (.finish stream))
        | (some data, machine) =>
          (true, { h with machine }.attend generation stream (.read stream data))
      else (false, h)
    match h.supervisor.runs.find? generation with
    | some r =>
      if (r.pump stream).held.isSome && r.isPumping then
        if !r.watched || r.queue.length < h.supervisor.capacity then
          (true, h.attend generation stream (.deliver stream))
        else (moved, h)
      else (moved, h)
    | none => (moved, h)

/-- The exit that a status stands for. -/
def exitOf : Status → ExitInfo
  | .exited code => ⟨some (Int32.ofNat code)⟩
  | .killed _ => ⟨none⟩

/-- Lets a monitor do its next step; the answer says whether it has done anything. -/
def monitor (h : Host) (generation : Nat) (w : Wire) : Bool × Host :=
  match h.supervisor.runs.find? generation with
  | none => (false, h)
  | some r =>
    match r.phase with
    | .waiting =>
      match h.machine.ended.find? r.pid with
      | some status =>
        let deadline := h.machine.now + drainGrace
        (true, { h with wires := h.wires.set generation { w with deadline := some deadline } }.step
          generation (.exit (exitOf status)))
      | none => (false, h)
    | .draining _ =>
      if r.stdout.isDone && r.stderr.isDone then (true, h.step generation .drain)
      else if w.deadline.any (· ≤ h.machine.now) then
        let machine := (h.machine.letGo (.source w.stdout)).letGo (.source w.stderr)
        (true, { h with machine }.step generation .giveUp)
      else (false, h)
    | .drained _ =>
      (true, { h with wires := h.wires.set generation { w with deadline := none } }.step
        generation .remove)
    | .removed _ =>
      if !r.watched || r.queue.length < h.supervisor.capacity then
        (true, h.step generation .report)
      else (false, h)
    | .reported => (false, { h with wires := h.wires.erase generation })

/-- Lets pumps and monitors work once. -/
def serve (h : Host) : Bool × Host :=
  h.wires.entries.foldl (fun (moved, h) (generation, w) =>
    let (a, h) := h.pump generation .stdout w.stdout
    let (b, h) := h.pump generation .stderr w.stderr
    let (c, h) := h.monitor generation w
    (moved || a || b || c, h)) (false, h)

/-- Lets machine, pumps and monitors work once. -/
def tick (h : Host) : Bool × Host :=
  let (a, machine) := h.machine.round
  let (b, h) := { h with machine }.serve
  (a || b, h)

/-- When something is due that nothing else brings about. -/
def nextDue (h : Host) : Option Nat :=
  (h.machine.nextWake.toList ++ h.wires.entries.filterMap fun (_, w) => w.deadline).min?

/-- Moves the clock. -/
def setClock (h : Host) (now : Nat) : Host :=
  { h with machine := h.machine.setClock now }

/-- Works on until enough is known or a time has come.  After each round `learn` takes
what there is to know. -/
def workUntil {σ : Type} (h : Host) (fuel limit : Nat) (enough : σ → Host → Bool)
    (learn : σ → Host → σ × Host) (known : σ) : σ × Host :=
  match fuel with
  | 0 => (known, h)
  | fuel + 1 =>
    if enough known h then (known, h)
    else
      let (moved, h) := h.tick
      let (known, h) := learn known h
      if moved then
        if limit < h.machine.now then (known, h)
        else workUntil h fuel limit enough learn known
      else
        match h.nextDue with
        | some due =>
          if due ≤ limit then workUntil (h.setClock due) fuel limit enough learn known
          else (known, h.setClock limit)
        | none => (known, h.setClock limit)

/-- Steps enough for any script that ends. -/
def patience : Nat := 100000000

/-- How long somebody waits for something, in microseconds. -/
def waitingTime : Nat := 30000000

/-! ## Listening -/

/-- What has been heard of a process. -/
structure Heard where
  stdout : String
  stderr : String
  exits : Nat
  info : Option ExitInfo
  /-- The exit was the last that was heard. -/
  ended : Bool
  deriving DecidableEq, Repr, Inhabited

namespace Heard

/-- Nothing has been heard. -/
def nothing : Heard :=
  ⟨"", "", 0, none, false⟩

/-- Hears an event. -/
def take (k : Heard) : ProcessEvent → Heard
  | .output .stdout text => { k with stdout := k.stdout ++ text, ended := false }
  | .output .stderr text => { k with stderr := k.stderr ++ text, ended := false }
  | .exited info => { k with exits := k.exits + 1, info := some info, ended := true }

end Heard

/-- Takes all events of a run that are there. -/
def hear (generation : Nat) (k : Heard) (h : Host) : Heard × Host :=
  match h.supervisor.runs.find? generation with
  | none => (k, h)
  | some r =>
    (r.queue.foldl Heard.take k, r.queue.foldl (fun h _ => h.step generation .take) h)

/-- Whether a run is over. -/
def isOver (generation : Nat) (h : Host) : Bool :=
  match h.supervisor.runs.find? generation with
  | some r =>
    (match r.phase with
    | .reported => true
    | _ => false) && r.queue.isEmpty
  | none => true

/-- Listens to a run to its end. -/
def listen (h : Host) (generation : Nat) : Heard × Host :=
  h.workUntil patience (h.machine.now + waitingTime) (fun _ h => isOver generation h)
    (hear generation) .nothing

/-- Listens to a run until its output contains a text. -/
def listenFor (h : Host) (generation : Nat) (text : String) : Heard × Host :=
  h.workUntil patience (h.machine.now + waitingTime)
    (fun k h => k.stdout.contains text || isOver generation h) (hear generation) .nothing

/-- Works until there is a file; the answer says whether it has come. -/
def awaitFile (h : Host) (cwd : Disk.Place) (path : String) : Bool × Host :=
  let isThere (h : Host) : Bool := h.machine.disk.isThere cwd path
  let ((), h) := h.workUntil patience (h.machine.now + waitingTime) (fun _ h => isThere h)
    (fun _ h => ((), h)) ()
  (isThere h, h)

/-- Works for some microseconds. -/
def workFor (h : Host) (time : Nat) : Host :=
  (h.workUntil patience (h.machine.now + time) (fun _ _ => false) (fun _ h => ((), h)) ()).2

end Host
end Notebook
