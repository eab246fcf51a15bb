import Notebook.Unix.Program
import Notebook.Shell.Command
import Notebook.Text.Utf8

/-!
# The state of a shell

A shell runs as a program: a step takes the state and what is to be done afterwards, and
gives the program that does both.  `Sh.ask` is the only step that asks the machine for
something, and `Sh.fork` the only one that starts another program.
-/

set_option autoImplicit false

namespace Notebook
namespace Shell

open Unix (Handle Program Reply SystemCall Signal)

/-- The state of a shell. -/
structure State where
  /-- The name under which the shell complains. -/
  name : String
  args : List String
  vars : Table String String
  exported : List String
  functions : Table String Command
  cwd : Disk.Place
  fds : Table Nat Handle
  /-- The status of the last command. -/
  status : Nat
  /-- The number that the shell goes by. -/
  pid : Nat
  /-- Programs started in the background, the last one first. -/
  jobs : List Nat
  /-- What to do at a signal or at the end, by name. -/
  traps : Table String String
  line : Nat
  /-- A failure ends the shell. -/
  strict : Bool
  /-- The command at work is a condition, so that its failure ends nothing. -/
  tested : Bool
  deriving Inhabited

/-- Where a command leaves the ones around it. -/
inductive Flow where
  | next
  | exit
  | leave (loops : Nat)
  | again (loops : Nat)
  | return
  deriving DecidableEq, Repr, Inhabited

/-- A step of a shell. -/
def Sh (α : Type) : Type := State → (α → State → Program) → Program

namespace Sh

instance : Monad Sh where
  pure a := fun s k => k a s
  bind x f := fun s k => x s fun a s => f a s k

/-- The state. -/
def get : Sh State := fun s k => k s s

/-- Changes the state. -/
def modify (f : State → State) : Sh Unit := fun s k => k () (f s)

/-- Asks the machine. -/
def ask (request : SystemCall) : Sh Reply := fun s k => .ask request fun r => k r s

/-- The handles of a shell. -/
def handles (s : State) : List Handle :=
  (s.fds.entries.map (·.2)).eraseDups

/-- Runs a step as a program of its own, which ends with the status that it leaves. -/
def toProgram (step : Sh Unit) (s : State) : Program :=
  step s fun _ s => .exit s.status

/-- Starts a step as a program beside this one. -/
def fork (change : State → State) (step : Sh Unit) : Sh Nat := fun s k =>
  let child := change s
  .fork (step.toProgram child) (handles child) fun pid => k pid s

/-- Ends the program. -/
def quit : Sh Unit := fun s _ => .exit s.status

/-- Looks at the disk. -/
def look {α : Type} (f : Disk → α) (toReply : α → Reply) : Sh Reply :=
  ask (.disk fun d => (d, toReply (f d)))

/-- Changes the disk, or gives the problem. -/
def change (f : Disk → Except Disk.Problem Disk) : Sh (Option Disk.Problem) := do
  match ← ask (.disk fun d =>
    match f d with
    | .ok d => (d, .done)
    | .error p => (d, .problem p)) with
  | .problem p => pure (some p)
  | _ => pure none

/-- Writes bytes to a descriptor; the answer says whether it is open. -/
def write (fd : Nat) (data : List UInt8) : Sh Bool := do
  match (← get).fds.find? fd with
  | some h =>
    if data.isEmpty then pure true
    else
      match ← ask (.write h data) with
      | .problem _ => pure false
      | _ => pure true
  | none => pure false

/-- The bytes of a text. -/
def bytesOf (text : String) : List UInt8 :=
  text.toUTF8.toList

/-- Writes a text. -/
def print (fd : Nat) (text : String) : Sh Unit := do
  let _ ← write fd (bytesOf text)

/-- Reads all that comes from a handle. -/
def readAll (fuel : Nat) (h : Handle) (acc : List UInt8) : Sh (List UInt8) :=
  match fuel with
  | 0 => pure acc
  | fuel + 1 => do
    match ← ask (.read h 65536) with
    | .bytes [] => pure acc
    | .bytes data => readAll fuel h (acc ++ data)
    | _ => pure acc

/-- How many steps a program may take. -/
def patience : Nat := 1000000000

/-- Reads all that comes from a descriptor. -/
def input (fd : Nat) : Sh (List UInt8) := do
  match (← get).fds.find? fd with
  | some h => readAll patience h []
  | none => pure []

/-- Text for bytes; what encodes nothing is replaced. -/
def textOf (data : List UInt8) : String :=
  String.ofList (Utf8.lossy data)

/-- Sets the status. -/
def setStatus (n : Nat) : Sh Unit :=
  modify fun s => { s with status := n % 256 }

/-- Complains in the words of the shell. -/
def complain (what : String) : Sh Unit := do
  let s ← get
  print 2 s!"{s.name}: {s.line}: {what}\n"

/-- Gives a variable a value. -/
def setVar (name value : String) : Sh Unit :=
  modify fun s => { s with vars := s.vars.set name value }

/-- The variables that are passed on to other programs. -/
def environment (s : State) : List (String × String) :=
  s.vars.entries.filter fun entry => s.exported.contains entry.1

end Sh

/-- A shell with some variables, all of them passed on. -/
def State.fresh (name : String) (args : List String) (vars : List (String × String))
    (cwd : Disk.Place) (fds : List (Nat × Handle)) (pid : Nat) : State where
  name
  args
  vars := ⟨vars⟩
  exported := vars.map (·.1)
  functions := .empty
  cwd
  fds := ⟨fds⟩
  status := 0
  pid
  jobs := []
  traps := .empty
  line := 1
  strict := false
  tested := false

end Shell
end Notebook
