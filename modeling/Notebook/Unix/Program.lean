import Notebook.Disk

/-!
# Programs and what they ask of the machine

A program either ends, asks the machine for something and goes on with the reply, or
starts another program beside itself.  The machine decides when it replies, so programs
that run side by side can wait for each other.
-/

set_option autoImplicit false

namespace Notebook
namespace Unix

/-- Where bytes go to or come from. -/
inductive Handle where
  | null
  /-- The end of a file. -/
  | file (place : Disk.Place)
  /-- The end of a pipe that is written. -/
  | sink (pipe : Nat)
  /-- The end of a pipe that is read. -/
  | source (pipe : Nat)
  deriving DecidableEq, Repr, Inhabited

/-- The signals that one process sends another. -/
inductive Signal where
  | hup
  | int
  | quit
  | kill
  | usr1
  | usr2
  | pipe
  | alrm
  | term
  deriving DecidableEq, Repr, Inhabited

/-- What becomes of a signal. -/
inductive Disposition where
  | standard
  | ignored
  | caught
  deriving DecidableEq, Repr, Inhabited

/-- How a process has ended. -/
inductive Status where
  | exited (code : Nat)
  | killed (signal : Signal)
  deriving DecidableEq, Repr, Inhabited

/-- What the machine replies. -/
inductive Reply where
  | done
  | number (n : Nat)
  | bytes (data : List UInt8)
  | text (s : String)
  | names (items : List String)
  | place (p : Disk.Place)
  | flag (b : Bool)
  | status (s : Status)
  | signals (items : List Signal)
  | problem (p : Disk.Problem)
  deriving Inhabited

/-- What a program asks. -/
inductive SystemCall where
  /-- Looks at the disk or changes it. -/
  | disk (f : Disk → Disk × Reply)
  | write (target : Handle) (data : List UInt8)
  /-- Reads at most `limit` bytes; none at the end. -/
  | read (source : Handle) (limit : Nat)
  /-- A pipe that holds some bytes already. -/
  | pipe (data : List UInt8)
  /-- Sleeps for some microseconds; the flag says whether nothing has cut it short. -/
  | sleep (time : Nat)
  /-- Waits for the end of a process. -/
  | wait (pid : Nat)
  /-- Sends a signal to a process, or to a whole group; without one, only looks. -/
  | kill (group : Bool) (pid : Nat) (signal : Option Signal)
  | dispose (signal : Signal) (what : Disposition)
  /-- Takes the signals that were caught. -/
  | caught
  /-- Says which handles are open from now on. -/
  | hold (handles : List Handle)
  /-- The number of the running process. -/
  | pid
  /-- A point at which others may go on. -/
  | pause

/-- A program. -/
inductive Program where
  | exit (code : Nat)
  | ask (request : SystemCall) (next : Reply → Program)
  /-- Starts a program that holds some handles, and goes on with its number. -/
  | fork (child : Program) (handles : List Handle) (next : Nat → Program)

instance : Inhabited Program := ⟨.exit 0⟩

namespace Signal

/-- The signals with their numbers and names. -/
def table : List (Signal × Nat × String) :=
  [(.hup, 1, "HUP"), (.int, 2, "INT"), (.quit, 3, "QUIT"), (.kill, 9, "KILL"),
   (.usr1, 10, "USR1"), (.usr2, 12, "USR2"), (.pipe, 13, "PIPE"), (.alrm, 14, "ALRM"),
   (.term, 15, "TERM")]

/-- The number of a signal. -/
def number (s : Signal) : Nat :=
  match s with
  | .hup => 1
  | .int => 2
  | .quit => 3
  | .kill => 9
  | .usr1 => 10
  | .usr2 => 12
  | .pipe => 13
  | .alrm => 14
  | .term => 15

/-- The signal of a number or a name. -/
def ofText? (text : String) : Option Signal :=
  (table.find? fun (_, number, name) =>
    text == toString number || text == name || text == "SIG" ++ name).map (·.1)

end Signal

/-- The number that a shell gives for the end of a process. -/
def Status.code : Status → Nat
  | .exited code => code
  | .killed signal => 128 + signal.number

end Unix
end Notebook
