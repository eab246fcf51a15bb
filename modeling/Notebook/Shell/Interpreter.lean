import Notebook.Shell.Expansion
import Notebook.Shell.Grammar
import Notebook.Shell.Tool

/-!
# Running commands

`exec` runs a command with a supply of steps, and gives where it leaves the commands
around it.  Its status is left in the state.  Subshells, stages of pipelines, background
commands and the commands whose output a word takes run as programs of their own.
-/

set_option autoImplicit false

namespace Notebook
namespace Shell

open Unix (Handle Program Reply Signal Status)

/-! ## Waiting -/

/-- What is said about a child that a signal has ended. -/
def endingOf (s : Signal) : Option String :=
  match s with
  | .hup => some "Hangup"
  | .quit => some "Quit"
  | .kill => some "Killed"
  | .usr1 => some "User defined signal 1"
  | .usr2 => some "User defined signal 2"
  | .alrm => some "Alarm clock"
  | .term => some "Terminated"
  | .int => none
  | .pipe => none

/-- Waits for a child. -/
def waitFor (speaks : Bool) (pid : Nat) : Sh Unit := do
  match ← Sh.ask (.wait pid) with
  | .status status =>
    match status with
    | .killed signal =>
      if speaks then
        match endingOf signal with
        | some text => Sh.print 2 (text ++ "\n")
        | none => pure ()
    | .exited _ => pure ()
    Sh.setStatus status.code
  | _ => Sh.setStatus 127

/-- Waits for several children, the last of which counts. -/
def waitForAll : List Nat → Sh Unit
  | [] => pure ()
  | pid :: rest => do
    waitFor rest.isEmpty pid
    waitForAll rest

/-! ## Redirections -/

/-- The handle that a path is opened as, or a complaint. -/
def openPath (s : State) (kind : Nat) (path : String) : Sh (Except String Handle) := do
  let cwd := s.cwd
  match path with
  | "/dev/null" => pure (.ok .null)
  | "/dev/stdin" => pure (.ok ((s.fds.find? 0).getD .null))
  | "/dev/stdout" => pure (.ok ((s.fds.find? 1).getD .null))
  | "/dev/stderr" => pure (.ok ((s.fds.find? 2).getD .null))
  | path =>
    if kind = 0 then
      match ← Tool.contents path with
      | .error .notFound => pure (.error s!"cannot open {path}: No such file")
      | .error p => pure (.error s!"cannot open {path}: {p.message}")
      | .ok data =>
        match ← Sh.ask (.pipe data) with
        | .number n => pure (.ok (.source n))
        | _ => pure (.ok .null)
    else
      let problem ← Sh.change fun d =>
        if kind = 1 then d.write cwd path .empty else d.append cwd path .empty
      match problem with
      | some .notFound => pure (.error s!"cannot create {path}: Directory nonexistent")
      | some p => pure (.error s!"cannot create {path}: {p.message}")
      | none =>
        match ← Sh.look (fun d => d.locate cwd path) (fun
          | .ok place => .place place
          | .error p => .problem p) with
        | .place place => pure (.ok (.file place))
        | _ => pure (.ok .null)

/-- Gives a descriptor another handle. -/
def setFd (fd : Nat) (h : Handle) : Sh Unit :=
  Sh.modify fun s => { s with fds := s.fds.set fd h }

/-- Opens a path as a descriptor; the answer says whether that has worked. -/
def redirectTo (fd kind : Nat) (path : String) : Sh Bool := do
  match ← openPath (← Sh.get) kind path with
  | .ok h =>
    setFd fd h
    pure true
  | .error what =>
    Sh.complain what
    pure false

/-- Makes redirections one after the other until one fails. -/
def redirect (substitute : Substitute) : List Redirection → Sh Bool
  | [] => pure true
  | r :: rest => do
    let fine ← match r with
      | .input fd w => do redirectTo fd 0 (← expandText substitute w)
      | .output fd w => do redirectTo fd 1 (← expandText substitute w)
      | .append fd w => do redirectTo fd 2 (← expandText substitute w)
      | .here fd w => do
        match ← Sh.ask (.pipe (Sh.bytesOf (← expandText substitute w))) with
        | .number n => setFd fd (.source n)
        | _ => pure ()
        pure true
      | .duplicate fd w => do
        let text ← expandText substitute w
        if text = "-" then
          Sh.modify fun s => { s with fds := s.fds.erase fd }
          pure true
        else
          match text.toNat?.bind (← Sh.get).fds.find? with
          | some h =>
            setFd fd h
            pure true
          | none =>
            Sh.complain s!"{text}: Bad file descriptor"
            pure false
    if fine then redirect substitute rest else pure false

/-- Runs something under redirections, which are undone afterwards. -/
def redirected (substitute : Substitute) (rs : List Redirection) (body : Sh Flow) :
    Sh Flow := do
  let fds := (← Sh.get).fds
  if ← redirect substitute rs then
    let flow ← body
    Sh.modify fun s => { s with fds }
    pure flow
  else
    Sh.modify fun s => { s with fds }
    Sh.setStatus 2
    pure .next

/-! ## Commands of the shell itself -/

/-- The number that a command is given, or the last status. -/
def statusArgument (name : String) (args : List String) : Sh Nat := do
  match args with
  | [] => pure (← Sh.get).status
  | text :: _ =>
    match text.toNat? with
    | some n => pure n
    | none => abortWith s!"{name}: Illegal number: {text}"

/-- Changes the directory. -/
def changeDirectory (args : List String) : Sh Unit := do
  let s ← Sh.get
  let target :=
    match args with
    | "-" :: _ => (s.vars.find? "OLDPWD").getD ""
    | a :: _ => a
    | [] => (s.vars.find? "HOME").getD ""
  let cwd := s.cwd
  match ← Sh.look (fun d => d.find cwd target) (fun
    | .ok (place, .directory) => .place place
    | _ => .done) with
  | .place place =>
    Sh.setVar "OLDPWD" (Disk.pathOf cwd)
    Sh.setVar "PWD" (Disk.pathOf place)
    Sh.modify fun s => { s with cwd := place, status := 0 }
    if args.head? = some "-" then Sh.print 1 (Disk.pathOf place ++ "\n")
  | _ =>
    Sh.complain s!"cd: can't cd to {target}"
    Sh.setStatus 2

/-- Splits an assignment at its sign. -/
def splitAssignment (text : String) : String × Option String :=
  match text.toList.span (· ≠ '=') with
  | (name, '=' :: value) => (String.ofList name, some (String.ofList value))
  | (name, _) => (String.ofList name, none)

/-- Gives variables values, and passes them on if asked to. -/
def declare (exports : Bool) (args : List String) : Sh Unit := do
  for arg in args.filter fun a => !a.startsWith "-" do
    let (name, value) := splitAssignment arg
    match value with
    | some value => Sh.setVar name value
    | none => pure ()
    if exports then
      Sh.modify fun s =>
        if s.exported.contains name then s else { s with exported := s.exported ++ [name] }
  Sh.setStatus 0

/-- The name under which a trap is kept. -/
def trapName (text : String) : String :=
  if text = "0" || text = "EXIT" then "EXIT"
  else
    match Signal.ofText? text with
    | some s => toString s.number
    | none => text

/-- Says what to do at signals. -/
def setTraps (args : List String) : Sh Unit := do
  match (if args.head? = some "--" then args.drop 1 else args) with
  | [] => Sh.setStatus 0
  | action :: names =>
    let (action, names) := if names.isEmpty then ("-", [action]) else (action, names)
    Sh.setStatus 0
    for text in names do
      let name := trapName text
      Sh.modify fun s => { s with
        traps := if action = "-" || action.isEmpty then s.traps.erase name
          else s.traps.set name action }
      match Signal.ofText? text with
      | some signal =>
        let what :=
          if action = "-" then .standard else if action.isEmpty then .ignored else .caught
        let _ ← Sh.ask (.dispose signal what)
      | none =>
        if name ≠ "EXIT" then
          Sh.complain s!"trap: {text}: bad trap"
          Sh.setStatus 1

/-- Reads a line from a handle; nothing at the end. -/
def readLine (fuel : Nat) (raw : Bool) (h : Handle) (acc : List UInt8) :
    Sh (List UInt8 × Bool) :=
  match fuel with
  | 0 => pure (acc.reverse, false)
  | fuel + 1 => do
    match ← Sh.ask (.read h 1) with
    | .bytes [10] =>
      match acc with
      | 92 :: more => if raw then pure (acc.reverse, true) else readLine fuel raw h more
      | _ => pure (acc.reverse, true)
    | .bytes [b] => readLine fuel raw h (b :: acc)
    | _ => pure (acc.reverse, false)

/-- Gives the fields of a line to variables; the last one takes what is left. -/
def assignFields (separators : List Char) : List String → List Char → Sh Unit
  | [], _ => pure ()
  | [name], cs =>
    let strip (cs : List Char) : List Char := cs.dropWhile separators.contains
    Sh.setVar name (String.ofList (strip (strip cs).reverse).reverse)
  | name :: names, cs => do
    let (field, rest) := (cs.dropWhile separators.contains).span fun c => !separators.contains c
    Sh.setVar name (String.ofList field)
    assignFields separators names rest

/-- Reads a line into variables. -/
def readVariables (args : List String) : Sh Unit := do
  let names := args.filter fun a => !a.startsWith "-"
  let s ← Sh.get
  match s.fds.find? 0 with
  | none => Sh.setStatus 1
  | some h =>
    let (data, ended) ← readLine Sh.patience (args.contains "-r") h []
    assignFields s.separators names (Utf8.lossy data)
    Sh.setStatus (if ended then 0 else 1)

/-- Changes options and arguments. -/
def setOptions : List String → Sh Unit
  | [] => Sh.setStatus 0
  | "--" :: rest => Sh.modify fun s => { s with args := rest, status := 0 }
  | a :: rest =>
    if a.startsWith "-" || a.startsWith "+" then do
      if a.toList.contains 'e' then Sh.modify fun s => { s with strict := a.startsWith "-" }
      if a = "-o" || a = "+o" then
        if rest.head? = some "errexit" then
          Sh.modify fun s => { s with strict := a.startsWith "-" }
        setOptions (rest.drop 1)
      else setOptions rest
    else Sh.modify fun s => { s with args := a :: rest, status := 0 }
termination_by args => args.length
decreasing_by all_goals (simp; try omega)

/-- The names of the commands of the shell itself. -/
def builtins : List String :=
  [":", "exit", "return", "break", "continue", "cd", "export", "readonly", "local", "unset",
   "shift", "set", "trap", "wait", "read", "eval", ".", "exec", "command", "type", "umask",
   "env", "sh"]

/-- Whether a name can be run without a path. -/
def isKnown (name : String) : Bool :=
  builtins.contains name || (Tool.find? name).isSome

/-- Says where commands are found. -/
def locate (names : List String) : Sh Unit := do
  Sh.setStatus 0
  for name in names do
    if (← Sh.get).functions.contains name || isKnown name then Sh.print 1 (name ++ "\n")
    else Sh.setStatus 127

/-- Runs a command of the shell that needs no other commands. -/
def builtin? (name : String) (args : List String) : Option (Sh Flow) :=
  let quiet (step : Sh Unit) : Option (Sh Flow) := some do
    step
    pure .next
  match name with
  | ":" => quiet (Sh.setStatus 0)
  | "exit" => some do
    Sh.setStatus (← statusArgument name args)
    pure .exit
  | "return" => some do
    Sh.setStatus (← statusArgument name args)
    pure .return
  | "break" => some do
    Sh.setStatus 0
    pure (.leave (((args.head?).bind (·.toNat?)).getD 1))
  | "continue" => some do
    Sh.setStatus 0
    pure (.again (((args.head?).bind (·.toNat?)).getD 1))
  | "cd" => quiet (changeDirectory args)
  | "export" => quiet (declare true args)
  | "readonly" => quiet (declare false args)
  | "local" => quiet (declare false args)
  | "unset" => quiet do
    Sh.modify fun s => { s with
      vars := (args.foldl (fun t a => t.erase a) s.vars)
      functions := if args.contains "-f" then args.foldl (fun t a => t.erase a) s.functions
        else s.functions }
    Sh.setStatus 0
  | "shift" => quiet do
    let n := ((args.head?).bind (·.toNat?)).getD 1
    Sh.modify fun s => { s with args := s.args.drop n, status := 0 }
  | "set" => quiet (setOptions args)
  | "trap" => quiet (setTraps args)
  | "read" => quiet (readVariables args)
  | "umask" => quiet (Sh.setStatus 0)
  | "type" => quiet (locate args)
  | "wait" => quiet do
    match args.filterMap (·.toNat?) with
    | [] =>
      for pid in (← Sh.get).jobs.reverse do
        waitFor false pid
      Sh.modify fun s => { s with jobs := [], status := 0 }
    | pids =>
      for pid in pids do
        waitFor false pid
  | name => (Tool.find? name).map fun tool => do
    Sh.setStatus (← tool args)
    pure .next

/-! ## Files that are programs -/

/-- What a path names for running. -/
inductive Executable where
  /-- A tool that is found under a path of the system. -/
  | tool (name : String)
  | script (text : List Char)
  | missing
  | refused
  deriving Inhabited

/-- The directories in which tools are found. -/
def toolDirectories : List String :=
  ["/bin/", "/usr/bin/"]

/-- What a path names for running. -/
def executable (d : Disk) (cwd : Disk.Place) (path : String) : Executable :=
  match d.find cwd path with
  | .ok (_, .file data true) => .script (Utf8.lossy data.toList)
  | .ok _ => .refused
  | .error _ =>
    match toolDirectories.find? fun dir => path.startsWith dir with
    | some dir =>
      let name := (path.drop dir.length).toString
      if isKnown name then .tool name else .missing
    | none => .missing

/-- What a path names for running. -/
def executableAt (path : String) : Sh Executable := do
  let cwd := (← Sh.get).cwd
  match ← Sh.look (fun d => executable d cwd path) (fun
    | .tool name => .names [name]
    | .script text => .text (String.ofList text)
    | .missing => .flag false
    | .refused => .flag true) with
  | .names (name :: _) => pure (.tool name)
  | .text text => pure (.script text.toList)
  | .flag true => pure .refused
  | _ => pure .missing

/-- A state for a shell that another one starts. -/
def inner (name : String) (args : List String) (s : State) : State :=
  { s with
    name, args
    vars := ⟨Sh.environment s⟩
    functions := .empty
    status := 0, jobs := [], traps := .empty, line := 1, strict := false, tested := false }

/-! ## Commands -/

/-- What a loop does after its body. -/
inductive Round where
  | more
  | done (flow : Flow)

/-- What a loop does when its body has left with some flow. -/
def roundAfter : Flow → Round
  | .next => .more
  | .leave 0 => .done .next
  | .leave 1 => .done .next
  | .leave (n + 2) => .done (.leave (n + 1))
  | .again 0 => .more
  | .again 1 => .more
  | .again (n + 2) => .done (.again (n + 1))
  | flow => .done flow

/-- Runs something as a condition. -/
def asCondition (body : Sh Flow) : Sh Flow := do
  let tested := (← Sh.get).tested
  Sh.modify fun s => { s with tested := true }
  let flow ← body
  Sh.modify fun s => { s with tested }
  pure flow

/-- Ends a strict shell after a failure. -/
def checked (flow : Flow) : Sh Flow := do
  let s ← Sh.get
  pure (if s.strict && !s.tested && s.status ≠ 0 && flow = .next then .exit else flow)

/-- Variables with other values for the time of a command, and how to set them back. -/
def withAssignments (values : List (String × String)) (body : Sh Flow) : Sh Flow := do
  if values.isEmpty then body
  else
    let before ← Sh.get
    for (name, value) in values do
      declare true [name ++ "=" ++ value]
    let flow ← body
    Sh.modify fun s => { s with
      exported := before.exported
      vars := values.foldl (fun t (name, _) =>
        match before.vars.find? name with
        | some old => t.set name old
        | none => t.erase name) s.vars }
    pure flow

/-- The program of a step that may leave by any way. -/
def whole (step : Sh Flow) : Sh Unit := do
  let _ ← step
  pure ()

mutual

/-- What the commands of a text write, without the ends of lines at its end. -/
def substitute (fuel : Nat) (source : List Char) : Sh (List Char) :=
  match fuel with
  | 0 => pure []
  | fuel + 1 => do
    match ← Sh.ask (.pipe []) with
    | .number pipe =>
      let held := Sh.handles (← Sh.get)
      let _ ← Sh.ask (.hold (.source pipe :: held))
      let pid ← Sh.fork (fun s => { s with
        fds := s.fds.set 1 (.sink pipe), traps := .empty, jobs := [], tested := true })
        (runText fuel source)
      let data ← Sh.readAll Sh.patience (.source pipe) []
      let _ ← Sh.ask (.hold held)
      waitFor false pid
      pure (((Utf8.lossy data).reverse.dropWhile (· = '\n')).reverse)
    | _ => pure []

/-- Runs the commands of a text to the end of a shell. -/
def runText (fuel : Nat) (text : List Char) : Sh Unit :=
  match fuel with
  | 0 => Sh.setStatus 2
  | fuel + 1 => do
    let _ ← evaluate fuel text
    match (← Sh.get).traps.find? "EXIT" with
    | some action =>
      let status := (← Sh.get).status
      Sh.modify fun s => { s with traps := s.traps.erase "EXIT" }
      match ← evaluate fuel action.toList with
      | .exit => pure ()
      | _ => Sh.setStatus status
    | none => pure ()

/-- Runs the commands of a text. -/
def evaluate (fuel : Nat) (text : List Char) : Sh Flow :=
  match fuel with
  | 0 => pure .exit
  | fuel + 1 =>
    match parse? text with
    | some c => exec fuel c
    | none => do
      Sh.complain "Syntax error: end of file unexpected"
      Sh.setStatus 2
      pure .exit

/-- Runs a shell with the arguments of its call, in the state that it starts with. -/
def runShell (fuel : Nat) (args : List String) : Sh Unit :=
  match fuel with
  | 0 => Sh.setStatus 2
  | fuel + 1 => do
    match ← Sh.ask .pid with
    | .number pid => Sh.modify fun s => { s with pid }
    | _ => pure ()
    Sh.setVar "PWD" (Disk.pathOf (← Sh.get).cwd)
    let (letters, rest) := Tool.options args
    if letters.contains 'e' then Sh.modify fun s => { s with strict := true }
    match rest with
    | [] =>
      if letters.contains 'c' then
        Sh.print 2 "sh: 0: -c requires an argument\n"
        Sh.setStatus 2
      else runText fuel (Utf8.lossy (← Sh.input 0))
    | first :: others =>
      if letters.contains 'c' then
        Sh.modify fun s => { s with name := others.headD s.name, args := others.drop 1 }
        runText fuel first.toList
      else
        match ← Tool.contents first with
        | .ok data =>
          Sh.modify fun s => { s with name := first, args := others }
          runText fuel (Utf8.lossy data)
        | .error _ =>
          Sh.print 2 s!"sh: 0: cannot open {first}: No such file\n"
          Sh.setStatus 2

/-- Runs a program beside this one and waits for it. -/
def apart (fuel : Nat) (name : String) (args : List String) (step : Sh Unit) : Sh Flow :=
  match fuel with
  | 0 => pure .exit
  | _ + 1 => do
    let pid ← Sh.fork (inner name args) step
    waitFor true pid
    pure .next

/-- Runs a command with its arguments. -/
def call (fuel : Nat) (name : String) (args : List String) : Sh Flow :=
  match fuel with
  | 0 => pure .exit
  | fuel + 1 => do
    match (← Sh.get).functions.find? name with
    | some body =>
      let outer := (← Sh.get).args
      Sh.modify fun s => { s with args }
      let flow ← exec fuel body
      Sh.modify fun s => { s with args := outer }
      pure (if flow = .return then .next else flow)
    | none => command fuel name args

/-- Runs a command that is no function. -/
def command (fuel : Nat) (name : String) (args : List String) : Sh Flow :=
  match fuel with
  | 0 => pure .exit
  | fuel + 1 =>
    match builtin? name args with
    | some step => step
    | none =>
      match name with
      | "eval" => do
        Sh.setStatus 0
        evaluate fuel (String.intercalate " " args).toList
      | "." => do
        let path := args.headD ""
        match ← Tool.contents path with
        | .ok data =>
          Sh.setStatus 0
          let flow ← evaluate fuel (Utf8.lossy data)
          pure (if flow = .return then .next else flow)
        | .error _ =>
          Sh.complain s!".: cannot open {path}: No such file"
          Sh.setStatus 2
          pure .exit
      | "exec" =>
        match args with
        | [] => do
          let _ ← Sh.ask (.hold (Sh.handles (← Sh.get)))
          Sh.setStatus 0
          pure .next
        | name :: args => do
          let _ ← command fuel name args
          Sh.modify fun s => { s with traps := .empty }
          pure .exit
      | "command" =>
        match args with
        | "-v" :: names => do
          locate names
          pure .next
        | "-p" :: name :: args => command fuel name args
        | name :: args => command fuel name args
        | [] => pure .next
      | "env" => do
        let settings := args.takeWhile fun a => a.contains '='
        let values := settings.map fun a => ((splitAssignment a).1, ((splitAssignment a).2).getD "")
        withAssignments values do
          match args.drop settings.length with
          | [] =>
            Sh.setStatus (← Tool.printEnvironment)
            pure .next
          | name :: args =>
            if isKnown name || name.contains '/' then command fuel name args
            else
              Sh.print 2 s!"env: '{name}': No such file or directory\n"
              Sh.setStatus 127
              pure .next
      | "sh" => apart fuel "sh" [] (runShell fuel args)
      | "dash" => apart fuel "sh" [] (runShell fuel args)
      | name =>
        if name.contains '/' then do
          match ← executableAt name with
          | .tool tool => command fuel tool args
          | .script text => apart fuel name args (runText fuel text)
          | .missing =>
            Sh.complain s!"{name}: not found"
            Sh.setStatus 127
            pure .next
          | .refused =>
            Sh.complain s!"{name}: Permission denied"
            Sh.setStatus 126
            pure .next
        else do
          Sh.complain s!"{name}: not found"
          Sh.setStatus 127
          pure .next

/-- The values of assignments, each of which sees those before it. -/
def assignAll (fuel : Nat) (assignments : List (String × Word)) :
    Sh (List (String × String)) :=
  match fuel with
  | 0 => pure []
  | fuel + 1 =>
    match assignments with
    | [] => pure []
    | (name, w) :: rest => do
      let value ← expandText (substitute fuel) w
      let others ← assignAll fuel rest
      pure ((name, value) :: others)

/-- Runs a loop while its condition is met. -/
def runWhile (fuel : Nat) (expected : Bool) (condition body : Command) (status : Nat) :
    Sh Flow :=
  match fuel with
  | 0 => pure .exit
  | fuel + 1 => do
    let _ ← Sh.ask .pause
    match roundAfter (← asCondition (exec fuel condition)) with
    | .done flow => pure flow
    | .more =>
      if ((← Sh.get).status = 0) = expected then
        match roundAfter (← exec fuel body) with
        | .done flow => pure flow
        | .more => runWhile fuel expected condition body (← Sh.get).status
      else
        Sh.setStatus status
        pure .next

/-- Runs a loop for each of some values. -/
def runFor (fuel : Nat) (name : String) (body : Command) (values : List String) : Sh Flow :=
  match fuel with
  | 0 => pure .exit
  | fuel + 1 =>
    match values with
    | [] => pure .next
    | value :: rest => do
      Sh.setVar name value
      match roundAfter (← exec fuel body) with
      | .done flow => pure flow
      | .more => runFor fuel name body rest

/-- Finds the arm of a selection. -/
def runArms (fuel : Nat) (text : List Char) (arms : List (List Word × Command)) : Sh Flow :=
  match fuel with
  | 0 => pure .exit
  | fuel + 1 =>
    match arms with
    | [] => pure .next
    | ([], _) :: rest => runArms fuel text rest
    | (w :: ws, body) :: rest => do
      let pattern ← expandPattern (substitute fuel) w
      if Pattern.accepts pattern text then exec fuel body
      else runArms fuel text ((ws, body) :: rest)

/-- Starts the stages of a pipeline. -/
def runStages (fuel : Nat) (input : Option Handle) (started : List Nat)
    (stages : List Command) : Sh (List Nat) :=
  match fuel with
  | 0 => pure started
  | fuel + 1 =>
    match stages with
    | [] => pure started
    | stage :: rest => do
      let output ← if rest.isEmpty then pure none else do
        match ← Sh.ask (.pipe []) with
        | .number n => pure (some n)
        | _ => pure none
      let change (s : State) : State :=
        let fds := match input with
          | some h => s.fds.set 0 h
          | none => s.fds
        let fds := match output with
          | some n => fds.set 1 (.sink n)
          | none => fds
        { s with fds, traps := .empty, jobs := [], tested := true }
      let pid ← Sh.fork change (whole (exec fuel stage))
      runStages fuel (output.map .source) (started ++ [pid]) rest

/-- Runs what traps say about signals that have come. -/
def runTraps (fuel : Nat) (signals : List Signal) : Sh Flow :=
  match fuel with
  | 0 => pure .exit
  | fuel + 1 =>
    match signals with
    | [] => pure .next
    | signal :: rest => do
      let s ← Sh.get
      match s.traps.find? (toString signal.number) with
      | none => runTraps fuel rest
      | some action =>
        let flow ← evaluate fuel action.toList
        if flow = .exit then pure .exit
        else
          Sh.setStatus s.status
          runTraps fuel rest

/-- Looks for signals that have come. -/
def heed (fuel : Nat) (flow : Flow) : Sh Flow :=
  match fuel with
  | 0 => pure .exit
  | fuel + 1 => do
    if (← Sh.get).traps.entries.isEmpty then pure flow
    else
      match ← Sh.ask .caught with
      | .signals (signal :: more) =>
        match ← runTraps fuel (signal :: more) with
        | .next => pure flow
        | other => pure other
      | _ => pure flow

/-- Runs a command. -/
def exec (fuel : Nat) (c : Command) : Sh Flow :=
  match fuel with
  | 0 => pure .exit
  | fuel + 1 =>
    match c with
    | .nothing => pure .next
    | .simple line assignments words rs => do
      Sh.modify fun s => { s with line }
      match ← expandWords (substitute fuel) words with
      | [] => do
        if assignments.isEmpty || words.isEmpty then Sh.setStatus 0
        let values ← assignAll fuel assignments
        redirected (substitute fuel) rs do
          for (name, value) in values do
            Sh.setVar name value
          pure .next
      | "exec" :: [] => do
        if ← redirect (substitute fuel) rs then command fuel "exec" []
        else
          Sh.setStatus 2
          pure .exit
      | name :: args => do
        let values ← assignAll fuel assignments
        let flow ← redirected (substitute fuel) rs (withAssignments values (call fuel name args))
        heed fuel (← checked flow)
    | .group body => exec fuel body
    | .subshell body => do
      let pid ← Sh.fork (fun s => { s with traps := .empty, jobs := [] })
        (whole (exec fuel body))
      waitFor true pid
      heed fuel (← checked .next)
    | .redirected body rs => redirected (substitute fuel) rs (exec fuel body)
    | .repeatWhile expected condition body => runWhile fuel expected condition body 0
    | .repeatFor name words body => do
      let values ← match words with
        | some ws => expandWords (substitute fuel) ws
        | none => do pure (← Sh.get).args
      Sh.setStatus 0
      runFor fuel name body values
    | .choose condition yes no => do
      match ← asCondition (exec fuel condition) with
      | .next =>
        if (← Sh.get).status = 0 then exec fuel yes
        else
          Sh.setStatus 0
          exec fuel no
      | flow => pure flow
    | .select w arms => do
      let text ← expandText (substitute fuel) w
      Sh.setStatus 0
      runArms fuel text.toList arms
    | .function name body => do
      Sh.modify fun s => { s with functions := s.functions.set name body, status := 0 }
      pure .next
    | .sequence first second => do
      match ← exec fuel first with
      | .next => exec fuel second
      | flow => pure flow
    | .both first second => do
      match ← asCondition (exec fuel first) with
      | .next => if (← Sh.get).status = 0 then exec fuel second else pure .next
      | flow => pure flow
    | .either first second => do
      match ← asCondition (exec fuel first) with
      | .next => if (← Sh.get).status = 0 then pure .next else exec fuel second
      | flow => pure flow
    | .negated body => do
      let flow ← asCondition (exec fuel body)
      let s ← Sh.get
      Sh.setStatus (if s.status = 0 then 1 else 0)
      pure flow
    | .pipeline stages => do
      waitForAll (← runStages fuel none [] stages)
      heed fuel (← checked .next)
    | .background body => do
      let (body, rs) := match body with
        | .simple line assignments words rs => (Command.simple line assignments words [], rs)
        | .redirected body rs => (body, rs)
        | body => (body, [])
      let pid ← Sh.fork (fun s => { s with
        fds := s.fds.set 0 .null, traps := .empty, jobs := [], tested := true }) do
          if ← redirect (substitute fuel) rs then
            let _ ← Sh.ask (.hold (Sh.handles (← Sh.get)))
            whole (exec fuel body)
          else Sh.setStatus 2
      Sh.modify fun s => { s with jobs := pid :: s.jobs, status := 0 }
      pure .next

end

end Shell
end Notebook
