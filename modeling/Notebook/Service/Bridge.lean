import Notebook.Service.Findings

/-!
# The bridge to the analysis service

A bridge keeps a record of every open file and opens the records on a service
instance.  The instance is launched when it is first needed.  If it has died, the next
call lets go of it, launches another and opens every record there.

Service and bridge run side by side: between two steps of a call an instance may answer,
stop reading or die.  `Incident` lists what may happen, and a call takes what happens
during it from the list `incidents`, one item for each pause.

Everything that the bridge does to instances is kept in `trace`, newest first.
-/

set_option autoImplicit false

namespace Notebook

/-- Why no instance is launched. -/
inductive LaunchProblem where
  | notFound (command : String)
  | failed (reason : String)
  deriving DecidableEq, Repr, Inhabited

/-- The wording of a launch problem. -/
def LaunchProblem.message : LaunchProblem → String
  | .notFound command => s!"{command} not found in PATH: cannot find binary path"
  | .failed reason => reason

/-- Why a call fails. -/
inductive BridgeError where
  | unavailable
  | timeout (command : String)
  | launch (problem : LaunchProblem)
  | notOpen (filename : String)
  deriving DecidableEq, Repr, Inhabited

/-- The wording of an error. -/
def BridgeError.message : BridgeError → String
  | .unavailable => "analysis service unavailable"
  | .timeout command => s!"analysis service did not answer '{command}' in time"
  | .launch problem => "failed to launch analysis service: " ++ problem.message
  | .notOpen filename => s!"file '{filename}' is not open"

/-- How an instance has ended. -/
inductive StopReason where
  | exited
  | failed (reason : String)
  deriving DecidableEq, Repr, Inhabited

/-- What an instance reports. -/
inductive ReportKind where
  | event (name : String) (body : Option Json)
  | stopped (reason : StopReason)
  deriving Repr, Inhabited

/-- A report of an instance, not yet taken by the bridge. -/
structure Report where
  generation : Nat
  kind : ReportKind
  deriving Repr, Inhabited

/-- What a report means for the session. -/
inductive BridgeEvent where
  | diagnostics (filename : String) (items : List Diagnostic)
  | suggestions (filename : String) (items : List Diagnostic)
  | stopped (reason : StopReason)
  deriving DecidableEq, Repr, Inhabited

/-- The number of a request on one instance. -/
structure Ticket where
  generation : Nat
  number : Nat
  deriving DecidableEq, Repr, Inhabited

/-- A launched instance. -/
structure Instance where
  nextNumber : Nat
  /-- Its output is being read. -/
  alive : Bool
  /-- Its input takes requests. -/
  writable : Bool
  deriving DecidableEq, Repr, Inhabited

/-- What the bridge does to instances. -/
inductive Deed where
  | launched (generation : Nat)
  | queued (generation : Nat) (request : Request)
  | released (generation : Nat)
  deriving DecidableEq, Repr, Inhabited

/-- What may happen to an instance while the bridge is at work. -/
inductive Incident where
  /-- A frame is read. -/
  | frame (generation : Nat) (frame : Json)
  /-- The output ends. -/
  | dies (generation : Nat)
  /-- Those who wait for a dead instance are turned away. -/
  | forgets (generation : Nat)
  /-- The end is reported. -/
  | reports (generation : Nat) (reason : StopReason)
  /-- A request could not be written. -/
  | breaks (generation : Nat)
  /-- Somebody has waited too long. -/
  | expires (ticket : Ticket)
  deriving Repr, Inhabited

/-- The bridge of one session. -/
structure Bridge where
  settings : ServiceSettings
  projectDir : String
  attached : Option Nat
  nextGeneration : Nat
  instances : Table Nat Instance
  /-- The contents of the open files by filename. -/
  records : Table String String
  findings : Findings
  /-- Why every launch fails, if it does. -/
  hindrance : Option LaunchProblem
  /-- The results of coming launches; when there are no more, launches succeed. -/
  launches : List (Option LaunchProblem)
  /-- What will happen at coming pauses. -/
  incidents : List (List Incident)
  waiting : List Ticket
  answered : Table Ticket Json
  /-- The tickets by which somebody has waited too long. -/
  expired : List Ticket
  /-- Reports in the order in which they came in. -/
  reports : List Report
  trace : List Deed
  deriving Inhabited

/-- Steps of a call.  What was done before an error stays done. -/
abbrev Call (α : Type) : Type := ExceptT BridgeError (StateM Bridge) α

namespace Bridge

/-- The bridge of a project directory, without an instance. -/
def new (settings : ServiceSettings) (projectDir : String) : Bridge where
  settings
  projectDir
  attached := none
  nextGeneration := 1
  instances := .empty
  records := .empty
  findings := .empty
  hindrance := none
  launches := []
  incidents := []
  waiting := []
  answered := .empty
  expired := []
  reports := []
  trace := []

/-! ## Views -/

/-- How many reports may wait. -/
def reportCapacity : Nat := 256

/-- The directory of the open files. -/
def sourceDir (b : Bridge) : String :=
  Path.join b.projectDir "src"

/-- The path by which the service knows a file. -/
def servicePath (b : Bridge) (filename : String) : String :=
  Path.join b.sourceDir filename

/-- Whether a file has a record. -/
def isOpen (b : Bridge) (filename : String) : Bool :=
  b.records.contains filename

/-- The records in the order of their filenames. -/
def sortedRecords (b : Bridge) : List (String × String) :=
  b.records.entries.mergeSort fun x y => !decide (y.1 < x.1)

/-- The open files in order. -/
def openFiles (b : Bridge) : List String :=
  b.sortedRecords.map (·.1)

/-- Whether an instance runs and takes requests. -/
def works (b : Bridge) (generation : Nat) : Bool :=
  match b.instances.find? generation with
  | some i => i.alive && i.writable
  | none => false

/-- Whether a working instance is attached. -/
def isRunning (b : Bridge) : Bool :=
  match b.attached with
  | some generation => b.works generation
  | none => false

/-! ## Incidents -/

/-- Changes an instance. -/
def changeInstance (b : Bridge) (generation : Nat) (f : Instance → Instance) : Bridge :=
  match b.instances.find? generation with
  | some i => { b with instances := b.instances.set generation (f i) }
  | none => b

/-- Turns those away who wait for an instance. -/
def forget (b : Bridge) (generation : Nat) : Bridge :=
  { b with waiting := b.waiting.filter fun ticket => ticket.generation ≠ generation }

/-- Takes a frame that an instance has sent.  A response goes to whoever waits for it. -/
def takeFrame (b : Bridge) (generation : Nat) (frame : Json) : Bridge :=
  match Incoming.ofJson? frame with
  | none => b
  | some (.event name body) =>
    { b with reports := b.reports ++ [⟨generation, .event name body⟩] }
  | some (.response number frame) =>
    let ticket : Ticket := ⟨generation, number⟩
    if ticket ∈ b.waiting then
      { b with
        waiting := b.waiting.filter (· ≠ ticket)
        answered := b.answered.set ticket frame }
    else b

/-- Ends the waiting for an answer that takes too long. -/
def expire (b : Bridge) (ticket : Ticket) : Bridge :=
  { b with
    waiting := b.waiting.filter (· ≠ ticket)
    expired := if ticket ∈ b.waiting then ticket :: b.expired else b.expired }

/-- Lets something happen. -/
def apply (b : Bridge) : Incident → Bridge
  | .frame generation frame => b.takeFrame generation frame
  | .dies generation => b.changeInstance generation fun i => { i with alive := false }
  | .forgets generation => b.forget generation
  | .reports generation reason =>
    { b with reports := b.reports ++ [⟨generation, .stopped reason⟩] }
  | .breaks generation => b.changeInstance generation fun i => { i with writable := false }
  | .expires ticket => b.expire ticket

/-- Lets happen what is due at this pause. -/
def elapse (b : Bridge) : Bridge :=
  match b.incidents with
  | [] => b
  | due :: later => due.foldl apply { b with incidents := later }

/-! ## Steps of calls -/

/-- A point at which other things may happen. -/
def pause : Call Unit :=
  modify elapse

/-- Does something to an instance. -/
def perform (deed : Deed) : Call Unit :=
  modify fun b => { b with trace := deed :: b.trace }

/-- Numbers the next request on an instance. -/
def takeNumber (generation : Nat) : Call Nat := do
  let b ← get
  let number := ((b.instances.find? generation).map (·.nextNumber)).getD 1
  set (b.changeInstance generation fun i => { i with nextNumber := number + 1 })
  pure number

/-- Hands a request to the writer of an instance. -/
def send (generation : Nat) (request : Request) : Call Unit := do
  match (← get).instances.find? generation with
  | some ⟨_, true, _⟩ =>
    pause
    match (← get).instances.find? generation with
    | some ⟨_, _, true⟩ => perform (.queued generation request)
    | _ => throw .unavailable
  | _ => throw .unavailable

/-- Sends a command that has no answer. -/
def notify (generation : Nat) (command : Command) : Call Unit := do
  let number ← takeNumber generation
  pause
  send generation ⟨number, command⟩

/-- Sends a command and waits for its answer from now on. -/
def request (generation : Nat) (command : Command) : Call Ticket := do
  let number ← takeNumber generation
  let ticket : Ticket := ⟨generation, number⟩
  pause
  modify fun b => { b with waiting := ticket :: b.waiting }
  pause
  tryCatch (send generation ⟨number, command⟩) fun e => do
    pause
    modify fun b => { b with waiting := b.waiting.filter (· ≠ ticket) }
    throw e
  pure ticket

/-- Lets go of an instance. -/
def release (generation : Nat) : Call Unit := do
  pause
  if ((← get).instances.find? generation).any (·.writable) then
    perform (.released generation)
  modify fun b => b.changeInstance generation fun i => { i with writable := false }
  pause
  modify (·.forget generation)

/-- Opens records on an instance. -/
def openAll (generation : Nat) : List (String × String) → Call Unit
  | [] => pure ()
  | (filename, content) :: rest => do
    notify generation (.openFile ((← get).servicePath filename) content)
    pause
    openAll generation rest

/-- The result of the next launch. -/
def nextLaunch : Call (Option LaunchProblem) := do
  let b ← get
  match b.launches with
  | [] => pure b.hindrance
  | plan :: rest =>
    set { b with launches := rest }
    pure (plan <|> b.hindrance)

/-- Launches an instance, opens every record on it and attaches it. -/
def launch : Call Unit := do
  match ← nextLaunch with
  | some problem => throw (.launch problem)
  | none =>
    let b ← get
    let generation := b.nextGeneration
    set { b with
      nextGeneration := generation + 1
      instances := b.instances.set generation ⟨1, true, true⟩
      findings := .empty }
    perform (.launched generation)
    let records := b.sortedRecords
    openAll generation records
    unless records.isEmpty do
      notify generation
        (.findErrors (records.map fun r => b.servicePath r.1) b.settings.diagnosticsDelay.toNat)
      pause
    modify fun b => { b with attached := some generation }

/-- The attached instance; one that does not work is replaced. -/
def ensure : Call Nat := do
  let b ← get
  unless b.isRunning do
    match b.attached with
    | some dead =>
      set { b with attached := none }
      release dead
    | none => pure ()
    launch
  match (← get).attached with
  | some generation => pure generation
  | none => throw .unavailable

/-! ## Calls -/

/-- Launches an instance if none works. -/
def start : Call Unit := do
  let _ ← ensure

/-- Records the content of a file. -/
def record (filename content : String) : Call Unit :=
  modify fun b => { b with records := b.records.set filename content }

/-- Gives a file new content by closing and opening it. -/
def update (filename content : String) : Call Unit := do
  let b ← get
  let path := b.servicePath filename
  let generation ← ensure
  pause
  if b.isOpen filename then
    notify generation (.closeFile path)
    pause
  notify generation (.openFile path content)
  pause
  record filename content

/-- Opens a file; one that is open gets the new content. -/
def openFile (filename content : String) : Call Unit := do
  let b ← get
  if b.isOpen filename then update filename content
  else
    let generation ← ensure
    pause
    notify generation (.openFile (b.servicePath filename) content)
    pause
    record filename content

/-- Closes a file.  A dead instance has forgotten it already. -/
def closeFile (filename : String) : Call Unit := do
  let b ← get
  if b.isOpen filename then
    set { b with
      records := b.records.erase filename
      findings := b.findings.remove filename }
    match b.attached with
    | some generation =>
      if b.works generation then notify generation (.closeFile (b.servicePath filename))
    | none => pure ()

/-- Has the service look for all files anew. -/
def reload : Call Unit := do
  let generation ← ensure
  pause
  notify generation .reloadProjects

/-- Asks for the findings of those files that are open. -/
def requestDiagnostics (filenames : List String) (delay : Nat) : Call Unit := do
  let b ← get
  let paths := (filenames.filter b.isOpen).map b.servicePath
  unless paths.isEmpty do
    let generation ← ensure
    pause
    notify generation (.findErrors paths delay)

/-- Moves a record to another filename, and asks for all findings anew. -/
def rename (old new content : String) : Call Unit := do
  let b ← get
  let generation ← ensure
  pause
  if b.isOpen old then
    notify generation (.closeFile (b.servicePath old))
    pause
  notify generation (.openFile (b.servicePath new) content)
  pause
  modify fun b => { b with
    records := (b.records.erase old).set new content
    findings := b.findings.remove old }
  reload
  pause
  let b ← get
  requestDiagnostics b.openFiles b.settings.diagnosticsDelay.toNat

/-- Asks about a place in an open file. -/
def navigate (navigation : Navigation) (filename : String) (offset : Nat) :
    Call Ticket := do
  let b ← get
  match b.records.find? filename with
  | none => throw (.notOpen filename)
  | some content =>
    let position := Position.ofOffset content offset
    let generation ← ensure
    pause
    request generation (.navigate navigation (b.servicePath filename) position)

/-- Stops the service.  The records stay, so that a later call can bring it back. -/
def shutdown : Call Unit := do
  let b ← get
  match b.attached with
  | some generation =>
    set { b with attached := none }
    release generation
  | none => pure ()
  modify fun b => { b with findings := .empty }

/-- Makes the open files those of a list: closes all others, and opens every file of the
list with its content. -/
def adopt (wanted : List (String × String)) : Call Unit := do
  let extra := (← get).openFiles.filter fun filename => !(wanted.any fun w => w.1 == filename)
  extra.forM closeFile
  wanted.forM fun (filename, content) => openFile filename content

/-- Gives a file new content and asks for the findings of several files anew. -/
def resync (filename content : String) (filenames : List String) : Call Unit := do
  update filename content
  let b ← get
  requestDiagnostics filenames b.settings.diagnosticsDelay.toNat

/-- A bridge in the place of one that was given up.  It knows nothing but which
instances there have been. -/
def renew (b : Bridge) : Bridge :=
  { b with attached := none, records := .empty, findings := .empty, reports := [] }

/-! ## Reports and answers -/

/-- What a round of findings means. -/
def takeFindings (b : Bridge) (pass : Pass) (body : Json) : Option BridgeEvent × Bridge :=
  match RawFinding.report? body with
  | none => (none, b)
  | some (path, raw) =>
    match Path.filenameIn? b.sourceDir path with
    | none => (none, b)
    | some filename =>
      if b.isOpen filename then
        let items := Findings.normalize b.settings pass raw
        match pass with
        | .suggestion => (some (.suggestions filename items), b)
        | pass =>
          let (all, findings) := b.findings.update filename pass items
          (some (.diagnostics filename all), { b with findings })
      else (none, b)

/-- Takes a report.  One of an instance that is not attached means nothing, and neither
do findings in a file that is not open. -/
def handle (b : Bridge) (report : Report) : Option BridgeEvent × Bridge :=
  if b.attached = some report.generation then
    match report.kind with
    | .stopped reason => (some (.stopped reason), { b with findings := .empty })
    | .event name body =>
      match Pass.ofEvent? name, body with
      | some pass, some body => b.takeFindings pass body
      | _, _ => (none, b)
  else (none, b)

/-- What has become of a request. -/
inductive Outcome where
  | pending
  | answered (frame : Json)
  | expired
  | turnedAway
  deriving Repr, Inhabited

/-- What has become of a request. -/
def outcome (b : Bridge) (ticket : Ticket) : Outcome :=
  match b.answered.find? ticket with
  | some frame => .answered frame
  | none =>
    if ticket ∈ b.waiting then .pending
    else if ticket ∈ b.expired then .expired
    else .turnedAway

/-- The answer to a request.  Whoever still waits has waited long enough. -/
def collect (b : Bridge) (ticket : Ticket) (navigation : Navigation) :
    Except BridgeError Answer × Bridge :=
  match b.outcome ticket with
  | .answered frame => (.ok (.ofResponse navigation b.sourceDir frame), b)
  | .turnedAway => (.error .unavailable, b)
  | .expired => (.error (.timeout (Command.navigationName navigation)), b)
  | .pending =>
    (.error (.timeout (Command.navigationName navigation)), b.apply (.expires ticket))

end Bridge
end Notebook
