import Notebook.Actor.Step

/-!
# The coordinator

The coordinator keeps the table of open sessions.  Each entry leads to a resident, which
is an actor with its mailbox; a mailbox takes a bounded number of letters.

Opening and closing take several steps, and anything may happen between two of them.  A
session is opened by looking whether it is in the table, writing its files, looking again
and entering it.  It is closed by taking it out of the table, sending the actor a last
letter and waiting until the actor has worked it off.  An `Errand` is such a call on its
way, and `Coordinator.advance` takes it a step further.
-/

set_option autoImplicit false

namespace Notebook

/-- Why a call fails. -/
inductive CoordinatorError where
  | sessionExists (session : SessionId)
  | unknownSession (session : SessionId)
  | sessionGone (session : SessionId)
  | prepare (dir : String) (problem : Disk.Problem)
  deriving DecidableEq, Repr

/-- The wording of an error. -/
def CoordinatorError.message : CoordinatorError → String
  | .sessionExists session => s!"session {session.text} is already open"
  | .unknownSession session => s!"session {session.text} is not open"
  | .sessionGone session => s!"session {session.text} stopped before answering"
  | .prepare dir problem => s!"failed to prepare {dir}: {problem.message}"

/-- Why an intent does not reach its session. -/
inductive Rejection where
  | notOpen (session : SessionId)
  | busy (session : SessionId)
  | closing (session : SessionId)
  deriving DecidableEq, Repr

/-- The wording of a rejection. -/
def Rejection.message : Rejection → String
  | .notOpen session => s!"session {session.text} is not open"
  | .busy session => s!"session {session.text} is busy"
  | .closing session => s!"session {session.text} is closing"

/-- An actor with the letters that it has not handled yet. -/
structure Resident where
  actor : Actor
  mailbox : List Letter
  /-- It still handles letters. -/
  alive : Bool
  deriving Inhabited

/-- A call on its way. -/
inductive Errand where
  /-- The session was not open; its files are to be written. -/
  | prepare (session : Session)
  /-- The files are written; the session is to be entered. -/
  | enter (session : Session)
  /-- Residents are to be closed, one after the other. -/
  | close (residents : List Nat) (final : Bool)
  /-- The first of the residents has got its last letter. -/
  | closing (residents : List Nat) (final : Bool)
  /-- A resident is to be asked for its cells. -/
  | ask (session : SessionId) (resident : Nat)
  /-- A resident has been asked for its cells. -/
  | asking (session : SessionId) (resident : Nat)
  | finished (result : Except CoordinatorError (List Cell))

/-- Something that has been done. -/
inductive LogEntry where
  | effect (resident : Nat) (session : SessionId) (effect : Effect)
  /-- These processes are ended at once. -/
  | killed (pids : List Nat)
  deriving DecidableEq, Repr

/-- The open sessions, and everything that they share. -/
structure Coordinator where
  facilities : Facilities
  spawner : Spawner
  disk : Disk
  supervisor : Supervisor
  /-- The resident of each open session. -/
  table : Table SessionId Nat
  residents : Table Nat Resident
  errands : Table Nat Errand
  /-- What has been done, in order. -/
  log : List LogEntry

namespace Coordinator

/-- How many letters a mailbox takes. -/
def mailboxCapacity : Nat := 64

/-- A coordinator without sessions. -/
def new (facilities : Facilities) (spawner : Spawner) (disk : Disk)
    (supervisor : Supervisor) : Coordinator :=
  ⟨facilities, spawner, disk, supervisor, .empty, .empty, .empty, []⟩

/-! ## Views -/

/-- The open sessions in order. -/
def sessionIds (c : Coordinator) : List SessionId :=
  c.table.keys.mergeSort fun a b => !decide (b.text < a.text)

/-- Whether a session is open. -/
def isOpen (c : Coordinator) (session : SessionId) : Bool :=
  c.table.contains session

/-- Whether a resident still handles letters. -/
def isAlive (c : Coordinator) (resident : Nat) : Bool :=
  (c.residents.find? resident).any (·.alive)

/-- Changes a resident. -/
def change (c : Coordinator) (resident : Nat) (f : Resident → Resident) : Coordinator :=
  match c.residents.find? resident with
  | some r => { c with residents := c.residents.set resident (f r) }
  | none => c

/-- Adds a letter to the mailbox of a resident.  One that handles no letters gets none. -/
def post (c : Coordinator) (resident : Nat) (letter : Letter) : Coordinator :=
  c.change resident fun r =>
    if r.alive then { r with mailbox := r.mailbox ++ [letter] } else r

/-- Whether the mailbox of a resident takes a letter. -/
def hasRoom (c : Coordinator) (resident : Nat) : Bool :=
  (c.residents.find? resident).any fun r => r.mailbox.length < mailboxCapacity

/-! ## Intents -/

/-- Hands an intent to its session. -/
def dispatch (c : Coordinator) (sender : ConnectionId) (message : Message) :
    Option Rejection × Coordinator :=
  match c.table.find? message.session with
  | none => (some (.notOpen message.session), c)
  | some resident =>
    if !c.isAlive resident then (some (.closing message.session), c)
    else if c.hasRoom resident then (none, c.post resident (.intent sender message.intent))
    else (some (.busy message.session), c)

/-! ## Calls -/

/-- Starts a call. -/
def begin (c : Coordinator) (errand : Errand) : Nat × Coordinator :=
  let call := c.errands.size
  (call, { c with errands := c.errands.set call errand })

/-- Starts to open a session. -/
def beginOpen (c : Coordinator) (session : Session) : Nat × Coordinator :=
  if c.isOpen session.id then c.begin (.finished (.error (.sessionExists session.id)))
  else c.begin (.prepare session)

/-- Starts to close a session. -/
def beginClose (c : Coordinator) (session : SessionId) : Nat × Coordinator :=
  match c.table.find? session with
  | some resident =>
    { c with table := c.table.erase session }.begin (.close [resident] false)
  | none => c.begin (.finished (.error (.unknownSession session)))

/-- Starts to close all sessions and to end all processes. -/
def beginShutdown (c : Coordinator) : Nat × Coordinator :=
  let residents := c.table.entries.map fun entry => entry.2
  { c with table := .empty }.begin (.close residents true)

/-- Starts to ask for the cells of a session. -/
def beginCells (c : Coordinator) (session : SessionId) : Nat × Coordinator :=
  match c.table.find? session with
  | some resident => c.begin (.ask session resident)
  | none => c.begin (.finished (.error (.unknownSession session)))

/-- Moves a call on. -/
def put (c : Coordinator) (call : Nat) (errand : Errand) : Coordinator :=
  { c with errands := c.errands.set call errand }

/-- Writes the files of a session that is to be opened. -/
def prepare (c : Coordinator) (call : Nat) (session : Session) : Coordinator :=
  let (problem, disk) := FileDeed.runAll c.disk session.preparing
  { c with disk }.put call <|
    match problem with
    | some problem => .finished (.error (.prepare session.dir problem))
    | none => .enter session

/-- Enters a session that nobody has opened in the meantime. -/
def enter (c : Coordinator) (call : Nat) (session : Session) : Coordinator :=
  if c.isOpen session.id then
    c.put call (.finished (.error (.sessionExists session.id)))
  else
    let resident := c.residents.size
    { c with
      table := c.table.set session.id resident
      residents := c.residents.set resident ⟨.new c.facilities session, [], true⟩ }.put call
        (.finished (.ok []))

/-- Ends all processes that the supervisor knows. -/
def killAll (c : Coordinator) : Coordinator :=
  { c with log := c.log ++ [.killed c.supervisor.killAll] }

/-- Sends a letter on behalf of a call, if it can be taken. -/
def send (c : Coordinator) (call resident : Nat) (letter : Letter) (next : Errand)
    (gone : Coordinator → Coordinator) : Coordinator :=
  if c.isAlive resident then
    if c.hasRoom resident then (c.post resident letter).put call next else c
  else gone c

/-- Takes a call a step further, if nothing is in its way. -/
def advance (c : Coordinator) (call : Nat) : Coordinator :=
  match c.errands.find? call with
  | none => c
  | some (.prepare session) => c.prepare call session
  | some (.enter session) => c.enter call session
  | some (.close [] final) =>
    (if final then c.killAll else c).put call (.finished (.ok []))
  | some (.close (resident :: rest) final) =>
    c.send call resident (.close call) (.closing (resident :: rest) final)
      (·.put call (.close rest final))
  | some (.closing residents final) =>
    if residents.head?.any c.isAlive then c else c.put call (.close residents.tail final)
  | some (.ask session resident) =>
    c.send call resident (.snapshot call) (.asking session resident)
      (·.put call (.finished (.error (.sessionGone session))))
  | some (.asking session resident) =>
    if c.isAlive resident then c
    else c.put call (.finished (.error (.sessionGone session)))
  | some (.finished _) => c

/-- The result of a call that is finished. -/
def result? (c : Coordinator) (call : Nat) : Option (Except CoordinatorError (List Cell)) :=
  match c.errands.find? call with
  | some (.finished result) => some result
  | _ => none

/-! ## Residents -/

/-- The room of a resident. -/
def room (c : Coordinator) (actor : Actor) : Room :=
  ⟨c.facilities, c.spawner, c.disk, c.supervisor, actor, []⟩

/-- An answer to a call ends it. -/
def reply (c : Coordinator) : Effect → Coordinator
  | .snapshot call cells => c.put call (.finished (.ok cells))
  | _ => c

/-- What has happened in the room of a resident. -/
def leave (c : Coordinator) (resident : Nat) (mailbox : List Letter) (alive : Bool)
    (room : Room) : Coordinator :=
  room.effects.foldl reply { c with
    disk := room.disk
    supervisor := room.supervisor
    residents := c.residents.set resident ⟨room.actor, if alive then mailbox else [], alive⟩
    log := c.log ++ room.effects.map (.effect resident room.actor.session.id) }

/-- Lets a resident handle its next letter. -/
def work (c : Coordinator) (resident : Nat) : Coordinator :=
  match c.residents.find? resident with
  | some ⟨actor, letter :: rest, true⟩ =>
    let (alive, room) := (c.room actor).receive letter
    c.leave resident rest alive room
  | _ => c

/-- Lets a resident take the next report of its service. -/
def hear (c : Coordinator) (resident : Nat) : Coordinator :=
  match c.residents.find? resident with
  | some ⟨actor, mailbox, true⟩ => c.leave resident mailbox true (c.room actor).hearNext
  | _ => c

/-- Turns those inquiries of a resident into letters whose fate is known. -/
def conclude (c : Coordinator) (resident : Nat) : Coordinator :=
  c.change resident fun r =>
    let (letters, actor) := r.actor.concludeAll
    { r with actor, mailbox := r.mailbox ++ letters }

end Coordinator
end Notebook
