import Notebook.Coordinator
import Notebook.Proofs.Actor.Announcements

/-!
# Runs of an actor

A `Site` is the actor of one session with everything that it works with: its mailbox, the
disk, the supervisor, which it shares with other sessions, and for each process that it has
started a watcher, which passes on the output and at last the exit.

`Site.step` lets one thing happen: a letter comes in or is handled, the service reports
something or dies, a process reads, writes or exits, somebody else writes to the disk or
runs processes for another session.  Events that are not due change nothing, so a run is
any list of events, and `Site.run` covers every order in which they can come.

* `Site.turn_step`: what a step does, one constructor of `Site.Turn` for each kind of event.
* `Site.run_preserves`, `Site.run_invariant`: what every step, or every turn, preserves holds
  after every run.
* `Site.prefix_log_run`: what has been done stays done.
-/

set_option autoImplicit false

namespace Notebook

/-- Somebody who passes on what a process of a cell does. -/
structure Watcher where
  cell : CellId
  pid : Nat
  purpose : Purpose
  deriving DecidableEq, Repr, Inhabited

/-- The actor of a session with everything that it works with. -/
structure Site where
  facilities : Facilities
  spawner : Spawner
  disk : Disk
  supervisor : Supervisor
  actor : Actor
  /-- Letters that have not been handled yet. -/
  mailbox : List Letter
  /-- It still handles letters. -/
  alive : Bool
  /-- The watchers by the generations of their processes. -/
  watchers : Table Nat Watcher
  /-- What has been done, in order. -/
  log : List Effect

namespace Site

/-- Something that happens at a site. -/
inductive Event where
  /-- A client sends an intent. -/
  | send (client : ConnectionId) (intent : Intent)
  | ask (call : Nat)
  | close (call : Nat)
  /-- The actor handles its next letter. -/
  | work
  /-- The actor takes the next report of its service. -/
  | hear
  /-- The fate of a request is known, and its inquiry becomes a letter. -/
  | conclude (index : Nat)
  | happens (incident : Incident)
  | plan (hindrance : Option LaunchProblem) (launches : List (Option LaunchProblem))
      (incidents : List (List Incident))
  /-- A pump or a monitor takes a step. -/
  | process (generation : Nat) (what : Supervisor.Step)
  /-- A watcher passes on the next event of its process. -/
  | pass (generation : Nat)
  /-- Somebody runs a process for another session. -/
  | elsewhere (key : ProcessKey) (pid : Nat)
  /-- Somebody writes to the disk. -/
  | disturb (disk : Disk)
  /-- Other programs can be started, and other pids are free. -/
  | respawn (spawner : Spawner)

/-- The actor of a session that has just been opened. -/
def opened (facilities : Facilities) (spawner : Spawner) (disk : Disk)
    (supervisor : Supervisor) (session : Session) : Site where
  facilities
  spawner
  disk
  supervisor
  actor := .new facilities session
  mailbox := []
  alive := true
  watchers := .empty
  log := []

/-- The room in which the actor works next. -/
def room (s : Site) : Room :=
  ⟨s.facilities, s.spawner, s.disk, s.supervisor, s.actor, []⟩

/-- Every process that is started gets a watcher. -/
def enroll (watchers : Table Nat Watcher) : Effect → Table Nat Watcher
  | .spawned generation pid request purpose =>
    watchers.set generation ⟨request.key.cell, pid, purpose⟩
  | _ => watchers

/-- What has happened in the room of the actor. -/
def leave (s : Site) (mailbox : List Letter) (alive : Bool) (r : Room) : Site :=
  { s with
    disk := r.disk
    supervisor := r.supervisor
    actor := r.actor
    mailbox := if alive then mailbox else []
    alive
    watchers := r.effects.foldl enroll s.watchers
    log := s.log ++ r.effects }

/-- Adds a letter to the mailbox of an actor that still handles letters. -/
def post (s : Site) (letter : Letter) : Site :=
  if s.alive then { s with mailbox := s.mailbox ++ [letter] } else s

/-- Lets the actor handle its next letter. -/
def work (s : Site) : Site :=
  match s.alive, s.mailbox with
  | true, letter :: rest => s.leave rest (s.room.receive letter).1 (s.room.receive letter).2
  | _, _ => s

/-- Lets the actor take the next report of its service. -/
def hear (s : Site) : Site :=
  if s.alive then s.leave s.mailbox true s.room.hearNext else s

/-- Turns an inquiry whose fate is known into a letter. -/
def conclude (s : Site) (index : Nat) : Site :=
  match s.actor.inquiries[index]? with
  | none => s
  | some inquiry =>
    match s.actor.conclude inquiry with
    | none => s
    | some letter =>
      { s with actor.inquiries := s.actor.inquiries.eraseIdx index }.post letter

/-- Changes what is known about service instances. -/
def withLedger (s : Site) (b : Bridge) : Site :=
  { s with actor := s.actor.withLedger b }

/-- Lets a watcher pass on the next event of its process. -/
def pass (s : Site) (generation : Nat) : Site :=
  match s.watchers.find? generation, s.supervisor.nextEvent? generation with
  | some w, some (.output stream text) =>
    { s with
      supervisor := s.supervisor.step generation .take
      log := s.log ++ [.notice (.output w.cell stream text)] }
  | some w, some (.exited info) =>
    { s with
      supervisor := s.supervisor.step generation .take
      watchers := s.watchers.erase generation }.post
      (.exited w.cell w.pid w.purpose info)
  | _, _ => s

/-- Lets something happen.  Only its watcher takes the events of a process. -/
def step (s : Site) : Event → Site
  | .send client intent => s.post (.intent client intent)
  | .ask call => s.post (.snapshot call)
  | .close call => s.post (.close call)
  | .work => s.work
  | .hear => s.hear
  | .conclude index => s.conclude index
  | .happens incident => s.withLedger (s.actor.ledger.apply incident)
  | .plan hindrance launches incidents =>
    s.withLedger { s.actor.ledger with hindrance, launches, incidents }
  | .process generation what =>
    if (what = .take ∨ what = .leave) ∧ s.watchers.contains generation then s
    else { s with supervisor := s.supervisor.step generation what }
  | .pass generation => s.pass generation
  | .elsewhere key pid =>
    if key.session = s.actor.session.id then s
    else { s with supervisor := s.supervisor.act (.start key pid) }
  | .disturb disk => { s with disk }
  | .respawn spawner => { s with spawner }

/-- Lets several things happen. -/
def run (s : Site) (events : List Event) : Site :=
  events.foldl step s

@[simp]
theorem session_withLedger (s : Site) (b : Bridge) :
    (s.withLedger b).actor.session = s.actor.session := by
  simp only [withLedger, Actor.withLedger]
  split <;> rfl

@[simp]
theorem runs_withLedger (s : Site) (b : Bridge) :
    (s.withLedger b).actor.runs = s.actor.runs := by
  simp only [withLedger, Actor.withLedger]
  split <;> rfl

/-! ## What a step does -/

/-- What an event does to a site, if it is due. -/
inductive Turn (s : Site) : Site → Prop where
  | idle : Turn s s
  | posted (letter : Letter)
    (hletter : ∀ cell pid purpose info, letter ≠ .exited cell pid purpose info) :
    Turn s (s.post letter)
  | worked (letter : Letter) (rest : List Letter) (halive : s.alive = true)
    (hmailbox : s.mailbox = letter :: rest) :
    Turn s (s.leave rest (s.room.receive letter).1 (s.room.receive letter).2)
  | heard (halive : s.alive = true) : Turn s (s.leave s.mailbox true s.room.hearNext)
  | concluded (index : Nat) (inquiry : Inquiry) (letter : Letter)
    (hinquiry : s.actor.inquiries[index]? = some inquiry)
    (hletter : s.actor.conclude inquiry = some letter) :
    Turn s ({ s with actor.inquiries := s.actor.inquiries.eraseIdx index }.post letter)
  | happened (incident : Incident) : Turn s (s.withLedger (s.actor.ledger.apply incident))
  | planned (hindrance : Option LaunchProblem) (launches : List (Option LaunchProblem))
    (incidents : List (List Incident)) :
    Turn s (s.withLedger { s.actor.ledger with hindrance, launches, incidents })
  | processed (generation : Nat) (what : Supervisor.Step)
    (hwatcher : what = .take ∨ what = .leave → s.watchers.find? generation = none) :
    Turn s { s with supervisor := s.supervisor.step generation what }
  | printed (generation : Nat) (w : Watcher) (stream : OutputStream) (text : String)
    (hw : s.watchers.find? generation = some w)
    (hevent : s.supervisor.nextEvent? generation = some (.output stream text)) :
    Turn s { s with
      supervisor := s.supervisor.step generation .take
      log := s.log ++ [.notice (.output w.cell stream text)] }
  | passed (generation : Nat) (w : Watcher) (info : ExitInfo)
    (hw : s.watchers.find? generation = some w)
    (hevent : s.supervisor.nextEvent? generation = some (.exited info)) :
    Turn s ({ s with
      supervisor := s.supervisor.step generation .take
      watchers := s.watchers.erase generation }.post
      (.exited w.cell w.pid w.purpose info))
  | elsewhere (key : ProcessKey) (pid : Nat) (hkey : key.session ≠ s.actor.session.id) :
    Turn s { s with supervisor := s.supervisor.act (.start key pid) }
  | disturbed (disk : Disk) : Turn s { s with disk }
  | respawned (spawner : Spawner) : Turn s { s with spawner }

/-- Every step is a turn. -/
theorem turn_step (s : Site) (e : Event) : s.Turn (s.step e) := by
  cases e with
  | send client intent => exact .posted _ fun _ _ _ _ h => by cases h
  | ask call => exact .posted _ fun _ _ _ _ h => by cases h
  | close call => exact .posted _ fun _ _ _ _ h => by cases h
  | work =>
      simp only [step, work]
      split
      · next letter rest halive hmailbox => exact .worked letter rest halive hmailbox
      · exact .idle
  | hear =>
      simp only [step, hear]
      split
      · next halive => exact .heard halive
      · exact .idle
  | conclude index =>
      simp only [step, conclude]
      split
      · exact .idle
      · next inquiry hinquiry =>
          split
          · exact .idle
          · next letter hletter => exact .concluded index inquiry letter hinquiry hletter
  | happens incident => exact .happened incident
  | plan hindrance launches incidents => exact .planned hindrance launches incidents
  | process generation what =>
      simp only [step]
      split
      · exact .idle
      · next hdue =>
          refine .processed generation what fun hwhat => ?_
          rw [← Table.contains_eq_false_iff, ← Bool.not_eq_true]
          exact fun hwatched => hdue ⟨hwhat, hwatched⟩
  | pass generation =>
      simp only [step, pass]
      split
      · next w stream text hw hevent => exact .printed generation w stream text hw hevent
      · next w info hw hevent => exact .passed generation w info hw hevent
      · exact .idle
  | elsewhere key pid =>
      simp only [step]
      split
      · exact .idle
      · next hkey => exact .elsewhere key pid hkey
  | disturb disk => exact .disturbed disk
  | respawn spawner => exact .respawned spawner

/-- What every step preserves holds after every run. -/
theorem run_preserves {P : Site → Prop} (hstep : ∀ s e, P s → P (step s e))
    (events : List Event) {s : Site} (hs : P s) : P (s.run events) := by
  induction events generalizing s with
  | nil => exact hs
  | cons e rest ih => exact ih (hstep s e hs)

/-- What every turn preserves holds after every run. -/
theorem run_invariant {P : Site → Prop} (hturn : ∀ s s', Turn s s' → P s → P s')
    (events : List Event) {s : Site} (hs : P s) : P (s.run events) :=
  run_preserves (fun s e => hturn s _ (turn_step s e)) events hs

/-! ## The log -/

@[simp]
theorem log_post (s : Site) (letter : Letter) : (s.post letter).log = s.log := by
  unfold post
  split <;> rfl

@[simp]
theorem actor_post (s : Site) (letter : Letter) : (s.post letter).actor = s.actor := by
  unfold post
  split <;> rfl

/-- What has been done stays done. -/
theorem Turn.prefix_log {s s' : Site} (h : s.Turn s') : s.log <+: s'.log := by
  cases h with
  | posted letter _ =>
      exact (log_post _ _).symm ▸ List.prefix_rfl
  | worked letter rest halive hmailbox => exact List.prefix_append _ _
  | heard halive => exact List.prefix_append _ _
  | concluded index inquiry letter hinquiry hletter =>
      exact (log_post _ _).symm ▸ List.prefix_rfl
  | printed generation w stream text hw hevent => exact List.prefix_append _ _
  | passed generation w info hw hevent =>
      exact (log_post _ _).symm ▸ List.prefix_rfl
  | _ => exact List.prefix_rfl

theorem prefix_log_run (events : List Event) (s : Site) : s.log <+: (s.run events).log := by
  induction events generalizing s with
  | nil => exact List.prefix_rfl
  | cons e rest ih => exact (turn_step s e).prefix_log.trans (ih (s.step e))

/-- What is done in a run. -/
def effects (s : Site) (events : List Event) : List Effect :=
  (s.run events).log.drop s.log.length

theorem log_run (s : Site) (events : List Event) :
    (s.run events).log = s.log ++ s.effects events := by
  obtain ⟨told, htold⟩ := prefix_log_run events s
  rw [effects, ← htold, List.drop_left]

theorem effects_eq {s : Site} {events : List Event} {told : List Effect}
    (h : (s.run events).log = s.log ++ told) : s.effects events = told :=
  List.append_cancel_left ((log_run s events).symm.trans h)

theorem effects_nil (s : Site) : s.effects [] = [] :=
  effects_eq (List.append_nil _).symm

theorem effects_append (s : Site) (events events' : List Event) :
    s.effects (events ++ events') = s.effects events ++ (s.run events).effects events' := by
  refine effects_eq ?_
  rw [← List.append_assoc, ← log_run, ← log_run, run, run, run, List.foldl_append]

theorem effects_cons (s : Site) (e : Event) (rest : List Event) :
    s.effects (e :: rest) = s.effects [e] ++ (s.step e).effects rest :=
  effects_append s [e] rest

/-! ## Liveness of the actor -/

@[simp]
theorem alive_post (s : Site) (letter : Letter) : (s.post letter).alive = s.alive := by
  unfold post
  split <;> rfl

/-- An actor that does not handle letters any more does not begin to again. -/
theorem Turn.alive {s s' : Site} (h : s.Turn s') (halive : s'.alive = true) :
    s.alive = true := by
  cases h with
  | posted letter _ => rwa [alive_post] at halive
  | worked letter rest halive' _ => exact halive'
  | heard halive' => exact halive'
  | concluded index inquiry letter hinquiry hletter => rwa [alive_post] at halive
  | passed generation w info hw hevent => rwa [alive_post] at halive
  | _ => exact halive

theorem alive_of_run (events : List Event) {s : Site} (halive : (s.run events).alive = true) :
    s.alive = true := by
  induction events generalizing s with
  | nil => exact halive
  | cons e rest ih => exact (turn_step s e).alive (ih halive)

end Site
end Notebook
