import Notebook.Engine.Service

/-!
# Work of the engine

`settle` lets residents, services and forwarders work until nothing moves; no time passes
for the processes.  `await` lets processes work as well, until a client has received a
certain frame.
-/

set_option autoImplicit false

namespace Notebook
namespace Engine

/-! ## Residents -/

/-- Lets a resident do something, with the plans for launches that hold now.  It waits for
the processes of its service before it says what it has done. -/
def step (e : Engine) (resident : Nat) (f : Coordinator → Coordinator) : Engine :=
  match e.ledger? resident with
  | none => e
  | some b =>
    let e := e.withLedger resident
      { b with launches := e.launches, hindrance := e.hindrance b.projectDir }
    let ((), log, e) := e.consult fun c => ((), f c)
    let e := log.foldl applyEntry (e.attend resident)
    { e with launches := ((e.ledger? resident).map (·.launches)).getD e.launches }

/-- The letters and reports that a resident has before it, if it is alive. -/
def waiting (e : Engine) (resident : Nat) : Nat × Nat :=
  match e.coordinator.residents.find? resident with
  | some ⟨actor, mailbox, true⟩ =>
    (mailbox.length, ((actor.bridge.map (·.reports)).getD []).length)
  | _ => (0, 0)

/-- Sets deadlines for new inquiries of a resident. -/
def setDeadlines (e : Engine) (resident : Nat) : Engine :=
  match e.coordinator.residents.find? resident with
  | none => e
  | some r =>
    let due := e.host.machine.now + 1000 * e.coordinator.facilities.service.requestTimeout.toNat
    let tickets := r.actor.inquiries.filterMap (·.ticket)
    { e with deadlines := tickets.foldl (fun t ticket =>
        if t.contains (resident, ticket) then t else t.set (resident, ticket) due) e.deadlines }

/-- Lets a resident work off its letters and reports; the answer says whether there was
anything to do. -/
def settleResident (e : Engine) (resident : Nat) : Bool × Engine :=
  let (letters, _) := e.waiting resident
  let e := letters.repeat (fun e => e.step resident (·.work resident)) e
  let known := ((e.ledger? resident).map (·.trace.length)).getD 0
  let fresh := known - (e.stage resident).arrived
  let e := e.exchange resident
  let (_, reports) := e.waiting resident
  let e := reports.repeat (fun e => e.step resident (·.hear resident)) e
  let e := (e.direct (·.conclude resident)).setDeadlines resident
  let (more, left) := e.waiting resident
  (0 < letters + fresh + reports + more + left, e)

/-- Lets all residents work until nothing moves. -/
def settleFor (e : Engine) (fuel : Nat) (moved : Bool) : Bool × Engine :=
  match fuel with
  | 0 => (moved, e)
  | fuel + 1 =>
    let (more, e) := e.coordinator.residents.keys.foldl (fun (moved, e) resident =>
      let (more, e) := e.settleResident resident
      (moved || more, e)) (false, e)
    if more then e.settleFor fuel true else (moved, e)

/-- Lets all residents work until nothing moves; the answer says whether anything did. -/
def settle (e : Engine) : Bool × Engine :=
  e.settleFor Host.patience false

/-! ## Calls -/

/-- Lets a call go on until it is finished. -/
def finish (fuel : Nat) (e : Engine) (call : Nat) :
    Except CoordinatorError (List Cell) × Engine :=
  match e.coordinator.result? call with
  | some result => (result, e)
  | none =>
    match fuel with
    | 0 => (.ok [], e)
    | fuel + 1 => finish fuel (e.direct (·.advance call)).settle.2 call

/-- Makes a call and waits for its end. -/
def call (e : Engine) (start : Coordinator → Nat × Coordinator) :
    Except CoordinatorError (List Cell) × Engine :=
  let (call, e) := e.coordinate start
  e.finish Host.patience call

/-! ## Clients -/

/-- Hands in a frame of a client. -/
def handIn (e : Engine) (c : ConnectionId) (text : String) : Engine :=
  let (hub, coordinator) := e.hub.handleText (fun sender message coordinator =>
    let (rejection, coordinator) := coordinator.dispatch sender message
    (rejection.map (·.message), coordinator)) c text e.coordinator
  { e with hub, coordinator }

/-- Lets all clients receive what has come; the answer lists it. -/
def receive (e : Engine) : List (ConnectionId × String) × Engine :=
  e.hub.inboxes.keys.foldl (fun (news, e) c =>
    let (frames, _, hub) := e.hub.receive c none
    (news ++ frames.map (c, ·),
      { e with
        hub
        received := if frames.isEmpty then e.received
          else e.received.set c (((e.received.find? c).getD []) ++ frames) })) ([], e)

/-! ## Processes -/

/-- Gives up waiting for answers that are overdue. -/
def expire (e : Engine) : Engine :=
  e.deadlines.entries.foldl (fun e ((resident, ticket), due) =>
    if due ≤ e.host.machine.now then
      let e := { e with deadlines := e.deadlines.erase (resident, ticket) }
      match e.ledger? resident with
      | some b => e.withLedger resident (b.apply (.expires ticket))
      | none => e
    else e) e

/-- Lets everything work once; the answer says whether anything moved. -/
def tick (e : Engine) : Bool × Engine :=
  let (a, host) := e.host.tick
  let (b, e) := { e with host }.forward
  let (c, e) := e.serveProcesses
  let (d, e) := e.expire.settle
  (a || b || c || d, e)

/-- When something is due that nothing else brings about. -/
def nextDue (e : Engine) : Option Nat :=
  (e.host.nextDue.toList ++ e.deadlines.entries.map fun entry => entry.2).min?

/-- Works on until a client has received a frame that `wanted` picks, or until a time has
come; the answer says whether there was such a frame. -/
def awaitFor (e : Engine) (fuel limit : Nat) (wanted : ConnectionId → String → Bool) :
    Bool × Engine :=
  match fuel with
  | 0 => (false, e)
  | fuel + 1 =>
    let (news, e) := e.receive
    if news.any fun (c, frame) => wanted c frame then (true, e)
    else
      let (moved, e) := e.tick
      if moved then
        if limit < e.host.machine.now then (false, e) else e.awaitFor fuel limit wanted
      else
        match e.nextDue with
        | some due =>
          if due ≤ limit then
            { e with host := e.host.setClock due }.awaitFor fuel limit wanted
          else (false, e)
        | none => (false, e)

/-- Works on until a client has received a frame that `wanted` picks. -/
def await (e : Engine) (wanted : ConnectionId → String → Bool) : Bool × Engine :=
  e.awaitFor Host.patience (e.host.machine.now + Host.waitingTime) wanted

end Engine
end Notebook
