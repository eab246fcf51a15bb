import Notebook.Coordinator
import Notebook.Proofs.Actor.Site

/-!
# Residents and their sites

The coordinator shares one disk and one supervisor among its residents.  What it does is,
as a resident sees it, a run of a `Site`: the letters and reports of the resident itself,
the calls that reach its mailbox, and in between what the others do to the disk and to the
supervisor.  So what holds after every run of a site holds of every resident.

The others start processes as well, and for the site these are processes of other
sessions.  `Apart` says that this is so: no other resident that still handles letters has
the name of the session.  It can fail for a session that is opened again before its old
resident has handled its last letter.

* `Room.receive_starts`, `Room.hearNext_starts`: an actor starts processes of its own
  session only.
* `Move.follows`: a move of the coordinator is a run of the site of a resident.
* `Moves.opened`: after any moves, the site of a resident is that of its session when it
  was opened, after a run.
-/

set_option autoImplicit false

namespace Notebook

/-! ## Processes of a session -/

/-- Processes of a session have been started, and nothing else has happened. -/
inductive Supervisor.Starts (session : SessionId) (s : Supervisor) : Supervisor → Prop where
  | refl : Starts session s s
  | tail {s' : Supervisor} (h : Starts session s s') (cell : CellId) (pid : Nat) :
    Starts session s (s'.act (.start ⟨session, cell⟩ pid))

theorem Supervisor.act_start {s : Supervisor} {key : ProcessKey}
    (hfree : s.isRunning key = false) (pid : Nat) :
    s.act (.start key pid) = s.started key pid := by
  simp only [act]
  rcases run_cases s key (fun world : Unit => (.ok pid, world)) () with
    ⟨hbusy, _⟩ | ⟨_, ⟨_, hspawn, _⟩ | ⟨pid', hspawn, heq⟩⟩
  · rw [hfree] at hbusy
    cases hbusy
  · cases hspawn
  · obtain rfl := Except.ok.inj hspawn
    rw [heq]

namespace Room

/-- The session has this name, and since the supervisor was `s` only processes of this
session have been started. -/
structure Starts (session : SessionId) (s : Supervisor) (r : Room) : Prop where
  id : r.actor.session.id = session
  supervisor : s.Starts session r.supervisor

variable {session : SessionId} {s : Supervisor} {r r' : Room}

theorem Quiet.starts (h : Quiet r r') (hr : r.Starts session s) : r'.Starts session s :=
  ⟨h.session ▸ hr.id, h.supervisor ▸ hr.supervisor⟩

theorem Edited.starts (h : Edited r r') (hr : r.Starts session s) : r'.Starts session s := by
  obtain ⟨session', n, r₁, hannounces, _, hsilent, rfl⟩ := h
  have hedited : (r.withSession session').Starts session s :=
    ⟨hannounces.id.trans hr.id, hr.supervisor⟩
  have hfollowed := hsilent.quiet.starts hedited
  exact ⟨hfollowed.id, hfollowed.supervisor⟩

theorem Starts.setStatus (hr : r.Starts session s) (cell : CellId) (status : CellStatus) :
    (r.setStatus cell status).Starts session s := by
  rcases setStatus_cases r cell status with ⟨_, heq⟩ | ⟨_, heq⟩
  · rw [heq]
    exact ⟨hr.id, hr.supervisor⟩
  · rw [heq]
    exact hr

/-- A change starts at most a process of the actor's own session. -/
theorem Change.starts (h : Change r r') (hr : r.Starts session s) : r'.Starts session s := by
  rcases h.cases with hquiet | hedited | ⟨cell, failure, rfl⟩ |
    ⟨cell, program, args, purpose, pid, hfree, rfl⟩
  · exact hquiet.starts hr
  · exact hedited.starts hr
  · have hidle := hr.setStatus cell .idle
    exact ⟨hidle.id, hidle.supervisor⟩
  · have hstarted := hr.supervisor.tail cell pid
    obtain rfl := hr.id
    change s.Starts _ (r.supervisor.act (.start (r.actor.key cell) pid)) at hstarted
    rw [Supervisor.act_start hfree] at hstarted
    let r₁ : Room := { r with
      supervisor := r.supervisor.started (r.actor.key cell) pid
      actor.runs := r.actor.runs.set cell pid }.tell
      (.spawned r.supervisor.nextGeneration pid (r.runRequest cell program args) purpose)
    have hr₁ : r₁.Starts r.actor.session.id s := ⟨rfl, hstarted⟩
    exact hr₁.setStatus cell .running

/-- So does an exit that is taken note of. -/
theorem ended_starts (hr : r.Starts session s) (cell : CellId) :
    (r.ended cell).Starts session s := by
  let r₁ : Room := { r with actor.runs := r.actor.runs.erase cell }
  have hr₁ : r₁.Starts session s := ⟨hr.id, hr.supervisor⟩
  exact hr₁.setStatus cell .idle

/-- To handle a letter, an actor starts processes of its own session only. -/
theorem receive_starts (r : Room) (letter : Letter) :
    (r.receive letter).2.Starts r.actor.session.id r.supervisor :=
  receive_preserves (P := Starts r.actor.session.id r.supervisor)
    (fun _ _ hchange hr => hchange.starts hr)
    (fun _ cell hr => ended_starts hr cell)
    ⟨rfl, .refl⟩ letter

/-- To take a report, it does so, too. -/
theorem hearNext_starts (r : Room) :
    r.hearNext.Starts r.actor.session.id r.supervisor :=
  (hearNext_changes r).preserves (P := Starts r.actor.session.id r.supervisor)
    (fun _ _ hchange hr => hchange.starts hr) ⟨rfl, .refl⟩

end Room

/-! ## Runs of a site -/

namespace Site

theorem run_append (s : Site) (events events' : List Event) :
    s.run (events ++ events') = (s.run events).run events' :=
  List.foldl_append

/-- What somebody else does who has started processes for another session and has written
to the disk. -/
theorem run_elsewhere (s : Site) {session : SessionId} {supervisor : Supervisor}
    (h : s.supervisor.Starts session supervisor) (hne : session ≠ s.actor.session.id)
    (disk : Disk) : ∃ events, s.run events = { s with supervisor, disk } := by
  have hstarts : ∃ events, s.run events = { s with supervisor } := by
    induction h with
    | refl => exact ⟨[], rfl⟩
    | tail _ cell pid ih =>
        obtain ⟨events, hevents⟩ := ih
        refine ⟨events ++ [.elsewhere ⟨session, cell⟩ pid], ?_⟩
        rw [run_append, hevents]
        exact if_neg hne
  obtain ⟨events, hevents⟩ := hstarts
  refine ⟨events ++ [.disturb disk], ?_⟩
  rw [run_append, hevents]
  rfl

/-- The actor of a site concludes those of its last inquiries whose fate is known. -/
theorem run_conclude (rest : List Inquiry) (s : Site) (done : List Inquiry)
    (h : s.actor.inquiries = done ++ rest) : ∃ events, s.run events =
      { s with
        actor.inquiries := done ++ rest.filter fun i => (s.actor.conclude i).isNone
        mailbox := if s.alive then s.mailbox ++ rest.filterMap s.actor.conclude
          else s.mailbox } := by
  induction rest generalizing s done with
  | nil =>
      rw [List.append_nil] at h
      subst h
      refine ⟨[], ?_⟩
      simp only [List.filter_nil, List.filterMap_nil, List.append_nil, ite_self]
      rfl
  | cons inquiry rest ih =>
      cases hfate : s.actor.conclude inquiry with
      | none =>
          obtain ⟨events, hevents⟩ := ih s (done ++ [inquiry]) (by simp [h])
          refine ⟨events, ?_⟩
          rw [hevents]
          simp [hfate]
      | some letter =>
          have hinquiry : s.actor.inquiries[done.length]? = some inquiry := by
            rw [h, List.getElem?_append_right (Nat.le_refl _), Nat.sub_self]
            rfl
          have herase : s.actor.inquiries.eraseIdx done.length = done ++ rest := by
            rw [h, List.eraseIdx_append_of_length_le (Nat.le_refl _), Nat.sub_self]
            rfl
          -- What is known about the other inquiries does not depend on this one.
          let s₁ : Site :=
            { s with
              actor.inquiries := done ++ rest
              mailbox := if s.alive then s.mailbox ++ [letter] else s.mailbox }
          have hstep : s.step (.conclude done.length) = s₁ := by
            simp only [step, conclude, hinquiry, hfate, herase, post, s₁]
            split <;> simp_all
          obtain ⟨events, hevents⟩ := ih s₁ done rfl
          refine ⟨.conclude done.length :: events, ?_⟩
          change (s.step (.conclude done.length)).run events = _
          rw [hstep, hevents]
          have hsame : s₁.actor.conclude = s.actor.conclude := rfl
          simp only [hsame, s₁, List.filter_cons, List.filterMap_cons, hfate]
          cases s.alive <;> simp

end Site

/-! ## What a resident sees -/

/-- The effect that an entry of the log tells of, if it is one of this resident. -/
def LogEntry.of? (resident : Nat) : LogEntry → Option Effect
  | .effect resident' _ what => if resident' = resident then some what else none
  | .killed _ => none

namespace Coordinator

/-- What a resident has done according to the log. -/
def effectsOf (c : Coordinator) (resident : Nat) : List Effect :=
  c.log.filterMap (LogEntry.of? resident)

/-- The site of a resident.  What it had done when the log began is `past`, and its
watchers were `watchers` then. -/
def site (c : Coordinator) (resident : Nat) (r : Resident) (watchers : Table Nat Watcher)
    (past : List Effect) : Site where
  facilities := c.facilities
  spawner := c.spawner
  disk := c.disk
  supervisor := c.supervisor
  actor := r.actor
  mailbox := if r.alive then r.mailbox else []
  alive := r.alive
  watchers := (c.effectsOf resident).foldl Site.enroll watchers
  log := past ++ c.effectsOf resident

/-- For this resident, `c'` follows `c` with a run of its site. -/
def Follows (resident : Nat) (c c' : Coordinator) : Prop :=
  ∀ r, c.residents.find? resident = some r → ∀ watchers past, ∃ r' events,
    c'.residents.find? resident = some r' ∧
      c'.site resident r' watchers past = (c.site resident r watchers past).run events

variable {c c' c'' : Coordinator} {resident other : Nat}

theorem Follows.refl (resident : Nat) (c : Coordinator) : Follows resident c c :=
  fun r hr _ _ => ⟨r, [], hr, rfl⟩

theorem Follows.trans (h : Follows resident c c') (h' : Follows resident c' c'') :
    Follows resident c c'' := by
  intro r hr watchers past
  obtain ⟨r', events, hr', heq⟩ := h r hr watchers past
  obtain ⟨r'', events', hr'', heq'⟩ := h' r' hr' watchers past
  exact ⟨r'', events ++ events', hr'', by rw [heq', heq, Site.run_append]⟩

/-- From `c` to `c'` nothing happens to this resident itself. -/
structure Spares (resident : Nat) (c c' : Coordinator) : Prop where
  facilities : c'.facilities = c.facilities
  spawner : c'.spawner = c.spawner
  residents : c'.residents.find? resident = c.residents.find? resident
  effects : c'.effectsOf resident = c.effectsOf resident

theorem Spares.site_eq (h : Spares resident c c') (r : Resident)
    (watchers : Table Nat Watcher) (past : List Effect) :
    c'.site resident r watchers past =
      { c.site resident r watchers past with
        supervisor := c'.supervisor
        disk := c'.disk } := by
  simp only [site, h.facilities, h.spawner, h.effects]

theorem Spares.follows (h : Spares resident c c') (hsupervisor : c'.supervisor = c.supervisor) :
    Follows resident c c' := by
  intro r hr watchers past
  refine ⟨r, [.disturb c'.disk], h.residents.trans hr, ?_⟩
  rw [h.site_eq, hsupervisor]
  rfl

theorem Spares.follows_of_starts {session : SessionId} (h : Spares resident c c')
    (hstarts : c.supervisor.Starts session c'.supervisor)
    (hne : ∀ r, c.residents.find? resident = some r → session ≠ r.actor.session.id) :
    Follows resident c c' := by
  intro r hr watchers past
  obtain ⟨events, hevents⟩ := Site.run_elsewhere (c.site resident r watchers past) hstarts
    (hne r hr) c'.disk
  exact ⟨r, events, h.residents.trans hr, by rw [h.site_eq, hevents]⟩

/-! ## Calls -/

theorem find?_change (c : Coordinator) (other : Nat) (f : Resident → Resident)
    (resident : Nat) : (c.change other f).residents.find? resident =
      if other = resident then (c.residents.find? resident).map f
      else c.residents.find? resident := by
  unfold change
  split
  · next r hr =>
      rw [Table.find?_set]
      split
      · next h => rw [← h, hr, Option.map_some]
      · rfl
  · next hnone =>
      split
      · next h => rw [← h, hnone, Option.map_none]
      · rfl

theorem change_eq (c : Coordinator) (other : Nat) (f : Resident → Resident) :
    ∃ residents, c.change other f = { c with residents } := by
  unfold change
  split
  · exact ⟨_, rfl⟩
  · exact ⟨c.residents, rfl⟩

/-- A resident is changed in a way that its site runs through. -/
theorem change_follows (f : Resident → Resident)
    (hf : ∀ r watchers past, ∃ events,
      c.site resident (f r) watchers past = (c.site resident r watchers past).run events) :
    Follows resident c (c.change other f) := by
  intro r hr watchers past
  obtain ⟨residents, heq⟩ := change_eq c other f
  have hsite : ∀ r', (c.change other f).site resident r' watchers past =
      c.site resident r' watchers past := by
    intro r'
    rw [heq]
    rfl
  by_cases h : other = resident
  · obtain ⟨events, hevents⟩ := hf r watchers past
    refine ⟨f r, events, ?_, (hsite (f r)).trans hevents⟩
    rw [find?_change, if_pos h, hr, Option.map_some]
  · refine ⟨r, [], ?_, hsite r⟩
    rw [find?_change, if_neg h, hr]

/-- A letter reaches the mailbox of a resident if there is an event that brings it. -/
theorem post_follows (letter : Letter) (e : Site.Event)
    (he : ∀ s : Site, s.step e = s.post letter) :
    Follows resident c (c.post other letter) := by
  refine change_follows _ fun r watchers past => ⟨[e], ?_⟩
  change _ = (c.site resident r watchers past).step e
  rw [he]
  cases halive : r.alive <;> simp [Site.post, site, halive]

/-- The coordinator after a session was entered. -/
def entered (c : Coordinator) (session : Session) : Coordinator :=
  { c with
    table := c.table.set session.id c.residents.size
    residents := c.residents.set c.residents.size ⟨.new c.facilities session, [], true⟩ }

/-- What has happened to the service instances of a resident. -/
def withLedger (c : Coordinator) (other : Nat) (f : Bridge → Bridge) : Coordinator :=
  c.change other fun r => { r with actor := r.actor.withLedger (f r.actor.ledger) }

/-- One thing that is done for a call, or that happens between two calls. -/
inductive Change (c : Coordinator) : Coordinator → Prop where
  | noted (table : Table SessionId Nat) (errands : Table Nat Errand) :
    Change c { c with table, errands }
  | supplied (spawner : Spawner) (disk : Disk) : Change c { c with spawner, disk }
  | processed (generation : Nat) (what : Supervisor.Step)
    (hwhat : ¬(what = .take ∨ what = .leave)) :
    Change c { c with supervisor := c.supervisor.step generation what }
  | served (other : Nat) (f : Bridge → Bridge) (e : Site.Event)
    (he : ∀ s : Site, s.step e = s.withLedger (f s.actor.ledger)) :
    Change c (c.withLedger other f)
  | killed : Change c c.killAll
  | posted (other : Nat) (letter : Letter) (e : Site.Event)
    (he : ∀ s : Site, s.step e = s.post letter) : Change c (c.post other letter)
  | entered (session : Session) : Change c (c.entered session)

/-- Several such things. -/
abbrev Changes : Coordinator → Coordinator → Prop :=
  Relation.ReflTransGen Change

theorem put_changes (c : Coordinator) (call : Nat) (errand : Errand) :
    Changes c (c.put call errand) :=
  .single (.noted c.table _)

theorem begin_changes (c : Coordinator) (errand : Errand) : Changes c (c.begin errand).2 :=
  .single (.noted c.table _)

theorem dispatch_changes (c : Coordinator) (sender : ConnectionId) (message : Message) :
    Changes c (c.dispatch sender message).2 := by
  unfold dispatch
  split
  · exact .refl
  · split
    · exact .refl
    · split
      · exact .single (.posted _ _ (.send sender message.intent) fun _ => rfl)
      · exact .refl

theorem beginOpen_changes (c : Coordinator) (session : Session) :
    Changes c (c.beginOpen session).2 := by
  unfold beginOpen
  split <;> exact begin_changes c _

theorem beginClose_changes (c : Coordinator) (session : SessionId) :
    Changes c (c.beginClose session).2 := by
  unfold beginClose
  split
  · exact .single (.noted _ _)
  · exact begin_changes c _

theorem beginShutdown_changes (c : Coordinator) : Changes c c.beginShutdown.2 :=
  .single (.noted _ _)

theorem beginCells_changes (c : Coordinator) (session : SessionId) :
    Changes c (c.beginCells session).2 := by
  unfold beginCells
  split <;> exact begin_changes c _

theorem send_changes (c : Coordinator) (call other : Nat) (letter : Letter) (next : Errand)
    (gone : Coordinator → Coordinator) (hgone : Changes c (gone c)) (e : Site.Event)
    (he : ∀ s : Site, s.step e = s.post letter) :
    Changes c (c.send call other letter next gone) := by
  unfold send
  split
  · split
    · exact (Relation.ReflTransGen.single (.posted other letter e he)).trans
        (put_changes _ call next)
    · exact .refl
  · exact hgone

theorem prepare_changes (c : Coordinator) (call : Nat) (session : Session) :
    Changes c (c.prepare call session) :=
  (Relation.ReflTransGen.single (.supplied c.spawner _)).trans (put_changes _ call _)

theorem enter_changes (c : Coordinator) (call : Nat) (session : Session) :
    Changes c (c.enter call session) := by
  unfold enter
  split
  · exact put_changes c call _
  · exact (Relation.ReflTransGen.single (.entered session)).trans (put_changes _ call _)

/-- A call goes on by changes. -/
theorem advance_changes (c : Coordinator) (call : Nat) : Changes c (c.advance call) := by
  unfold advance
  split
  · exact .refl
  · next session _ => exact prepare_changes c call session
  · next session _ => exact enter_changes c call session
  · split
    · exact (Relation.ReflTransGen.single .killed).trans (put_changes _ call _)
    · exact put_changes c call _
  · exact send_changes c call _ _ _ _ (put_changes c call _) (.close call) fun _ => rfl
  · split
    · exact .refl
    · exact put_changes c call _
  · exact send_changes c call _ _ _ _ (put_changes c call _) (.ask call) fun _ => rfl
  · split
    · exact .refl
    · exact put_changes c call _
  · exact .refl

/-! ## Numbers -/

/-- The numbers of residents are below the number of the next one. -/
structure Numbered (c : Coordinator) : Prop where
  residents : ∀ k, c.residents.size ≤ k → c.residents.find? k = none
  effects : ∀ k, c.residents.size ≤ k → c.effectsOf k = []

theorem numbered_new (facilities : Facilities) (spawner : Spawner) (disk : Disk)
    (supervisor : Supervisor) : (new facilities spawner disk supervisor).Numbered :=
  ⟨fun _ _ => rfl, fun _ _ => rfl⟩

theorem Numbered.lt (h : c.Numbered) {r : Resident}
    (hr : c.residents.find? resident = some r) : resident < c.residents.size := by
  refine Nat.lt_of_not_le fun hle => ?_
  rw [h.residents resident hle] at hr
  cases hr

/-- Where a resident is put in the place of another one, numbers stay what they were. -/
theorem Numbered.replaced (h : c.Numbered) {r : Resident}
    (hr : c.residents.find? other = some r) (r' : Resident)
    (hresidents : c'.residents = c.residents.set other r')
    (heffects : ∀ k, k ≠ other → c'.effectsOf k = c.effectsOf k) : c'.Numbered := by
  have hsize : c'.residents.size = c.residents.size := by
    rw [hresidents, Table.size_set, if_pos]
    refine Decidable.of_not_not fun hmem => ?_
    rw [← Table.find?_eq_none_iff, hr] at hmem
    cases hmem
  have hne : ∀ k, c'.residents.size ≤ k → k ≠ other := by
    rintro k hk rfl
    exact Nat.not_le_of_lt (h.lt hr) (hsize ▸ hk)
  constructor
  · intro k hk
    rw [hresidents, Table.find?_set, if_neg (Ne.symm (hne k hk))]
    exact h.residents k (hsize ▸ hk)
  · intro k hk
    rw [heffects k (hne k hk)]
    exact h.effects k (hsize ▸ hk)

theorem numbered_change (h : c.Numbered) (f : Resident → Resident) :
    (c.change other f).Numbered := by
  unfold change
  split
  · next r hr => exact h.replaced hr (f r) rfl fun _ _ => rfl
  · exact h

theorem effectsOf_killAll (c : Coordinator) (k : Nat) : c.killAll.effectsOf k = c.effectsOf k := by
  change (c.log ++ [LogEntry.killed _]).filterMap (LogEntry.of? k) = _
  rw [List.filterMap_append]
  exact List.append_nil _

theorem Change.numbered (h : Change c c') (hc : c.Numbered) : c'.Numbered := by
  cases h with
  | noted table errands => exact ⟨hc.residents, hc.effects⟩
  | supplied spawner disk => exact ⟨hc.residents, hc.effects⟩
  | processed generation what hwhat => exact ⟨hc.residents, hc.effects⟩
  | served other f e he => exact numbered_change hc _
  | killed => exact ⟨hc.residents, fun k hk => (effectsOf_killAll c k).trans (hc.effects k hk)⟩
  | posted other letter e he => exact numbered_change hc _
  | entered session =>
      have hsize : (c.entered session).residents.size = c.residents.size + 1 := by
        change (c.residents.set _ _).size = _
        rw [Table.size_set, if_neg]
        rw [← Table.find?_eq_none_iff]
        exact hc.residents _ (Nat.le_refl _)
      constructor
      · intro k hk
        rw [hsize] at hk
        change (c.residents.set _ _).find? k = none
        rw [Table.find?_set, if_neg (by omega)]
        exact hc.residents k (by omega)
      · intro k hk
        exact hc.effects k (by omega)

/-- A change is a run of the site of a resident; a new resident gets a number of its
own. -/
theorem Change.follows (h : Change c c') (hc : c.Numbered) : Follows resident c c' := by
  cases h with
  | noted table errands => exact Spares.follows ⟨rfl, rfl, rfl, rfl⟩ rfl
  | supplied spawner disk =>
      exact fun r hr _ _ => ⟨r, [.respawn spawner, .disturb disk], hr, rfl⟩
  | processed generation what hwhat =>
      refine fun r hr watchers past => ⟨r, [.process generation what], hr, ?_⟩
      exact (if_neg fun h => hwhat h.1).symm
  | served other f e he =>
      refine change_follows _ fun r watchers past => ⟨[e], ?_⟩
      exact (he (c.site resident r watchers past)).symm
  | killed => exact Spares.follows ⟨rfl, rfl, rfl, effectsOf_killAll c resident⟩ rfl
  | posted other letter e he => exact post_follows letter e he
  | entered session =>
      intro r hr
      have hspares : Spares resident c (c.entered session) :=
        ⟨rfl, rfl, (Table.find?_set _ _ _ _).trans (if_neg (Nat.ne_of_gt (hc.lt hr))), rfl⟩
      exact hspares.follows rfl r hr

theorem Changes.numbered (h : Changes c c') (hc : c.Numbered) : c'.Numbered := by
  induction h with
  | refl => exact hc
  | tail _ hlast ih => exact hlast.numbered ih

theorem Changes.follows (h : Changes c c') (hc : c.Numbered) : Follows resident c c' := by
  induction h with
  | refl => exact .refl resident c
  | tail hfirst hlast ih => exact ih.trans (hlast.follows (Changes.numbered hfirst hc))

/-! ## Work -/

theorem foldl_reply (effects : List Effect) (c : Coordinator) :
    ∃ errands, effects.foldl reply c = { c with errands } := by
  induction effects generalizing c with
  | nil => exact ⟨c.errands, rfl⟩
  | cons e rest ih =>
      have hreply : ∃ errands, c.reply e = { c with errands } := by
        unfold reply
        split
        · exact ⟨_, rfl⟩
        · exact ⟨c.errands, rfl⟩
      obtain ⟨errands, herrands⟩ := hreply
      rw [List.foldl_cons, herrands]
      exact ih _

theorem leave_eq (c : Coordinator) (other : Nat) (mailbox : List Letter) (alive : Bool)
    (room : Room) : ∃ errands, c.leave other mailbox alive room =
      { c with
        disk := room.disk
        supervisor := room.supervisor
        residents := c.residents.set other
          ⟨room.actor, if alive then mailbox else [], alive⟩
        log := c.log ++ room.effects.map (.effect other room.actor.session.id)
        errands } :=
  foldl_reply room.effects _

theorem filterMap_of? (effects : List Effect) (session : SessionId) (other resident : Nat) :
    (effects.map (LogEntry.effect other session)).filterMap (LogEntry.of? resident) =
      if other = resident then effects else [] := by
  induction effects with
  | nil => simp
  | cons e rest ih =>
      rw [List.map_cons, List.filterMap_cons, ih]
      split <;> simp_all [LogEntry.of?]

theorem effectsOf_leave (c : Coordinator) (other : Nat) (mailbox : List Letter)
    (alive : Bool) (room : Room) (resident : Nat) :
    (c.leave other mailbox alive room).effectsOf resident =
      c.effectsOf resident ++ if other = resident then room.effects else [] := by
  obtain ⟨errands, heq⟩ := leave_eq c other mailbox alive room
  rw [heq]
  change (c.log ++ _).filterMap _ = _
  rw [List.filterMap_append, filterMap_of?]
  rfl

theorem numbered_leave (hc : c.Numbered) {r : Resident}
    (hr : c.residents.find? other = some r) (mailbox : List Letter) (alive : Bool)
    (room : Room) : (c.leave other mailbox alive room).Numbered := by
  have heffects := effectsOf_leave c other mailbox alive room
  obtain ⟨errands, heq⟩ := leave_eq c other mailbox alive room
  refine hc.replaced hr _ (by rw [heq]) fun k hk => ?_
  rw [heffects, if_neg (Ne.symm hk), List.append_nil]

/-- What another resident does in its room. -/
theorem leave_follows_of_ne (hother : other ≠ resident) (mailbox : List Letter) (alive : Bool)
    {room : Room} {session : SessionId} (hstarts : room.Starts session c.supervisor)
    (hne : ∀ r, c.residents.find? resident = some r → session ≠ r.actor.session.id) :
    Follows resident c (c.leave other mailbox alive room) := by
  have heffects := effectsOf_leave c other mailbox alive room resident
  rw [if_neg hother, List.append_nil] at heffects
  obtain ⟨errands, heq⟩ := leave_eq c other mailbox alive room
  have hsupervisor : (c.leave other mailbox alive room).supervisor = room.supervisor := by
    rw [heq]
  refine Spares.follows_of_starts ⟨?_, ?_, ?_, heffects⟩
    (hsupervisor ▸ hstarts.supervisor) hne
  · rw [heq]
  · rw [heq]
  · rw [heq]
    exact (Table.find?_set _ _ _ _).trans (if_neg hother)

/-- What the resident itself does in its room. -/
theorem leave_follows {r : Resident} (hr : c.residents.find? resident = some r)
    (mailbox : List Letter) (alive : Bool) (room : Room) (e : Site.Event)
    (he : ∀ watchers past, (c.site resident r watchers past).step e =
      (c.site resident r watchers past).leave mailbox alive room) :
    Follows resident c (c.leave resident mailbox alive room) := by
  intro r₀ hr₀ watchers past
  obtain rfl := Option.some.inj (hr.symm.trans hr₀)
  have heffects := effectsOf_leave c resident mailbox alive room resident
  rw [if_pos rfl] at heffects
  obtain ⟨errands, heq⟩ := leave_eq c resident mailbox alive room
  refine ⟨⟨room.actor, if alive then mailbox else [], alive⟩, [e], ?_, ?_⟩
  · rw [heq]
    exact (Table.find?_set _ _ _ _).trans (if_pos rfl)
  · change _ = (c.site resident r watchers past).step e
    rw [he]
    unfold site
    rw [heffects, heq]
    simp only [Site.leave, List.foldl_append, List.append_assoc]
    cases alive <;> rfl

/-- No other resident that still handles letters has the name of this one's session. -/
def Apart (c : Coordinator) (resident : Nat) : Prop :=
  ∀ other r r', other ≠ resident → c.residents.find? resident = some r →
    c.residents.find? other = some r' → r'.alive = true →
    r'.actor.session.id ≠ r.actor.session.id

theorem work_follows (hapart : c.Apart resident) (other : Nat) :
    Follows resident c (c.work other) := by
  unfold work
  split
  · next actor letter rest hfind =>
      by_cases h : other = resident
      · subst h
        exact leave_follows hfind rest _ _ .work fun _ _ => rfl
      · exact leave_follows_of_ne h rest _ (Room.receive_starts (c.room actor) letter)
          fun r hr => hapart other r _ h hr hfind rfl
  · exact .refl resident c

theorem hear_follows (hapart : c.Apart resident) (other : Nat) :
    Follows resident c (c.hear other) := by
  unfold hear
  split
  · next actor mailbox hfind =>
      by_cases h : other = resident
      · subst h
        exact leave_follows hfind mailbox true _ .hear fun _ _ => rfl
      · exact leave_follows_of_ne h mailbox true (Room.hearNext_starts (c.room actor))
          fun r hr => hapart other r _ h hr hfind rfl
  · exact .refl resident c

theorem conclude_follows (other : Nat) : Follows resident c (c.conclude other) := by
  refine change_follows _ fun r watchers past => ?_
  obtain ⟨events, hevents⟩ := Site.run_conclude r.actor.inquiries
    (c.site resident r watchers past) [] rfl
  refine ⟨events, ?_⟩
  rw [hevents]
  cases halive : r.alive <;> simp [site, halive, Actor.concludeAll]

/-! ## Moves -/

/-- One thing that the coordinator does, or that happens to what it has.  The exits of
processes are not among them: they come from watchers, which it does not know. -/
inductive Move (c : Coordinator) : Coordinator → Prop where
  | dispatched (sender : ConnectionId) (message : Message) :
    Move c (c.dispatch sender message).2
  | opening (session : Session) : Move c (c.beginOpen session).2
  | closing (session : SessionId) : Move c (c.beginClose session).2
  | shuttingDown : Move c c.beginShutdown.2
  | asking (session : SessionId) : Move c (c.beginCells session).2
  | advanced (call : Nat) : Move c (c.advance call)
  | worked (other : Nat) : Move c (c.work other)
  | heard (other : Nat) : Move c (c.hear other)
  | concluded (other : Nat) : Move c (c.conclude other)
  | supplied (spawner : Spawner) (disk : Disk) : Move c { c with spawner, disk }
  | processed (generation : Nat) (what : Supervisor.Step)
    (hwhat : ¬(what = .take ∨ what = .leave)) :
    Move c { c with supervisor := c.supervisor.step generation what }
  | happened (other : Nat) (incident : Incident) :
    Move c (c.withLedger other fun b => b.apply incident)
  | planned (other : Nat) (hindrance : Option LaunchProblem)
    (launches : List (Option LaunchProblem)) (incidents : List (List Incident)) :
    Move c (c.withLedger other fun b => { b with hindrance, launches, incidents })

/-- All but the work of residents consists of changes. -/
theorem Move.cases (h : Move c c') :
    Changes c c' ∨ ∃ other, c' = c.work other ∨ c' = c.hear other ∨ c' = c.conclude other := by
  cases h with
  | dispatched sender message => exact Or.inl (dispatch_changes c sender message)
  | opening session => exact Or.inl (beginOpen_changes c session)
  | closing session => exact Or.inl (beginClose_changes c session)
  | shuttingDown => exact Or.inl (beginShutdown_changes c)
  | asking session => exact Or.inl (beginCells_changes c session)
  | advanced call => exact Or.inl (advance_changes c call)
  | worked other => exact Or.inr ⟨other, Or.inl rfl⟩
  | heard other => exact Or.inr ⟨other, Or.inr (Or.inl rfl)⟩
  | concluded other => exact Or.inr ⟨other, Or.inr (Or.inr rfl)⟩
  | supplied spawner disk => exact Or.inl (.single (.supplied spawner disk))
  | processed generation what hwhat => exact Or.inl (.single (.processed generation what hwhat))
  | happened other incident =>
      exact Or.inl (.single (.served other _ (.happens incident) fun _ => rfl))
  | planned other hindrance launches incidents =>
      exact Or.inl (.single (.served other _ (.plan hindrance launches incidents) fun _ => rfl))

theorem Move.numbered (h : Move c c') (hc : c.Numbered) : c'.Numbered := by
  rcases h.cases with hchanges | ⟨other, rfl | rfl | rfl⟩
  · exact hchanges.numbered hc
  · unfold work
    split
    · next actor letter rest hfind => exact numbered_leave hc hfind rest _ _
    · exact hc
  · unfold hear
    split
    · next actor mailbox hfind => exact numbered_leave hc hfind mailbox true _
    · exact hc
  · exact numbered_change hc _

/-- Whatever the coordinator does, a resident sees a run of its site. -/
theorem Move.follows (h : Move c c') (hc : c.Numbered) (hapart : c.Apart resident) :
    Follows resident c c' := by
  rcases h.cases with hchanges | ⟨other, rfl | rfl | rfl⟩
  · exact hchanges.follows hc
  · exact work_follows hapart other
  · exact hear_follows hapart other
  · exact conclude_follows other

/-- Several moves, while no other resident of the session handles letters. -/
abbrev Moves (resident : Nat) : Coordinator → Coordinator → Prop :=
  Relation.ReflTransGen fun c c' => c.Apart resident ∧ Move c c'

theorem Moves.follows (h : Moves resident c c') (hc : c.Numbered) :
    c'.Numbered ∧ Follows resident c c' := by
  induction h with
  | refl => exact ⟨hc, .refl resident c⟩
  | tail _ hlast ih =>
      obtain ⟨hnumbered, hfollows⟩ := ih
      exact ⟨hlast.2.numbered hnumbered, hfollows.trans (hlast.2.follows hnumbered hlast.1)⟩

/-- Enter a session and let the coordinator do anything.  What the resident of the session
sees is a run of the site of the session as it was opened, with all that it has done. -/
theorem Moves.opened (hc : c.Numbered) (session : Session)
    (h : Moves c.residents.size (c.entered session) c') : ∃ r events,
      c'.residents.find? c.residents.size = some r ∧
        c'.site c.residents.size r .empty [] =
          (Site.opened c.facilities c.spawner c.disk c.supervisor session).run events := by
  have hentered := (Change.entered session).numbered hc
  have hfind : (c.entered session).residents.find? c.residents.size =
      some ⟨.new c.facilities session, [], true⟩ :=
    (Table.find?_set _ _ _ _).trans (if_pos rfl)
  have hsite : (c.entered session).site c.residents.size
      ⟨.new c.facilities session, [], true⟩ .empty [] =
      Site.opened c.facilities c.spawner c.disk c.supervisor session := by
    have heffects : (c.entered session).effectsOf c.residents.size = [] :=
      hc.effects _ (Nat.le_refl _)
    simp only [site, heffects, List.foldl_nil, List.append_nil, ite_self]
    rfl
  obtain ⟨r, events, hr, heq⟩ := (h.follows hentered).2 _ hfind .empty []
  exact ⟨r, events, hr, by rw [heq, hsite]⟩

end Coordinator
end Notebook
