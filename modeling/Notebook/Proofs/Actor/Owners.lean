import Notebook.Proofs.Actor.Leaving
import Notebook.Proofs.Process.Runs

/-!
# Owners of a session

A session that is open has one owner: the resident that handles its letters, writes its files,
tells its subscribers and runs its cells.  A session that is opened again while its old resident is
leaving has two, and then both do all this side by side, and the old one stops the processes of the
new one when it goes.  Processes outlive their owner as well: an actor that is closed only asks them
to end.

This is the only way.  If a session is never entered while an owner of it is leaving, then one
resident owns it at a time, and what residents do for it comes in turn: whoever has begun to work
for the session takes over for good.  If besides no process of the session goes on when it is
entered, then all that run have been started by the owner.

* `Passes`, `step_passes`: what an event comes to for owners, for the log and for processes.
* `Turns`, `run_turns`: one owner at a time, and effects in turn.
* `run_runsOwned`: processes that go on are those of the owner.
* `one_owner`: the three results for every run of a coordinator.
-/

set_option autoImplicit false

namespace Notebook

/-! ## Processes -/

/-- The exit of the process has been reported, nothing of it waits, and nothing more can come:
no worker is at a pump of it. -/
def Run.IsOver (r : Run) : Prop :=
  r.phase = .reported ∧ r.queue = [] ∧ r.isAtRest = true

instance (r : Run) : Decidable r.IsOver :=
  inferInstanceAs (Decidable (_ ∧ _))

/-- A run that is over stays so. -/
theorem Run.IsOver.next {r : Run} (hover : r.IsOver) (capacity : Nat) (what : Supervisor.Step) :
    (r.next capacity what).IsOver := by
  obtain ⟨hphase, hqueue, hrest⟩ := hover
  have hpumping : r.isPumping = false := by simp [Run.isPumping, hphase]
  refine ⟨?_, ?_, Run.isAtRest_next hrest hpumping capacity what⟩
  · rcases Run.phase_next capacity r what with hsame | ⟨_, hother, _⟩ | ⟨_, hother, _⟩ |
      ⟨_, hother, _⟩ | ⟨_, _, hreported⟩
    · exact hsame.trans hphase
    · rw [hphase] at hother
      cases hother
    · rw [hphase] at hother
      cases hother
    · rw [hphase] at hother
      cases hother
    · exact hreported
  · have hmoves := r.next_moves capacity what
    generalize r.next capacity what = r' at hmoves ⊢
    cases hmoves with
    | attended | unattended | read | finished => exact (Run.queue_withPump r _ _).trans hqueue
    | delivered hheld hattended _ =>
        rw [Run.isAtRest_eq_false hattended (by simp [Pump.isDone, hheld])] at hrest
        cases hrest
    | reported hremoved _ =>
        rw [hphase] at hremoved
        cases hremoved
    | taken =>
        rw [hqueue]
        rfl
    | left => rfl
    | _ => exact hqueue

namespace Supervisor

variable {s : Supervisor} {g g' : Nat} {r r' : Run}

/-- A step starts nothing, and what goes on after it has gone on before. -/
theorem runs_step {what : Step} (hr' : (s.step g what).runs.find? g' = some r')
    (hon : ¬r'.IsOver) : ∃ r, s.runs.find? g' = some r ∧ r.key = r'.key ∧ ¬r.IsOver := by
  have hset : ∀ r₀ r₁, s.runs.find? g = some r₀ → r₀.key = r₁.key →
      (s.step g what).runs = s.runs.set g r₁ →
      ∃ r, s.runs.find? g' = some r ∧ r.key = r'.key ∧ ¬r.IsOver := by
    intro r₀ r₁ hr₀ hkey hruns
    have hfound := hr'
    rw [hruns, Table.find?_set] at hfound
    split at hfound
    · next heq =>
        subst heq
        obtain rfl := Option.some.inj hfound
        refine ⟨r₀, hr₀, hkey, fun hover => hon ?_⟩
        rw [find?_runs_step, hr₀, Option.map_some] at hr'
        obtain rfl := Option.some.inj hr'
        exact hover.next s.capacity what
    · exact ⟨r', hfound, rfl, hon⟩
  rcases step_cases s g what with hsame | ⟨r₀, hr₀, ⟨r₁, heq, hgoes, _⟩ | ⟨info, _, _, heq⟩⟩
  · rw [hsame] at hr'
    exact ⟨r', hr', rfl, hon⟩
  · exact hset r₀ r₁ hr₀ hgoes.key.symm (congrArg Supervisor.runs heq)
  · exact hset r₀ { r₀ with phase := .removed info } hr₀ rfl (congrArg Supervisor.runs heq)

end Supervisor

/-- The run that an effect tells the start of. -/
def Effect.generation? : Effect → Option Nat
  | .spawned generation _ _ _ => some generation
  | _ => none

namespace Room

/-- The session has this name, and runs that the supervisor `s` did not have are of this session
and have been told. -/
structure TellsRuns (session : SessionId) (s : Supervisor) (r : Room) : Prop where
  id : r.actor.session.id = session
  runs : ∀ g run, r.supervisor.runs.find? g = some run →
    s.runs.find? g = some run ∨
      run.key.session = session ∧ g ∈ r.effects.filterMap Effect.generation?

variable {session : SessionId} {s : Supervisor} {r r' : Room}

theorem TellsRuns.grows (h : r.TellsRuns session s)
    (hid : r'.actor.session.id = r.actor.session.id) (hsupervisor : r'.supervisor = r.supervisor)
    (heffects : ∃ new, r'.effects = r.effects ++ new) : r'.TellsRuns session s := by
  obtain ⟨new, hnew⟩ := heffects
  refine ⟨hid.trans h.id, fun g run hrun => ?_⟩
  rw [hsupervisor] at hrun
  refine (h.runs g run hrun).imp_right (And.imp_right fun htold => ?_)
  rw [hnew, List.filterMap_append]
  exact List.mem_append_left _ htold

theorem TellsRuns.setStatus (h : r.TellsRuns session s) (cell : CellId) (status : CellStatus) :
    (r.setStatus cell status).TellsRuns session s := by
  obtain ⟨hsupervisor, hid⟩ := setStatus_same r cell status
  refine h.grows hid hsupervisor ?_
  rcases setStatus_cases r cell status with ⟨_, heq⟩ | ⟨_, heq⟩
  · exact ⟨_, congrArg Room.effects heq⟩
  · exact ⟨[], (congrArg Room.effects heq).trans (List.append_nil _).symm⟩

theorem Quiet.tellsRuns (h : Quiet r r') (hr : r.TellsRuns session s) :
    r'.TellsRuns session s := by
  obtain ⟨new, hnew, _⟩ := h.effects
  exact hr.grows (congrArg Session.id h.session) h.supervisor ⟨new, hnew⟩

/-- A change starts at most a process of the actor's session, which it tells. -/
theorem Change.tellsRuns (h : Change r r') (hr : r.TellsRuns session s) :
    r'.TellsRuns session s := by
  rcases h.cases with hquiet | ⟨session', notice, r₁, hannounces, _, hsilent, rfl⟩ |
    ⟨cell, failure, rfl⟩ | ⟨cell, program, args, purpose, pid, hfree, rfl⟩
  · exact hquiet.tellsRuns hr
  · have hedited : (r.withSession session').TellsRuns session s :=
      ⟨hannounces.id.trans hr.id, hr.runs⟩
    exact (hsilent.quiet.tellsRuns hedited).grows rfl rfl ⟨_, rfl⟩
  · exact (hr.setStatus cell .idle).grows rfl rfl ⟨_, rfl⟩
  · let r₁ : Room := { r with
      supervisor := r.supervisor.started (r.actor.key cell) pid
      actor.runs := r.actor.runs.set cell pid }.tell
      (.spawned r.supervisor.nextGeneration pid (r.runRequest cell program args) purpose)
    have hr₁ : r₁.TellsRuns session s := by
      refine ⟨hr.id, fun g run hrun => ?_⟩
      change (r.supervisor.runs.set _ _).find? g = some run at hrun
      change _ ∨ _ ∧ g ∈ (r.effects ++ [_]).filterMap _
      rw [List.filterMap_append]
      rw [Table.find?_set] at hrun
      split at hrun
      · next hg =>
          obtain rfl := Option.some.inj hrun
          exact Or.inr ⟨hr.id, List.mem_append_right _ (by simp [Effect.generation?, hg])⟩
      · exact (hr.runs g run hrun).imp_right (And.imp_right (List.mem_append_left _))
    exact hr₁.setStatus cell .running

theorem ended_tellsRuns (hr : r.TellsRuns session s) (cell : CellId) :
    (r.ended cell).TellsRuns session s := by
  let r₁ : Room := { r with actor.runs := r.actor.runs.erase cell }
  have hr₁ : r₁.TellsRuns session s := ⟨hr.id, hr.runs⟩
  exact hr₁.setStatus cell .idle

/-- An actor tells of every process that it starts. -/
theorem receive_tellsRuns (r : Room) (letter : Letter) :
    (r.receive letter).2.TellsRuns r.actor.session.id r.supervisor :=
  receive_preserves (P := TellsRuns r.actor.session.id r.supervisor)
    (fun _ _ hchange hr => hchange.tellsRuns hr)
    (fun _ cell hr => ended_tellsRuns hr cell)
    ⟨rfl, fun _ _ => Or.inl⟩ letter

theorem hearNext_tellsRuns (r : Room) :
    r.hearNext.TellsRuns r.actor.session.id r.supervisor :=
  (hearNext_changes r).preserves (P := TellsRuns r.actor.session.id r.supervisor)
    (fun _ _ hchange hr => hchange.tellsRuns hr) ⟨rfl, fun _ _ => Or.inl⟩

end Room

/-! ## Events -/

/-- Two things are done in turn: not by a resident of a session after a later one. -/
def LogEntry.InTurn : LogEntry → LogEntry → Prop
  | .effect i session _, .effect j session' _ => session = session' → i ≤ j
  | _, _ => True

instance : ∀ entry entry' : LogEntry, Decidable (entry.InTurn entry')
  | .effect _ _ _, .effect _ _ _ => inferInstanceAs (Decidable (_ → _))
  | .effect _ _ _, .killed _ => isTrue trivial
  | .killed _, _ => isTrue trivial

namespace Coordinator

/-- The session that an event enters. -/
def entering? (c : Coordinator) : Event → Option SessionId
  | .advance call =>
    match c.errands.find? call with
    | some (.enter session) => if c.isOpen session.id then none else some session.id
    | _ => none
  | _ => none

/-- Whenever the events enter a session, this is so of it. -/
def EntersWhen (P : Coordinator → SessionId → Prop) (c : Coordinator) : List Event → Prop
  | [] => True
  | e :: rest => (∀ session ∈ c.entering? e, P c session) ∧ EntersWhen P (c.step e) rest

instance decidableEntersWhen (P : Coordinator → SessionId → Prop)
    [∀ c session, Decidable (P c session)] :
    ∀ (c : Coordinator) (events : List Event), Decidable (c.EntersWhen P events)
  | _, [] => isTrue trivial
  | c, e :: rest =>
    have := decidableEntersWhen P (c.step e) rest
    inferInstanceAs (Decidable (_ ∧ _))

/-- No owner of the session is leaving. -/
def Vacated (c : Coordinator) (session : SessionId) : Prop :=
  ∀ i, c.Owns i session → ¬c.Leaving i

instance (c : Coordinator) (session : SessionId) : Decidable (c.Vacated session) :=
  decidable_of_iff (∀ i ∈ c.residents.keys, c.Owns i session → ¬c.Leaving i) <| by
    refine ⟨fun h i howns => ?_, fun h i _ => h i⟩
    obtain ⟨r, hr, _⟩ := id howns
    exact h i (Table.mem_keys_of_find? hr) howns

/-- No process of the session goes on. -/
def Quiescent (c : Coordinator) (session : SessionId) : Prop :=
  ∀ g run, c.supervisor.runs.find? g = some run → run.key.session = session → run.IsOver

instance (c : Coordinator) (session : SessionId) : Decidable (c.Quiescent session) :=
  decidable_of_iff (∀ g ∈ c.supervisor.runs.keys, ∀ run ∈ c.supervisor.runs.find? g,
      run.key.session = session → run.IsOver) <|
    ⟨fun h g run hrun => h g (Table.mem_keys_of_find? hrun) run hrun, fun h g _ run => h g run⟩

/-- The resident has started the run. -/
def Started (c : Coordinator) (resident g : Nat) : Prop :=
  g ∈ (c.effectsOf resident).filterMap Effect.generation?

instance (c : Coordinator) (resident g : Nat) : Decidable (c.Started resident g) :=
  inferInstanceAs (Decidable (g ∈ _))

/-- Nothing is done by residents or by processes, and no resident gets a session. -/
structure Rests (c c' : Coordinator) : Prop where
  owns : ∀ i session, c'.Owns i session → c.Owns i session
  log : ∃ killed, c'.log = c.log ++ killed ∧ ∀ entry ∈ killed, ∃ pids, entry = .killed pids
  supervisor : c'.supervisor = c.supervisor

variable {c c' c'' : Coordinator} {other : Nat}

namespace Rests

theorem refl (c : Coordinator) : Rests c c :=
  ⟨fun _ _ => id, ⟨[], (List.append_nil _).symm, nofun⟩, rfl⟩

theorem trans (h : Rests c c') (h' : Rests c' c'') : Rests c c'' := by
  obtain ⟨killed, hlog, hkilled⟩ := h.log
  obtain ⟨killed', hlog', hkilled'⟩ := h'.log
  refine ⟨fun i session howns => h.owns i session (h'.owns i session howns),
    ⟨killed ++ killed', by rw [hlog', hlog, List.append_assoc], fun entry hentry => ?_⟩,
    h'.supervisor.trans h.supervisor⟩
  exact (List.mem_append.mp hentry).elim (hkilled entry) (hkilled' entry)

theorem of_same (hresidents : c'.residents = c.residents) (hlog : c'.log = c.log)
    (hsupervisor : c'.supervisor = c.supervisor) : Rests c c' := by
  refine ⟨fun i session howns => ?_, ⟨[], by rw [hlog, List.append_nil], nofun⟩, hsupervisor⟩
  unfold Owns at howns ⊢
  rwa [hresidents] at howns

theorem change {f : Resident → Resident}
    (hf : ∀ r, (f r).alive = r.alive ∧ (f r).actor.session.id = r.actor.session.id) :
    Rests c (c.change other f) := by
  have howns : ∀ i session, (c.change other f).Owns i session → c.Owns i session :=
    fun i session => (owns_change hf).mp
  obtain ⟨residents, heq⟩ := change_eq c other f
  rw [heq] at howns ⊢
  exact ⟨howns, ⟨[], (List.append_nil _).symm, nofun⟩, rfl⟩

theorem post (c : Coordinator) (other : Nat) (letter : Letter) : Rests c (c.post other letter) :=
  change fun r => by split <;> exact ⟨rfl, rfl⟩

theorem withLedger (c : Coordinator) (other : Nat) (f : Bridge → Bridge) :
    Rests c (c.withLedger other f) :=
  change fun r => ⟨rfl, congrArg Session.id (session_withLedger r.actor _)⟩

theorem put (c : Coordinator) (call : Nat) (errand : Errand) : Rests c (c.put call errand) :=
  of_same rfl rfl rfl

theorem begin (c : Coordinator) (errand : Errand) : Rests c (c.begin errand).2 :=
  of_same rfl rfl rfl

theorem killAll (c : Coordinator) : Rests c c.killAll :=
  ⟨fun _ _ => id, ⟨_, rfl, fun _ hentry => ⟨_, List.mem_singleton.mp hentry⟩⟩, rfl⟩

theorem send (c : Coordinator) (call other : Nat) (letter : Letter) (next : Errand)
    {gone : Coordinator → Coordinator} (hgone : Rests c (gone c)) :
    Rests c (c.send call other letter next gone) := by
  unfold Coordinator.send
  split
  · split
    · exact (post c other letter).trans (put _ call next)
    · exact refl c
  · exact hgone

end Rests

/-- What an event comes to for owners, for the log and for processes. -/
inductive Passes (c : Coordinator) (e : Event) : Coordinator → Prop where
  | rests {c' : Coordinator} (h : Rests c c') : Passes c e c'
  | enters (session : Session) (hentering : c.entering? e = some session.id)
    (hfree : c.table.find? session.id = none) (call : Nat) (errand : Errand) :
    Passes c e ((c.entered session).put call errand)
  | goesOn (g : Nat) (what : Supervisor.Step) :
    Passes c e { c with supervisor := c.supervisor.step g what }
  | works (i : Nat) (actor : Actor) (mailbox rest : List Letter) (alive : Bool) (room : Room)
    (hfind : c.residents.find? i = some ⟨actor, mailbox, true⟩)
    (htells : room.TellsRuns actor.session.id c.supervisor) :
    Passes c e (c.leave i rest alive room)

theorem advance_passes (c : Coordinator) (call : Nat) :
    Passes c (.advance call) (c.advance call) := by
  unfold advance
  split
  · exact .rests (.refl c)
  · next session _ =>
      have hwritten : Rests c { c with disk := (FileDeed.runAll c.disk session.preparing).2 } :=
        .of_same rfl rfl rfl
      exact .rests (hwritten.trans (.put _ call _))
  · next session hfind =>
      unfold enter
      split
      · exact .rests (.put c call _)
      · next hopen =>
          refine .enters session ?_ ?_ call (.finished (.ok []))
          · simp only [entering?, hfind, if_neg hopen]
          · exact (Table.contains_eq_false_iff _ _).mp ((Bool.not_eq_true _).mp hopen)
  · split
    · exact .rests ((Rests.killAll c).trans (.put _ call _))
    · exact .rests (.put c call _)
  · exact .rests (.send c call _ _ _ (.put c call _))
  · split
    · exact .rests (.refl c)
    · exact .rests (.put c call _)
  · exact .rests (.send c call _ _ _ (.put c call _))
  · split
    · exact .rests (.refl c)
    · exact .rests (.put c call _)
  · exact .rests (.refl c)

theorem step_passes (c : Coordinator) (e : Event) : Passes c e (c.step e) := by
  cases e with
  | dispatch sender message =>
      change Passes c _ (c.dispatch sender message).2
      unfold dispatch
      split
      · exact .rests (.refl c)
      · split
        · exact .rests (.refl c)
        · split
          · exact .rests (.post c _ _)
          · exact .rests (.refl c)
  | beginOpen session =>
      change Passes c _ (c.beginOpen session).2
      unfold beginOpen
      split <;> exact .rests (.begin c _)
  | beginClose session =>
      change Passes c _ (c.beginClose session).2
      unfold beginClose
      split <;> exact .rests (.of_same rfl rfl rfl)
  | beginShutdown => exact .rests (.of_same rfl rfl rfl)
  | beginCells session =>
      change Passes c _ (c.beginCells session).2
      unfold beginCells
      split <;> exact .rests (.begin c _)
  | advance call => exact advance_passes c call
  | work other =>
      change Passes c _ (c.work other)
      unfold work
      split
      · next actor letter rest hfind =>
          exact .works other actor _ rest _ _ hfind (Room.receive_tellsRuns (c.room actor) letter)
      · exact .rests (.refl c)
  | hear other =>
      change Passes c _ (c.hear other)
      unfold hear
      split
      · next actor mailbox hfind =>
          exact .works other actor _ mailbox true _ hfind (Room.hearNext_tellsRuns (c.room actor))
      · exact .rests (.refl c)
  | conclude other => exact .rests (.change fun _ => ⟨rfl, rfl⟩)
  | supply spawner disk => exact .rests (.of_same rfl rfl rfl)
  | process generation what => exact .goesOn generation what
  | exit other cell pid purpose info => exact .rests (.post c other _)
  | happens other incident => exact .rests (.withLedger c other fun b => b.apply incident)
  | plan other hindrance launches incidents =>
      exact .rests (.withLedger c other fun b => { b with hindrance, launches, incidents })

/-! ## One owner at a time -/

/-- A session has one owner, and what was done for it was done in turn: not by anybody who came
after the owner. -/
structure Turns (c : Coordinator) : Prop where
  alone : ∀ i j session, c.Owns i session → c.Owns j session → i = j
  log : c.log.Pairwise LogEntry.InTurn
  past : ∀ j session e, .effect j session e ∈ c.log → ∀ i, c.Owns i session → j ≤ i

theorem turns_new (facilities : Facilities) (spawner : Spawner) (disk : Disk)
    (supervisor : Supervisor) : (new facilities spawner disk supervisor).Turns := by
  refine ⟨fun i j session hi => ?_, List.Pairwise.nil, fun j session e he => ?_⟩
  · obtain ⟨r, hr, _⟩ := hi
    cases hr
  · cases he

/-- Who is told of in the log has been entered. -/
theorem Numbered.lt_of_mem_log (h : c.Numbered) {j : Nat} {session : SessionId} {e : Effect}
    (he : .effect j session e ∈ c.log) : j < c.residents.size := by
  refine Nat.lt_of_not_le fun hle => ?_
  have hmem : e ∈ c.effectsOf j := List.mem_filterMap.mpr ⟨_, he, if_pos rfl⟩
  rw [h.effects j hle] at hmem
  cases hmem

theorem Rests.turns (h : Rests c c') (hc : c.Turns) : c'.Turns := by
  obtain ⟨killed, hlog, hkilled⟩ := h.log
  refine ⟨fun i j session hi hj => hc.alone i j session (h.owns i _ hi) (h.owns j _ hj), ?_, ?_⟩
  · rw [hlog, List.pairwise_append]
    refine ⟨hc.log, List.pairwise_of_forall_mem_list fun entry hentry entry' _ => ?_,
      fun entry _ entry' hentry' => ?_⟩
    · obtain ⟨pids, rfl⟩ := hkilled entry hentry
      trivial
    · obtain ⟨pids, rfl⟩ := hkilled entry' hentry'
      cases entry <;> trivial
  · intro j session e he i hi
    rw [hlog, List.mem_append] at he
    rcases he with hold | hnew
    · exact hc.past j session e hold i (h.owns i session hi)
    · obtain ⟨pids, heq⟩ := hkilled _ hnew
      cases heq

/-- A session is entered that has no owner. -/
theorem Turns.entered (hc : c.Turns) (hnumbered : c.Numbered) {session : Session}
    (hnone : ∀ i, ¬c.Owns i session.id) : (c.entered session).Turns := by
  refine ⟨fun i j name hi hj => ?_, hc.log, fun j name e he i hi => ?_⟩
  · rcases hi.of_entered with hi | ⟨rfl, rfl⟩
    · rcases hj.of_entered with hj | ⟨rfl, rfl⟩
      · exact hc.alone i j name hi hj
      · exact absurd hi (hnone i)
    · rcases hj.of_entered with hj | ⟨rfl, _⟩
      · exact absurd hj (hnone j)
      · rfl
  · rcases hi.of_entered with hi | ⟨rfl, _⟩
    · exact hc.past j name e he i hi
    · exact Nat.le_of_lt (hnumbered.lt_of_mem_log he)

/-- An owner works in its room. -/
theorem Turns.leave (hc : c.Turns) {i : Nat} {actor : Actor} {mailbox rest : List Letter}
    (hfind : c.residents.find? i = some ⟨actor, mailbox, true⟩) (alive : Bool) {room : Room}
    (hid : room.actor.session.id = actor.session.id) : (c.leave i rest alive room).Turns := by
  have howner : c.Owns i actor.session.id := ⟨_, hfind, rfl, rfl⟩
  have howns : ∀ j session, (c.leave i rest alive room).Owns j session → c.Owns j session :=
    fun j session h => h.of_leave hfind hid
  have hlog : (c.leave i rest alive room).log =
      c.log ++ room.effects.map (.effect i room.actor.session.id) := by
    obtain ⟨errands, heq⟩ := leave_eq c i rest alive room
    rw [heq]
  rw [hid] at hlog
  refine ⟨fun j k session hj hk => hc.alone j k session (howns j _ hj) (howns k _ hk), ?_, ?_⟩
  · rw [hlog, List.pairwise_append]
    refine ⟨hc.log, List.pairwise_map.mpr (List.pairwise_of_forall fun _ _ _ => Nat.le_refl i),
      fun entry hentry entry' hentry' => ?_⟩
    obtain ⟨e', _, rfl⟩ := List.mem_map.mp hentry'
    cases entry with
    | killed pids => trivial
    | effect j session e => exact fun hsame => hc.past j session e hentry i (hsame ▸ howner)
  · intro j session e he k hk
    rw [hlog, List.mem_append] at he
    rcases he with hold | hnew
    · exact hc.past j session e hold k (howns k session hk)
    · obtain ⟨e', _, heq⟩ := List.mem_map.mp hnew
      obtain ⟨rfl, rfl, -⟩ := LogEntry.effect.inj heq
      exact Nat.le_of_eq (hc.alone _ k _ howner (howns k _ hk))

theorem Passes.turns {e : Event} (h : Passes c e c') (hnumbered : c.Numbered)
    (hordered : c.Ordered) (hvacated : ∀ session ∈ c.entering? e, c.Vacated session)
    (hc : c.Turns) : c'.Turns := by
  cases h with
  | rests h => exact h.turns hc
  | enters session hentering hfree call errand =>
      -- An owner would be listed, or leaving.
      have hnone : ∀ i, ¬c.Owns i session.id := fun i hi =>
        (hordered.owned i session.id hi).elim
          (fun hlisted => by rw [hfree] at hlisted; cases hlisted)
          (hvacated session.id hentering i hi)
      exact (Rests.put _ call errand).turns (hc.entered hnumbered hnone)
  | goesOn g what => exact ⟨hc.alone, hc.log, hc.past⟩
  | works i actor mailbox rest alive room hfind htells => exact hc.leave hfind alive htells.id

theorem run_turns {events : List Event} (htrack : c.KeepsTrack) (hordered : c.Ordered)
    (hvacated : c.EntersWhen Vacated events) (hc : c.Turns) : (c.run events).Turns := by
  induction events generalizing c with
  | nil => exact hc
  | cons e rest ih =>
      exact ih (step_keepsTrack htrack e) (step_ordered hordered htrack.numbered e) hvacated.2
        ((step_passes c e).turns htrack.numbered hordered hvacated.1 hc)

/-! ## Processes of the owner -/

/-- The processes of a session that go on were started by its owner. -/
def RunsOwned (c : Coordinator) : Prop :=
  ∀ i session, c.Owns i session → ∀ g run, c.supervisor.runs.find? g = some run →
    run.key.session = session → ¬run.IsOver → c.Started i g

theorem Started.of_log {i g : Nat} (h : c.Started i g) {new : List LogEntry}
    (hlog : c'.log = c.log ++ new) : c'.Started i g := by
  unfold Started effectsOf at h ⊢
  rw [hlog, List.filterMap_append, List.filterMap_append]
  exact List.mem_append_left _ h

theorem Rests.runsOwned (h : Rests c c') (hc : c.RunsOwned) : c'.RunsOwned := by
  obtain ⟨killed, hlog, _⟩ := h.log
  intro i session howns g run hrun hkey hon
  rw [h.supervisor] at hrun
  exact (hc i session (h.owns i session howns) g run hrun hkey hon).of_log hlog

theorem Passes.runsOwned {e : Event} (h : Passes c e c') (hturns : c.Turns)
    (hquiescent : ∀ session ∈ c.entering? e, c.Quiescent session) (hc : c.RunsOwned) :
    c'.RunsOwned := by
  cases h with
  | rests h => exact h.runsOwned hc
  | enters session hentering hfree call errand =>
      refine (Rests.put _ call errand).runsOwned fun i name howns g run hrun hkey hon => ?_
      rcases howns.of_entered with howns | ⟨_, rfl⟩
      · exact hc i name howns g run hrun hkey hon
      · exact absurd (hquiescent session.id hentering g run hrun hkey) hon
  | goesOn g what =>
      intro i session howns g' run hrun hkey hon
      obtain ⟨run', hrun', hsame, hon'⟩ := Supervisor.runs_step hrun hon
      exact hc i session howns g' run' hrun'
        ((congrArg ProcessKey.session hsame).trans hkey) hon'
  | works k actor mailbox rest alive room hfind htells =>
      intro i session howns g run hrun hkey hon
      have hbefore := howns.of_leave hfind htells.id
      have heffects := effectsOf_leave c k rest alive room i
      have hsupervisor : (c.leave k rest alive room).supervisor = room.supervisor := by
        obtain ⟨errands, heq⟩ := leave_eq c k rest alive room
        rw [heq]
      rw [hsupervisor] at hrun
      unfold Started
      rw [heffects, List.filterMap_append, List.mem_append]
      rcases htells.runs g run hrun with hold | ⟨hown, htold⟩
      · exact Or.inl (hc i session hbefore g run hold hkey hon)
      · -- Whoever starts a process of the session owns it, and nobody else does.
        have howner : c.Owns k session := ⟨_, hfind, rfl, hown.symm.trans hkey⟩
        obtain rfl := hturns.alone k i session howner hbefore
        exact Or.inr ((if_pos rfl).symm ▸ htold)

theorem run_runsOwned {events : List Event} (htrack : c.KeepsTrack) (hordered : c.Ordered)
    (hturns : c.Turns) (hvacated : c.EntersWhen Vacated events)
    (hquiescent : c.EntersWhen Quiescent events) (hc : c.RunsOwned) :
    (c.run events).RunsOwned := by
  induction events generalizing c with
  | nil => exact hc
  | cons e rest ih =>
      have hpasses := step_passes c e
      exact ih (step_keepsTrack htrack e) (step_ordered hordered htrack.numbered e)
        (hpasses.turns htrack.numbered hordered hvacated.1 hturns) hvacated.2 hquiescent.2
        (hpasses.runsOwned hturns hquiescent.1 hc)

/-! ## Every run -/

/-- Whatever is opened, closed, shut down, asked for and worked off in whatever order: an open
session is owned by the resident that is listed for it, and any other resident that owns it is
leaving.  If no session is entered while an owner of it is leaving, then no session has two owners,
and what residents do for a session they do in turn, so that nobody writes its files or tells its
subscribers after a later resident has begun to.  And if no process of a session goes on either when
it is entered, then the processes of the session that go on are those that its owner has started. -/
theorem one_owner (facilities : Facilities) (spawner : Spawner) (disk : Disk) (capacity : Nat)
    (events : List Event) :
    let c₀ := new facilities spawner disk (.new capacity)
    let c := c₀.run events
    (∀ i session, c.table.find? session = some i ↔ c.Owns i session ∧ ¬c.Leaving i) ∧
    (∀ i j session, c.Owns i session → c.Owns j session → i ≠ j → c.Leaving i ∨ c.Leaving j) ∧
    (c₀.EntersWhen Vacated events →
      (∀ i j session, c.Owns i session → c.Owns j session → i = j) ∧
      c.log.Pairwise LogEntry.InTurn ∧
      (c₀.EntersWhen Quiescent events →
        ∀ i session, c.Owns i session → ∀ g run, c.supervisor.runs.find? g = some run →
          run.key.session = session → ¬run.IsOver → c.Started i g)) := by
  intro c₀ c
  have htrack := new_keepsTrack facilities spawner disk capacity
  have hordered := ordered_new facilities spawner disk (.new capacity)
  have hturns := turns_new facilities spawner disk (.new capacity)
  have hends := run_ordered hordered htrack events
  refine ⟨fun i session => ⟨hends.owns_of_find?, fun h => ?_⟩,
    fun i j session => hends.leaving, fun hvacated => ?_⟩
  · exact (hends.owned i session h.1).resolve_right h.2
  · obtain ⟨halone, hlog, _⟩ := run_turns htrack hordered hvacated hturns
    refine ⟨halone, hlog, fun hquiescent => ?_⟩
    refine run_runsOwned htrack hordered hturns hvacated hquiescent fun i session howns => ?_
    obtain ⟨r, hr, _⟩ := howns
    cases hr

/-! ## Closed runs -/

/-- A coordinator on whose host the process of the cell `x` gets a pid of its own. -/
def host : Coordinator :=
  new ⟨.standard, .standard, []⟩ (fun _ request => .ok (if request.key.cell = ⟨"x"⟩ then 7 else 8))
    .empty (.new 16)

/-- A session with one cell. -/
def book (cell : CellId) : Session :=
  ⟨⟨"s"⟩, "/book", .typescript, [.code ⟨cell, "1", "a.ts", .typescript, .idle⟩]⟩

/-- The call opens a session that is not open, undisturbed. -/
def opens (call : Nat) (session : Session) : List Event :=
  [.beginOpen session, .advance call, .advance call]

/-- The call closes a session, undisturbed. -/
def closes (call resident : Nat) (session : SessionId) : List Event :=
  [.beginClose session, .advance call, .work resident, .advance call, .advance call]

/-- The resident executes a cell of its session. -/
def executes (resident : Nat) (session : SessionId) (cell : CellId) : List Event :=
  [.dispatch ⟨0⟩ ⟨session, .execute cell⟩, .work resident]

/-- A process ends and is reported. -/
def exits (generation : Nat) : List Event :=
  [.exit ⟨some 0⟩, .attend .stdout, .finish .stdout, .attend .stderr, .finish .stderr, .drain,
    .remove, .report, .take].map (.process generation)

/-- A cell is executed to the end, the session is closed and opened again, and a cell of the new
one is executed. -/
def reopened : List Event :=
  opens 0 (book ⟨"x"⟩) ++ executes 0 ⟨"s"⟩ ⟨"x"⟩ ++ exits 1 ++ closes 1 0 ⟨"s"⟩ ++
    opens 2 (book ⟨"y"⟩) ++ executes 1 ⟨"s"⟩ ⟨"y"⟩

theorem one_owner_reopened :
    let c := host.run reopened
    host.EntersWhen Vacated reopened ∧ host.EntersWhen Quiescent reopened ∧
    c.Owns 1 ⟨"s"⟩ ∧ ¬c.Owns 0 ⟨"s"⟩ ∧ c.log.Pairwise LogEntry.InTurn ∧
    ∃ run, c.supervisor.runs.find? 2 = some run ∧ ¬run.IsOver ∧ c.Started 1 2 := by
  intro c
  have hvacated : host.EntersWhen Vacated reopened := by decide +kernel
  have hquiescent : host.EntersWhen Quiescent reopened := by decide +kernel
  have howns : c.Owns 1 ⟨"s"⟩ := by decide +kernel
  obtain ⟨run, hrun, hkey, hon⟩ : ∃ run ∈ c.supervisor.runs.find? 2,
      run.key.session = ⟨"s"⟩ ∧ ¬run.IsOver := by decide +kernel
  obtain ⟨_, _, hturns⟩ := one_owner ⟨.standard, .standard, []⟩
    (fun _ request => .ok (if request.key.cell = ⟨"x"⟩ then 7 else 8)) .empty 16 reopened
  obtain ⟨halone, hlog, hstarted⟩ := hturns hvacated
  refine ⟨hvacated, hquiescent, howns, fun hfirst => ?_, hlog, run, hrun, hon,
    hstarted hquiescent 1 _ howns 2 run hrun hkey hon⟩
  cases halone 0 1 _ hfirst howns

/-- The session is opened again before its first resident has handled a letter that waits, and
has not got its last one either.  Both residents then work, first the new one. -/
def overlapping : List Event :=
  opens 0 (book ⟨"x"⟩) ++ [.dispatch ⟨0⟩ ⟨⟨"s"⟩, .edit ⟨"x"⟩ "2"⟩, .beginClose ⟨"s"⟩] ++
    opens 2 (book ⟨"x"⟩) ++ executes 1 ⟨"s"⟩ ⟨"x"⟩ ++ [.work 0]

/-- A cell is executed, and the session is closed and opened again while its process goes on.  A
cell of the new session is executed. -/
def outlived : List Event :=
  opens 0 (book ⟨"x"⟩) ++ executes 0 ⟨"s"⟩ ⟨"x"⟩ ++ closes 1 0 ⟨"s"⟩ ++
    opens 2 (book ⟨"y"⟩) ++ executes 1 ⟨"s"⟩ ⟨"y"⟩

/-- Two residents own a session at once.  The first writes its file and tells its subscribers
after the second has begun to, and at its end signals the process that the second has started.
And without an overlap of residents, processes of both go on at once. -/
theorem owners_side_by_side :
    let c := host.run overlapping
    let ended := c.run [.advance 1, .work 0]
    let c' := host.run outlived
    (c.Owns 0 ⟨"s"⟩ ∧ c.Owns 1 ⟨"s"⟩ ∧
      c.effectsOf 0 = [.files [.makeDirectory "/book/src", .write "/book/src/a.ts" "2"],
        .notice (.updated (.code ⟨⟨"x"⟩, "2", "a.ts", .typescript, .idle⟩))] ∧
      ¬c.log.Pairwise LogEntry.InTurn ∧
      c.Started 1 1 ∧ (∃ run ∈ ended.supervisor.runs.find? 1, run.pid = 7 ∧ ¬run.IsOver) ∧
      .signalled 7 ∈ ended.effectsOf 0) ∧
    (c'.Owns 1 ⟨"s"⟩ ∧ ¬c'.Owns 0 ⟨"s"⟩ ∧
      (∃ run ∈ c'.supervisor.runs.find? 1, run.key = ⟨⟨"s"⟩, ⟨"x"⟩⟩ ∧ ¬run.IsOver) ∧
      (∃ run ∈ c'.supervisor.runs.find? 2, run.key = ⟨⟨"s"⟩, ⟨"y"⟩⟩ ∧ ¬run.IsOver) ∧
      c'.Started 0 1 ∧ c'.Started 1 2) := by
  decide +kernel

end Coordinator
end Notebook
