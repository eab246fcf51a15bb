import Notebook.Proofs.Actor.Replies
import Notebook.Proofs.Actor.RunningCells

/-!
# Exits

Every process that an actor starts comes to one exit.  A watcher waits for it, then a letter
carries it through the mailbox, and at last it is handled; in between it is never lost and
never doubled: `Site.run_exits`.

The actor remembers the latest process of each cell and forgets it when its exit has been
handled: `Site.run_runs`.  An exit is therefore noted if its process was alone with its cell
and its pid, from its start on: `Site.Alone.isLatest`.

None of this depends on the cells of the session, so it is also true of a session that was
opened with cells that say that they are running.  What `Attended` says about processes is
used for an actor whose cells are put out of sight.
-/

set_option autoImplicit false

namespace Notebook

/-! ## Processes in effects and letters -/

/-- The process that an effect starts, as its watcher knows it. -/
def Effect.start? : Effect → Option Watcher
  | .spawned _ pid request purpose => some ⟨request.key.cell, pid, purpose⟩
  | _ => none

/-- The process whose exit a letter carries. -/
def Letter.exit? : Letter → Option Watcher
  | .exited cell pid purpose _ => some ⟨cell, pid, purpose⟩
  | _ => none

theorem Effect.start?_of_isAside {e : Effect} (h : e.isAside = true) : e.start? = none := by
  cases e with
  | spawned _ _ _ _ => cases h
  | _ => rfl

theorem Letter.exit?_eq_some {letter : Letter} {w : Watcher} (h : letter.exit? = some w) :
    ∃ info, letter = .exited w.cell w.pid w.purpose info := by
  cases letter with
  | exited cell pid purpose info =>
      obtain rfl := Option.some.inj h
      exact ⟨info, rfl⟩
  | _ => cases h

/-- The exits of the two processes look the same to an actor: it knows a process by its cell
and its pid. -/
def Watcher.resembles (w w' : Watcher) : Bool :=
  w'.cell = w.cell ∧ w'.pid = w.pid

theorem Watcher.resembles_self (w : Watcher) : w.resembles w = true := by
  simp [Watcher.resembles]

/-- The actor with its cells put out of sight. -/
def Actor.withoutCells (a : Actor) : Actor :=
  { a with session.cells := [] }

namespace Session

theorem laterIdle_of_nil {s : Session} (h : s.cells = []) : s.LaterIdle := by
  unfold LaterIdle
  rw [h]
  exact .nil

theorem calm_of_nil {s s' : Session} (h : s'.cells = []) : Calm s s' := by
  refine ⟨fun _ => laterIdle_of_nil h, fun c hc _ => ?_⟩
  rw [h] at hc
  cases hc

theorem sets_of_nil {s s' : Session} (hid : s'.id = s.id) (h : s'.cells = []) (cell : CellId)
    (status : CellStatus) : Sets s cell status s' := by
  refine ⟨hid, laterIdle_of_nil h, fun c hc _ => ?_⟩
  rw [h] at hc
  cases hc

end Session

/-! ## Rooms -/

namespace Room

variable {r r' r'' : Room}

/-- The room `r'` follows `r`, and no process was started and no exit was noted. -/
structure Unstarted (r r' : Room) : Prop where
  supervisor : r'.supervisor = r.supervisor
  runs : r'.actor.runs = r.actor.runs
  session : r'.actor.session.id = r.actor.session.id
  effects : ∃ new, r'.effects = r.effects ++ new ∧ ∀ e ∈ new, e.start? = none

namespace Unstarted

theorem refl (r : Room) : Unstarted r r :=
  ⟨rfl, rfl, rfl, [], (List.append_nil _).symm, nofun⟩

theorem trans (h : Unstarted r r') (h' : Unstarted r' r'') : Unstarted r r'' := by
  obtain ⟨new, hnew, hnone⟩ := h.effects
  obtain ⟨new', hnew', hnone'⟩ := h'.effects
  refine ⟨h'.supervisor.trans h.supervisor, h'.runs.trans h.runs, h'.session.trans h.session,
    new ++ new', by rw [hnew', hnew, List.append_assoc], fun e he => ?_⟩
  rcases List.mem_append.mp he with he | he
  · exact hnone e he
  · exact hnone' e he

theorem tell (r : Room) {e : Effect} (he : e.start? = none) : Unstarted r (r.tell e) := by
  refine ⟨rfl, rfl, rfl, [e], rfl, fun e' he' => ?_⟩
  rw [List.mem_singleton.mp he']
  exact he

theorem setStatus (r : Room) (cell : CellId) (status : CellStatus) :
    Unstarted r (r.setStatus cell status) := by
  rcases setStatus_cases r cell status with ⟨_, heq⟩ | ⟨_, heq⟩
  · rw [heq]
    have hsession : Unstarted r (r.withSession (r.actor.session.update cell
        (·.withStatus status))) := ⟨rfl, rfl, rfl, [], (List.append_nil _).symm, nofun⟩
    exact hsession.trans (tell _ rfl)
  · rw [heq]
    exact refl r

/-- No process is started. -/
theorem starts (h : Unstarted r r') :
    r'.effects.filterMap Effect.start? = r.effects.filterMap Effect.start? := by
  obtain ⟨new, hnew, hnone⟩ := h.effects
  rw [hnew, List.filterMap_append, List.filterMap_eq_nil_iff.mpr hnone, List.append_nil]

end Unstarted

theorem Quiet.unstarted (h : Quiet r r') : Unstarted r r' := by
  obtain ⟨new, hnew, haside⟩ := h.effects
  exact ⟨h.supervisor, h.runs, congrArg Session.id h.session, new, hnew,
    fun e he => Effect.start?_of_isAside (haside e he)⟩

theorem Edited.unstarted (h : Edited r r') : Unstarted r r' := by
  obtain ⟨session, n, r₁, hannounces, _, hsilent, rfl⟩ := h
  have hsession : Unstarted r (r.withSession session) :=
    ⟨rfl, rfl, hannounces.id, [], (List.append_nil _).symm, nofun⟩
  exact (hsession.trans hsilent.quiet.unstarted).trans (.tell _ rfl)

theorem begun_unstarted (r : Room) (cell : CellId) (program : String) (args : List String)
    (purpose : Purpose) (pid : Nat) : Unstarted (r.begun cell program args purpose pid)
      (r.spawned cell (r.runRequest cell program args) purpose pid) :=
  .setStatus _ cell .running

/-- A change starts no process, or it starts one for a cell whose key is free. -/
theorem Change.starts_cases (h : Change r r') :
    Unstarted r r' ∨ ∃ cell program args purpose pid,
      r.supervisor.isRunning (r.actor.key cell) = false ∧
      Unstarted (r.begun cell program args purpose pid) r' := by
  rcases h.cases with hquiet | hedited | ⟨cell, failure, rfl⟩ |
    ⟨cell, program, args, purpose, pid, hfree, rfl⟩
  · exact Or.inl hquiet.unstarted
  · exact Or.inl hedited.unstarted
  · exact Or.inl ((Unstarted.setStatus r cell .idle).trans (.tell _ rfl))
  · exact Or.inr ⟨cell, program, args, purpose, pid, hfree, begun_unstarted r _ _ _ _ _⟩

theorem foldl_enroll_of_start? (effects : List Effect)
    (h : ∀ e ∈ effects, e.start? = none) (watchers : Table Nat Watcher) :
    effects.foldl Site.enroll watchers = watchers := by
  induction effects with
  | nil => rfl
  | cons e rest ih =>
      have hfirst : Site.enroll watchers e = watchers := by
        cases e with
        | spawned _ _ _ _ => cases h _ List.mem_cons_self
        | _ => rfl
      rw [List.foldl_cons, hfirst]
      exact ih fun e he => h e (List.mem_cons_of_mem _ he)

/-- The processes of the actor in the room are attended, and the watchers are those from
before and one for each process that was started since. -/
structure Enrolls (watchers : Table Nat Watcher) (letters : List Letter) (r : Room) :
    Prop where
  attended : Attended (r.effects.foldl Site.enroll watchers) letters r.supervisor
    r.actor.withoutCells
  nodup : (r.effects.foldl Site.enroll watchers).keys.Nodup
  listed : (r.effects.foldl Site.enroll watchers).entries.map (·.2) =
    watchers.entries.map (·.2) ++ r.effects.filterMap Effect.start?

variable {watchers : Table Nat Watcher} {letters : List Letter}

theorem Unstarted.enrolls (h : Unstarted r r') (hr : r.Enrolls watchers letters) :
    r'.Enrolls watchers letters := by
  have hstarts := h.starts
  obtain ⟨new, hnew, hnone⟩ := h.effects
  have hwatchers : r'.effects.foldl Site.enroll watchers =
      r.effects.foldl Site.enroll watchers := by
    rw [hnew, List.foldl_append, foldl_enroll_of_start? new hnone]
  refine ⟨?_, hwatchers ▸ hr.nodup, by rw [hwatchers, hr.listed, hstarts]⟩
  rw [hwatchers, h.supervisor]
  exact hr.attended.calm (Session.calm_of_nil rfl) h.session h.runs

/-- A process that is started gets a generation of its own. -/
theorem begun_enrolls {cell : CellId} (hfree : r.supervisor.isRunning (r.actor.key cell) = false)
    (program : String) (args : List String) (purpose : Purpose) (pid : Nat)
    (hr : r.Enrolls watchers letters) :
    (r.begun cell program args purpose pid).Enrolls watchers letters := by
  have henrolled : (r.begun cell program args purpose pid).effects.foldl Site.enroll watchers =
      (r.effects.foldl Site.enroll watchers).set r.supervisor.nextGeneration
        ⟨cell, pid, purpose⟩ := by
    change (r.effects ++ [_]).foldl Site.enroll watchers = _
    rw [List.foldl_append]
    rfl
  have hnew : (r.effects.foldl Site.enroll watchers).find? r.supervisor.nextGeneration =
      none := by
    cases hw : (r.effects.foldl Site.enroll watchers).find? r.supervisor.nextGeneration with
    | none => rfl
    | some w =>
        obtain ⟨run, hrun, _⟩ := hr.attended.watches _ w hw
        rw [hr.attended.coherent.future] at hrun
        cases hrun
  refine ⟨?_, ?_, ?_⟩
  · rw [henrolled]
    exact hr.attended.started hfree pid purpose (Session.sets_of_nil rfl rfl cell .running) rfl
  · rw [henrolled]
    exact Table.nodup_keys_set _ hr.nodup _ _
  · have hstarts : (r.begun cell program args purpose pid).effects.filterMap Effect.start? =
        r.effects.filterMap Effect.start? ++ [⟨cell, pid, purpose⟩] :=
      List.filterMap_append
    rw [henrolled, Table.entries_set_of_find?_eq_none _ hnew, List.map_append, hr.listed,
      hstarts, List.append_assoc]
    rfl

theorem Change.enrolls (h : Change r r') (hr : r.Enrolls watchers letters) :
    r'.Enrolls watchers letters := by
  rcases h.starts_cases with hunstarted | ⟨cell, program, args, purpose, pid, hfree, hbegun⟩
  · exact hunstarted.enrolls hr
  · exact hbegun.enrolls (begun_enrolls hfree program args purpose pid hr)

theorem ended_enrolls {cell : CellId} {pid : Nat} {purpose : Purpose} {info : ExitInfo}
    (hr : r.Enrolls watchers (.exited cell pid purpose info :: letters)) :
    (r.ended cell).Enrolls watchers letters := by
  let r₁ : Room := { r with actor.runs := r.actor.runs.erase cell }
  have hr₁ : r₁.Enrolls watchers letters :=
    ⟨hr.attended.finished (Session.sets_of_nil rfl rfl cell .idle) rfl, hr.nodup, hr.listed⟩
  exact (Unstarted.setStatus r₁ cell .idle).enrolls hr₁

/-- A letter is handled. -/
theorem receive_enrolls {letter : Letter} (hr : r.Enrolls watchers (letter :: letters)) :
    (r.receive letter).2.Enrolls watchers letters := by
  have hchanges : ∀ r₁ r₂ : Room, Changes r₁ r₂ → r₁.Enrolls watchers letters →
      r₂.Enrolls watchers letters := fun r₁ r₂ h h₁ =>
    h.preserves (P := Enrolls watchers letters) (fun _ _ hchange h => hchange.enrolls h) h₁
  rcases receive_changes r letter with ⟨hnot, h⟩ | ⟨cell, pid, ⟨⟨purpose, info, rfl⟩, _⟩, h⟩
  · refine hchanges _ _ h ⟨hr.attended.drop ?_, hr.nodup, hr.listed⟩
    intro cell pid purpose info heq hpid
    refine Bool.not_eq_false _ |>.mp fun hstopped =>
      hnot cell pid ⟨⟨purpose, info, heq⟩, hpid, ?_⟩
    rw [show r.supervisor.isRunning (r.actor.key cell) = false from hstopped]
    exact Bool.false_ne_true
  · exact hchanges _ _ h (ended_enrolls hr)

/-! ## The latest processes -/

/-- The latest process of a cell has this pid, unless the actor has started another. -/
def Keeps (cell : CellId) (pid : Nat) (r : Room) : Prop :=
  (∀ w ∈ r.effects.filterMap Effect.start?, w.cell ≠ cell) → r.actor.runs.find? cell = some pid

theorem Unstarted.keeps {cell : CellId} {pid : Nat} (h : Unstarted r r')
    (hr : r.Keeps cell pid) : r'.Keeps cell pid := by
  unfold Keeps
  rw [h.starts, h.runs]
  exact hr

theorem Change.keeps {cell : CellId} {pid : Nat} (h : Change r r') (hr : r.Keeps cell pid) :
    r'.Keeps cell pid := by
  rcases h.starts_cases with hunstarted | ⟨other, program, args, purpose, pid', _, hbegun⟩
  · exact hunstarted.keeps hr
  · refine hbegun.keeps fun hnone => ?_
    have hstarts : (r.begun other program args purpose pid').effects.filterMap Effect.start? =
        r.effects.filterMap Effect.start? ++ [⟨other, pid', purpose⟩] :=
      List.filterMap_append
    rw [hstarts] at hnone
    have hne : other ≠ cell := hnone _ (List.mem_append_right _ List.mem_cons_self)
    change (r.actor.runs.set other pid').find? cell = some pid
    rw [Table.find?_set, if_neg hne]
    exact hr fun w hw => hnone w (List.mem_append_left _ hw)

/-- Only its own exit makes the actor forget a process, or the start of another. -/
theorem receive_keeps {cell : CellId} {pid : Nat} {letter : Letter}
    (hr : r.Keeps cell pid)
    (hletter : ∀ w, letter.exit? = some w → ¬(w.cell = cell ∧ w.pid = pid))
    (hfirst : r.effects = []) : (r.receive letter).2.Keeps cell pid := by
  have hchanges : ∀ r₁ r₂ : Room, Changes r₁ r₂ → r₁.Keeps cell pid → r₂.Keeps cell pid :=
    fun r₁ r₂ h h₁ =>
      h.preserves (P := Keeps cell pid) (fun _ _ hchange h => hchange.keeps h) h₁
  rcases receive_changes r letter with
    ⟨_, h⟩ | ⟨other, pid', ⟨⟨purpose, info, rfl⟩, hlatest, _⟩, h⟩
  · exact hchanges _ _ h hr
  · refine hchanges _ _ h ?_
    have hrun : r.actor.runs.find? cell = some pid := hr (by rw [hfirst]; exact nofun)
    have hne : other ≠ cell := by
      rintro rfl
      obtain rfl := Option.some.inj (hlatest.symm.trans hrun)
      exact hletter _ rfl ⟨rfl, rfl⟩
    let r₁ : Room := { r with actor.runs := r.actor.runs.erase other }
    refine (Unstarted.setStatus r₁ other .idle).keeps fun _ => ?_
    change (r.actor.runs.erase other).find? cell = some pid
    rw [Table.find?_erase, if_neg hne, hrun]

end Room

/-! ## Sites -/

namespace Site

variable {s s' : Site}

/-- The processes whose exits are still to be handled. -/
def exits (s : Site) : List Watcher :=
  s.watchers.entries.map (·.2) ++ s.mailbox.filterMap Letter.exit?

/-- Every watcher attends a process of its own, and the supervisor holds no key for the
latest process of a cell without one. -/
structure Enrolls (s : Site) : Prop where
  attended : Attended s.watchers s.mailbox s.supervisor s.actor.withoutCells
  nodup : s.watchers.keys.Nodup

theorem Enrolls.room (h : s.Enrolls) : s.room.Enrolls s.watchers s.mailbox :=
  ⟨h.attended, h.nodup, (List.append_nil _).symm⟩

theorem Enrolls.of_same (h : s.Enrolls) (hwatchers : s'.watchers = s.watchers)
    (hmailbox : s'.mailbox = s.mailbox) (hsupervisor : s'.supervisor = s.supervisor)
    (hsession : s'.actor.session.id = s.actor.session.id)
    (hruns : s'.actor.runs = s.actor.runs) : s'.Enrolls := by
  refine ⟨?_, hwatchers ▸ h.nodup⟩
  rw [hwatchers, hmailbox, hsupervisor]
  exact h.attended.calm (Session.calm_of_nil rfl) hsession hruns

theorem post_enrolls (h : s.Enrolls) (halive : s.alive = true) (letter : Letter) :
    (s.post letter).Enrolls := by
  unfold post
  rw [if_pos halive]
  exact ⟨h.attended.post letter, h.nodup⟩

theorem Turn.enrolls (hturn : s.Turn s') (h : s.Enrolls) (halive : s'.alive = true) :
    s'.Enrolls := by
  have hs : s.alive = true := hturn.alive halive
  have hledger : ∀ b, (s.withLedger b).Enrolls := fun b =>
    h.of_same rfl rfl rfl (congrArg Session.id (session_withLedger s b)) (runs_withLedger s b)
  cases hturn with
  | idle => exact h
  | posted letter _ => exact post_enrolls h hs letter
  | worked letter rest _ hmailbox =>
      have hreceived := Room.receive_enrolls (hmailbox ▸ h.room)
      change (s.room.receive letter).1 = true at halive
      refine ⟨?_, hreceived.nodup⟩
      unfold leave
      rw [halive]
      exact hreceived.attended
  | heard _ =>
      have hheard := (Room.hearNext_changes s.room).preserves
        (P := Room.Enrolls s.watchers s.mailbox) (fun _ _ hchange hr => hchange.enrolls hr) h.room
      exact ⟨hheard.attended, hheard.nodup⟩
  | concluded index inquiry letter _ _ =>
      let s₁ : Site := { s with actor.inquiries := s.actor.inquiries.eraseIdx index }
      have hs₁ : s₁.Enrolls := h.of_same rfl rfl rfl rfl rfl
      exact post_enrolls hs₁ hs letter
  | happened incident => exact hledger _
  | planned hindrance launches incidents => exact hledger _
  | processed generation what hwatcher =>
      exact ⟨h.attended.step generation what hwatcher, h.nodup⟩
  | printed generation w stream text _ hevent => exact ⟨h.attended.take hevent, h.nodup⟩
  | passed generation w info hw hevent =>
      unfold post
      rw [if_pos hs]
      exact ⟨h.attended.pass hw hevent, Table.nodup_keys_erase _ h.nodup generation⟩
  | elsewhere key pid hkey => exact ⟨h.attended.elsewhere hkey pid, h.nodup⟩
  | disturbed disk => exact ⟨h.attended, h.nodup⟩
  | respawned spawner => exact ⟨h.attended, h.nodup⟩

theorem run_enrolls (h : s.Enrolls) (events : List Event) :
    (s.run events).alive = true → (s.run events).Enrolls :=
  run_invariant (P := fun s => s.alive = true → s.Enrolls)
    (fun _ _ hturn h halive => hturn.enrolls (h (hturn.alive halive)) halive)
    events (fun _ => h)

theorem opened_enrolls (facilities : Facilities) (spawner : Spawner) (disk : Disk)
    {supervisor : Supervisor} (hsupervisor : supervisor.Coherent) (session : Session) :
    (opened facilities spawner disk supervisor session).Enrolls :=
  ⟨⟨hsupervisor, nofun, nofun, Session.laterIdle_of_nil rfl, nofun⟩, .nil⟩

/-! ## Exits of a run -/

theorem exits_post (halive : s.alive = true) (letter : Letter) :
    (s.post letter).exits = s.exits ++ letter.exit?.toList := by
  unfold post exits
  rw [if_pos halive]
  dsimp only
  rw [List.filterMap_append, filterMap_singleton_eq_toList, List.append_assoc]

/-- Without a letter being handled, exits move on. -/
theorem Aside.exits (h : s.Aside s') (hs : s.Enrolls) (halive : s.alive = true) :
    ∃ told, s'.log = s.log ++ told ∧ s'.exits.Perm (s.exits ++ told.filterMap Effect.start?) := by
  cases h with
  | posted letter hresult =>
      have hnone : letter.exit? = none := by
        cases letter with
        | exited _ _ _ _ => cases hresult
        | _ => rfl
      refine ⟨[], by rw [log_post, List.append_nil], ?_⟩
      rw [exits_post halive, hnone]
      exact .refl _
  | heard _ =>
      have hheard := (Room.hearNext_changes s.room).preserves
        (P := Room.Enrolls s.watchers s.mailbox) (fun _ _ hchange hr => hchange.enrolls hr) hs.room
      refine ⟨s.room.hearNext.effects, rfl, ?_⟩
      have hlisted := hheard.listed
      change ((s.room.hearNext.effects.foldl enroll s.watchers).entries.map (·.2) ++
        s.mailbox.filterMap Letter.exit?).Perm _
      rw [hlisted, Site.exits, List.append_assoc, List.append_assoc]
      exact .append_left _ List.perm_append_comm
  | concluded index inquiry letter hinquiry hletter =>
      let s₁ : Site := { s with actor.inquiries := s.actor.inquiries.eraseIdx index }
      have halive₁ : s₁.alive = true := halive
      have hnone : letter.exit? = none := by
        obtain ⟨answer, rfl, _⟩ := Actor.answer_of_conclude hletter
        rfl
      refine ⟨[], (log_post s₁ letter).trans (List.append_nil _).symm, ?_⟩
      change (s₁.post letter).exits.Perm _
      rw [exits_post halive₁, hnone]
      exact .refl _
  | passed generation w info hw hevent =>
      let s₁ : Site := { s with
        supervisor := s.supervisor.step generation .take
        watchers := s.watchers.erase generation }
      have halive₁ : s₁.alive = true := halive
      refine ⟨[], (log_post s₁ _).trans (List.append_nil _).symm, ?_⟩
      change (s₁.post _).exits.Perm _
      rw [exits_post halive₁]
      have hperm := (s.watchers.perm_erase hs.nodup hw).map (·.2)
      change ((s.watchers.erase generation).entries.map (·.2) ++ _ ++ [w]).Perm
        (s.watchers.entries.map (·.2) ++ _ ++ [])
      rw [List.append_nil]
      refine List.Perm.trans ?_ (hperm.symm.append_right _)
      exact List.perm_append_comm
  | elsewhere hmailbox _ _ hwatchers hlog =>
      obtain ⟨told, hlog, haside⟩ := hlog
      refine ⟨told, hlog, ?_⟩
      rw [List.filterMap_eq_nil_iff.mpr fun e he => Effect.start?_of_isAside (haside e he).1,
        List.append_nil, Site.exits, hmailbox, hwatchers]
      exact .refl _

/-- A step handles one exit at most; the others are still to be handled, and so are those of
the processes that it has started. -/
theorem step_exits (hs : s.Enrolls) (e : Event) (halive : (s.step e).alive = true) :
    ((s.step e).exits ++ (s.due e).toList.filterMap Letter.exit?).Perm
      (s.exits ++ (s.effects [e]).filterMap Effect.start?) := by
  rcases step_cases s e with ⟨letter, rest, hdue, _, hmailbox, hstep⟩ | ⟨hdue, haside⟩
  · have hgoes : (s.room.receive letter).1 = true := by
      rw [hstep] at halive
      exact halive
    have hlisted := (Room.receive_enrolls (hmailbox ▸ hs.room)).listed
    have heffects : s.effects [e] = (s.room.receive letter).2.effects :=
      effects_eq (congrArg log hstep)
    have hexits : (s.step e).exits = s.watchers.entries.map (·.2) ++
        (s.room.receive letter).2.effects.filterMap Effect.start? ++
          rest.filterMap Letter.exit? := by
      rw [hstep, ← hlisted, exits, leave, hgoes]
      rfl
    -- The exits are counted process by process.
    rw [heffects, hdue, hexits, Option.toList_some, filterMap_singleton_eq_toList, exits,
      hmailbox, filterMap_cons_eq_append, List.perm_iff_count]
    intro w
    simp only [List.count_append]
    omega
  · obtain ⟨told, hlog, hexits⟩ := haside.exits hs ((turn_step s e).alive halive)
    have heffects : s.effects [e] = told := effects_eq hlog
    rw [heffects, hdue]
    simpa using hexits

/-- In a run every process that is started comes to one exit, which is handled or still to be
handled. -/
theorem run_exits (hs : s.Enrolls) (events : List Event)
    (halive : (s.run events).alive = true) :
    ((s.run events).exits ++ (s.handled events).filterMap Letter.exit?).Perm
      (s.exits ++ (s.effects events).filterMap Effect.start?) := by
  induction events generalizing s with
  | nil =>
      rw [effects_nil]
      exact .refl _
  | cons e rest ih =>
      have hstays : (s.step e).alive = true := alive_of_run rest halive
      have hfirst := step_exits hs e hstays
      have hrest := ih ((turn_step s e).enrolls hs hstays) halive
      change (((s.step e).run rest).exits ++
        ((s.due e).toList ++ (s.step e).handled rest).filterMap Letter.exit?).Perm _
      rw [effects_cons]
      rw [List.perm_iff_count] at hfirst hrest ⊢
      intro w
      have hfirst := hfirst w
      have hrest := hrest w
      simp only [List.filterMap_append, List.count_append] at hfirst hrest ⊢
      omega

/-! ## Processes that are alone -/

/-- Without a letter being handled, only a process that is started replaces the latest one of
its cell. -/
theorem Aside.runs (h : s.Aside s') {cell : CellId} {pid : Nat}
    (hrun : s.actor.runs.find? cell = some pid) {told : List Effect}
    (hlog : s'.log = s.log ++ told)
    (hstarts : ∀ w ∈ told.filterMap Effect.start?, w.cell ≠ cell) :
    s'.actor.runs.find? cell = some pid := by
  cases h with
  | posted letter _ =>
      rw [actor_post]
      exact hrun
  | heard _ =>
      have hkeeps : s.room.Keeps cell pid := fun _ => hrun
      have hheard := (Room.hearNext_changes s.room).preserves (P := Room.Keeps cell pid)
        (fun _ _ hchange hr => hchange.keeps hr) hkeeps
      obtain rfl := List.append_cancel_left hlog
      exact hheard hstarts
  | concluded index inquiry letter _ _ =>
      rw [actor_post]
      exact hrun
  | passed generation w info _ _ =>
      rw [actor_post]
      exact hrun
  | elsewhere _ _ hruns _ _ => rw [hruns, hrun]

/-- The latest process of a cell stays the latest while no other is started for the cell and
its exit is not handled. -/
theorem step_runs {cell : CellId} {pid : Nat} (hrun : s.actor.runs.find? cell = some pid)
    (e : Event) (hstarts : ∀ w ∈ (s.effects [e]).filterMap Effect.start?, w.cell ≠ cell)
    (hhandled : ∀ w ∈ (s.due e).toList.filterMap Letter.exit?,
      ¬(w.cell = cell ∧ w.pid = pid)) :
    (s.step e).actor.runs.find? cell = some pid := by
  rcases step_cases s e with ⟨letter, rest, hdue, _, _, hstep⟩ | ⟨_, haside⟩
  · have hletter : ∀ w, letter.exit? = some w → ¬(w.cell = cell ∧ w.pid = pid) := by
      intro w hw
      refine hhandled w ?_
      rw [hdue]
      exact List.mem_filterMap.mpr ⟨letter, List.mem_singleton_self _, hw⟩
    have hkeeps : s.room.Keeps cell pid := fun _ => hrun
    have heffects : s.effects [e] = (s.room.receive letter).2.effects :=
      effects_eq (congrArg log hstep)
    rw [heffects] at hstarts
    rw [hstep]
    exact Room.receive_keeps hkeeps hletter rfl hstarts
  · exact haside.runs hrun (log_run s [e]) hstarts

theorem run_runs {cell : CellId} {pid : Nat} (hrun : s.actor.runs.find? cell = some pid)
    (events : List Event)
    (hstarts : ∀ w ∈ (s.effects events).filterMap Effect.start?, w.cell ≠ cell)
    (hhandled : ∀ w ∈ (s.handled events).filterMap Letter.exit?,
      ¬(w.cell = cell ∧ w.pid = pid)) :
    (s.run events).actor.runs.find? cell = some pid := by
  induction events generalizing s with
  | nil => exact hrun
  | cons e rest ih =>
      rw [effects_cons] at hstarts
      simp only [List.filterMap_append, List.mem_append] at hstarts
      simp only [handled, List.filterMap_append, List.mem_append] at hhandled
      have hstep := step_runs hrun e (fun w hw => hstarts w (Or.inl hw))
        fun w hw => hhandled w (Or.inl hw)
      exact ih hstep (fun w hw => hstarts w (Or.inr hw)) fun w hw => hhandled w (Or.inr hw)

/-- The process is the latest of its cell, and no other exit that is still to be handled looks
like its own. -/
structure Alone (s : Site) (w : Watcher) : Prop where
  latest : s.actor.runs.find? w.cell = some w.pid
  exits : s.exits.filter w.resembles = [w]

/-- A process that is alone stays so until its exit is handled or another is started for its
cell. -/
theorem Alone.run {w : Watcher} (h : s.Alone w) (hs : s.Enrolls) (events : List Event)
    (halive : (s.run events).alive = true)
    (hstarts : ∀ w' ∈ (s.effects events).filterMap Effect.start?, w'.cell ≠ w.cell) :
    (s.run events).Alone w ∧
        ((s.handled events).filterMap Letter.exit?).filter w.resembles = [] ∨
      ((s.handled events).filterMap Letter.exit?).filter w.resembles = [w] := by
  have hnone : ((s.effects events).filterMap Effect.start?).filter w.resembles = [] := by
    rw [List.filter_eq_nil_iff]
    intro w' hw' hsame
    simp only [Watcher.resembles, decide_eq_true_eq] at hsame
    exact hstarts w' hw' hsame.1
  have hperm := (run_exits hs events halive).filter w.resembles
  rw [List.filter_append, List.filter_append, hnone, h.exits, List.append_nil,
    List.perm_singleton] at hperm
  rcases List.append_eq_singleton_iff.mp hperm with ⟨_, hhandled⟩ | ⟨hwaits, hhandled⟩
  · exact Or.inr hhandled
  · refine Or.inl ⟨⟨run_runs h.latest events hstarts ?_, hwaits⟩, hhandled⟩
    intro w' hw' hsame
    rw [List.filter_eq_nil_iff] at hhandled
    exact hhandled w' hw' (decide_eq_true hsame)

/-- The exit of a process that is alone is noted when it is handled. -/
theorem Alone.isLatest {w : Watcher} (h : s.Alone w) (hs : s.Enrolls) {letter : Letter}
    {rest : List Letter} (hmailbox : s.mailbox = letter :: rest)
    (hletter : letter.exit? = some w) : s.room.IsLatest w.cell w.pid := by
  refine ⟨h.latest, fun hrunning => ?_⟩
  obtain ⟨record, hrecord⟩ := Option.isSome_iff_exists.mp hrunning
  obtain ⟨w', hw', hcell, hpid⟩ := hs.attended.latest w.cell w.pid record h.latest hrecord
  -- A record would have a watcher, and the letter would not be the only exit.
  have hwatcher : w' ∈ s.watchers.entries.map (·.2) :=
    List.mem_map_of_mem (f := (·.2)) ((s.watchers.mem_entries_iff hs.nodup _ _).mpr hw')
  have hexits := h.exits
  rw [Site.exits, hmailbox, List.filterMap_cons, hletter, List.filter_append, List.filter_cons,
    if_pos w.resembles_self] at hexits
  have hfirst : w' ∈ (s.watchers.entries.map (·.2)).filter w.resembles :=
    List.mem_filter.mpr ⟨hwatcher, decide_eq_true ⟨hcell, hpid⟩⟩
  rcases List.append_eq_singleton_iff.mp hexits with ⟨hnone, _⟩ | ⟨_, hnone⟩
  · rw [hnone] at hfirst
    cases hfirst
  · cases hnone

/-- Every letter that is handled in a run is due at some point of it. -/
theorem handled_split {events : List Event} {letter : Letter} (h : letter ∈ s.handled events) :
    ∃ earlier e rest, events = earlier ++ e :: rest ∧ (s.run earlier).due e = some letter := by
  induction events generalizing s with
  | nil => cases h
  | cons e rest ih =>
      rcases List.mem_append.mp h with hfirst | hrest
      · exact ⟨[], e, rest, rfl, Option.mem_toList.mp hfirst⟩
      · obtain ⟨earlier, e', rest', rfl, hdue⟩ := ih hrest
        exact ⟨e :: earlier, e', rest', rfl, hdue⟩

end Site
end Notebook
