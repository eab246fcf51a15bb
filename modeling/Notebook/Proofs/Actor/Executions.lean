import Notebook.Proofs.Actor.Residents

/-!
# Executing an idle cell

A key is held from the start of a process until its exit has been observed, and an actor
leaves a cell alone whose key is held.  That a cell is idle does not mean that its key is
free: a cell that was deleted and created again is idle while the process of the deleted
cell still runs, and so is a cell of a session that was closed and opened again.

These are the only ways.  `Effect.ownRuns` lists the runs that an actor has started for a
cell since it last deleted one of that name, and `Tracked` says that a cell whose key is
held for one of them is not idle.  Others may start processes for the same key, but only
with later generations, so this survives whatever they do.

* `Room.serve_execute`: what an actor that is to execute a code cell tells of it.
* `Room.receive_tracked`, `Coordinator.run_keepsTrack`: cells with runs of their own are
  not idle, in every state that a coordinator can be in.
* `Coordinator.execute_idle_tells`: the execution of an idle cell is refused, shown or
  reported as failed, unless another run holds its key.
-/

set_option autoImplicit false

namespace Notebook

open Session

/-! ## Cells that are not idle -/

/-- There is a cell with this name, and it is not idle. -/
def Session.Busy (s : Session) (id : CellId) : Prop :=
  ∃ c, s.cell? id = some c ∧ c.status? ≠ some .idle

/-- An edit leaves a cell that is not idle as it is, unless it is about its status or
deletes it. -/
theorem Session.Announces.busy {s s' : Session} {n : Notice} (h : s.Announces s' n)
    (hn : n.isStatus = false) {id : CellId} (hdeleted : n ≠ .deleted id)
    (hbusy : s.Busy id) : s'.Busy id := by
  obtain ⟨c, hc, hstatus⟩ := hbusy
  cases h with
  | created index cell _ h hidle =>
      obtain ⟨hnew, _⟩ := of_insert_eq_ok h
      have hne : cell.id ≠ id := by
        rintro rfl
        rw [hnew] at hc
        cases hc
      exact ⟨c, by rw [cell?_insert h, if_neg hne, hc], hstatus⟩
  | replaced cell old _ h hsame =>
      by_cases hid : cell.id = id
      · obtain ⟨_, _, _, hsplit, _⟩ := of_replace_eq_ok h
        have hold : some old = some c := by rw [← hsplit.cell?_eq, hid, hc]
        obtain rfl := Option.some.inj hold
        exact ⟨cell, by rw [cell?_replace h, if_pos hid], hsame ▸ hstatus⟩
      · exact ⟨c, by rw [cell?_replace h, if_neg hid, hc], hstatus⟩
  | removed id' old _ h =>
      have hne : id' ≠ id := fun hid => hdeleted (congrArg Notice.deleted hid)
      exact ⟨c, by rw [cell?_remove_of_ne h hne, hc], hstatus⟩
  | rewritten id' cell source h =>
      have hfound := cell?_update s id' id (·.withSource source)
        fun c hc => (Cell.id_withSource source c).trans hc
      by_cases hid : id' = id
      · subst hid
        rw [if_pos rfl, hc] at hfound
        exact ⟨_, hfound, (Cell.status?_withSource source c).symm ▸ hstatus⟩
      · exact ⟨c, by rw [hfound, if_neg hid, hc], hstatus⟩
  | restated cell h => exact ⟨c, hc, hstatus⟩
  | status id' status h => cases hn

/-- The cells by their names after one was given a status. -/
theorem Session.cell?_withStatus (s : Session) (id id' : CellId) (status : CellStatus) :
    (s.update id (·.withStatus status)).cell? id' =
      if id = id' then (s.cell? id).map (·.withStatus status) else s.cell? id' :=
  cell?_update s id id' _ fun c hc => (Cell.id_withStatus status c).trans hc

/-! ## Runs of a cell -/

namespace Effect

/-- The runs of a cell after an effect. -/
def noteRun (cell : CellId) (runs : List Nat) : Effect → List Nat
  | .spawned generation _ request _ =>
    if request.key.cell = cell then runs ++ [generation] else runs
  | .notice (.deleted deleted) => if deleted = cell then [] else runs
  | _ => runs

/-- The generations of the runs that were started for a cell after a cell of this name was
last deleted. -/
def ownRuns (cell : CellId) (effects : List Effect) : List Nat :=
  effects.foldl (noteRun cell) []

theorem ownRuns_append (cell : CellId) (effects new : List Effect) :
    ownRuns cell (effects ++ new) = new.foldl (noteRun cell) (ownRuns cell effects) :=
  List.foldl_append

theorem noteRun_of_isAside {e : Effect} (h : e.isAside = true) (cell : CellId)
    (runs : List Nat) : e.noteRun cell runs = runs := by
  cases e with
  | notice n =>
      cases n with
      | deleted _ => cases h
      | _ => rfl
  | spawned _ _ _ _ => cases h
  | _ => rfl

theorem ownRuns_append_of_isAside (cell : CellId) (effects : List Effect) {new : List Effect}
    (h : ∀ e ∈ new, e.isAside = true) :
    ownRuns cell (effects ++ new) = ownRuns cell effects := by
  rw [ownRuns_append]
  induction new with
  | nil => rfl
  | cons e rest ih =>
      rw [List.foldl_cons, noteRun_of_isAside (h e List.mem_cons_self)]
      exact ih fun e he => h e (List.mem_cons_of_mem _ he)

/-- Whether an effect tells what has become of a wish to execute a cell: the client that
sent it is refused, the cell is running, or an error of the cell is shown. -/
def isVerdict (sender : ConnectionId) (cell : CellId) : Effect → Bool
  | .refusal client _ => client = sender
  | .notice (.statusChanged changed status) => changed = cell ∧ status = .running
  | .notice (.failed failed _) => failed = some cell
  | _ => false

end Effect

open Effect (ownRuns)

/-- A cell whose key is held for one of its own runs is not idle, and these runs are not
still to come. -/
structure Tracked (effects : List Effect) (supervisor : Supervisor) (actor : Actor) : Prop where
  past : ∀ cell, ∀ g ∈ ownRuns cell effects, g < supervisor.nextGeneration
  busy : ∀ cell record, supervisor.records.find? (actor.key cell) = some record →
    record.generation ∈ ownRuns cell effects → actor.session.Busy cell

/-- What the supervisor `s'` holds was held by `s` or has been started since. -/
structure Supervisor.Later (s s' : Supervisor) : Prop where
  generation : s.nextGeneration ≤ s'.nextGeneration
  records : ∀ key record, s'.records.find? key = some record →
    s.records.find? key = some record ∨ s.nextGeneration ≤ record.generation

namespace Supervisor

variable {s s' s'' : Supervisor}

theorem Later.refl (s : Supervisor) : Later s s :=
  ⟨Nat.le_refl _, fun _ _ h => Or.inl h⟩

theorem Later.trans (h : Later s s') (h' : Later s' s'') : Later s s'' := by
  refine ⟨Nat.le_trans h.generation h'.generation, fun key record hrecord => ?_⟩
  rcases h'.records key record hrecord with hold | hnew
  · exact h.records key record hold
  · exact Or.inr (Nat.le_trans h.generation hnew)

theorem later_started (s : Supervisor) (key : ProcessKey) (pid : Nat) :
    Later s (s.started key pid) := by
  refine ⟨Nat.le_succ _, fun key' record hrecord => ?_⟩
  simp only [started, Table.find?_set] at hrecord
  split at hrecord
  · obtain rfl := Option.some.inj hrecord
    exact Or.inr (Nat.le_refl _)
  · exact Or.inl hrecord

theorem later_act_start (s : Supervisor) (key : ProcessKey) (pid : Nat) :
    Later s (s.act (.start key pid)) := by
  simp only [act]
  rcases run_cases s key (fun world : Unit => (.ok pid, world)) () with
    ⟨_, heq⟩ | ⟨_, ⟨_, _, heq⟩ | ⟨pid', _, heq⟩⟩
  · rw [heq]
    exact .refl s
  · rw [heq]
    exact .refl s
  · rw [heq]
    exact later_started s key pid'

theorem Starts.later {session : SessionId} (h : s.Starts session s') : Later s s' := by
  induction h with
  | refl => exact .refl s
  | tail _ cell pid ih => exact ih.trans (later_act_start _ _ pid)

theorem Starts.coherent {session : SessionId} (h : s.Starts session s') (hs : s.Coherent) :
    s'.Coherent := by
  induction h with
  | refl => exact hs
  | tail _ cell pid ih => exact ih.act _

theorem Coherent.later_step (hs : s.Coherent) (g : Nat) (what : Step) :
    Later s (s.step g what) := by
  have hnext : (s.step g what).nextGeneration = s.nextGeneration := by
    rcases step_cases s g what with
      hsame | ⟨r, hr, ⟨r', heq, _⟩ | ⟨info, hphase, _, heq⟩⟩
    · rw [hsame]
    · rw [heq]
    · rw [heq, hs.freed_eq hr hphase]
  exact ⟨Nat.le_of_eq hnext.symm, fun key record hrecord =>
    Or.inl (hs.records_step hrecord)⟩

end Supervisor

namespace Tracked

variable {effects effects' : List Effect} {supervisor supervisor' : Supervisor}
  {actor actor' : Actor}

/-- Others start processes, and processes end. -/
theorem later (h : Tracked effects supervisor actor) (hlater : supervisor.Later supervisor') :
    Tracked effects supervisor' actor := by
  refine ⟨fun cell g hg => Nat.lt_of_lt_of_le (h.past cell g hg) hlater.generation, ?_⟩
  intro cell record hrecord hown
  rcases hlater.records _ record hrecord with hold | hnew
  · exact h.busy cell record hold hown
  · exact absurd hnew (Nat.not_le_of_lt (h.past cell _ hown))

/-- The actor goes on without a new run.  A cell with an own run that holds its key stays
busy. -/
theorem goesOn (h : Tracked effects supervisor actor)
    (hid : actor'.session.id = actor.session.id)
    (hown : ∀ cell, ownRuns cell effects' ⊆ ownRuns cell effects)
    (hbusy : ∀ cell, supervisor.isRunning (actor.key cell) = true →
      ownRuns cell effects' ≠ [] → actor.session.Busy cell → actor'.session.Busy cell) :
    Tracked effects' supervisor actor' := by
  refine ⟨fun cell g hg => h.past cell g (hown cell hg), fun cell record hrecord hg => ?_⟩
  have hkey : actor'.key cell = actor.key cell := by
    unfold Actor.key
    rw [hid]
  rw [hkey] at hrecord
  have hheld : supervisor.isRunning (actor.key cell) = true := by
    unfold Supervisor.isRunning Table.contains
    rw [hrecord]
    rfl
  exact hbusy cell hheld (List.ne_nil_of_mem hg) (h.busy cell record hrecord (hown cell hg))

end Tracked

/-! ## Rooms -/

namespace Room

/-- What is tracked in a room whose actor had done `past` before. -/
def Tracked (past : List Effect) (r : Room) : Prop :=
  Notebook.Tracked (past ++ r.effects) r.supervisor r.actor

variable {past : List Effect} {r r' : Room}

theorem ownRuns_tell (past : List Effect) (r : Room) (cell : CellId) (e : Effect) :
    ownRuns cell (past ++ (r.tell e).effects) =
      e.noteRun cell (ownRuns cell (past ++ r.effects)) := by
  change ownRuns cell (past ++ (r.effects ++ [e])) = _
  rw [← List.append_assoc, Effect.ownRuns_append]
  rfl

theorem Quiet.ownRuns_eq (h : Quiet r r') (past : List Effect) (cell : CellId) :
    ownRuns cell (past ++ r'.effects) = ownRuns cell (past ++ r.effects) := by
  obtain ⟨new, heffects, haside⟩ := h.effects
  rw [heffects, ← List.append_assoc, Effect.ownRuns_append_of_isAside cell _ haside]

theorem Quiet.tracked (h : Quiet r r') (hr : r.Tracked past) : r'.Tracked past := by
  unfold Tracked
  rw [h.supervisor]
  refine Notebook.Tracked.goesOn hr (congrArg Session.id h.session) ?_ ?_
  · exact fun cell => h.ownRuns_eq past cell ▸ List.Subset.refl _
  · exact fun cell _ _ hbusy => h.session.symm ▸ hbusy

theorem Edited.tracked (h : Edited r r') (hr : r.Tracked past) : r'.Tracked past := by
  obtain ⟨session, n, r₁, hannounces, hn, hsilent, rfl⟩ := h
  have hquiet := hsilent.quiet
  have hruns : ∀ cell, ownRuns cell (past ++ (r₁.broadcast n).effects) =
      if n = .deleted cell then [] else ownRuns cell (past ++ r.effects) := by
    intro cell
    unfold broadcast
    rw [ownRuns_tell, hquiet.ownRuns_eq past cell]
    cases n <;> simp [Effect.noteRun, withSession]
  change Notebook.Tracked _ r₁.supervisor r₁.actor
  rw [hquiet.supervisor]
  refine Notebook.Tracked.goesOn hr ((congrArg Session.id hquiet.session).trans hannounces.id)
    (fun cell => ?_) (fun cell _ hne hbusy => ?_)
  · rw [hruns]
    split
    · exact List.nil_subset _
    · exact List.Subset.refl _
  · rw [hruns] at hne
    have hdeleted : n ≠ .deleted cell := fun heq => hne (if_pos heq)
    exact hquiet.session.symm ▸ hannounces.busy hn hdeleted hbusy

theorem ownRuns_setStatus (past : List Effect) (r : Room) (id cell : CellId)
    (status : CellStatus) : ownRuns cell (past ++ (r.setStatus id status).effects) =
      ownRuns cell (past ++ r.effects) := by
  rcases setStatus_cases r id status with ⟨_, heq⟩ | ⟨_, heq⟩
  · rw [heq]
    exact ownRuns_tell past _ cell _
  · rw [heq]

/-- A status is about one cell. -/
theorem setStatus_busy_of_ne {id cell : CellId} (hne : id ≠ cell) (status : CellStatus)
    (hbusy : r.actor.session.Busy cell) :
    (r.setStatus id status).actor.session.Busy cell := by
  rcases setStatus_cases r id status with ⟨_, heq⟩ | ⟨_, heq⟩
  · obtain ⟨c, hc, hstatus⟩ := hbusy
    rw [heq]
    refine ⟨c, ?_, hstatus⟩
    change (r.actor.session.update id _).cell? cell = _
    rw [cell?_withStatus, if_neg hne, hc]
  · rw [heq]
    exact hbusy

/-- A cell that is set to running is not idle; neither is one that never runs. -/
theorem setStatus_running_busy {cell : CellId}
    (hknown : (r.actor.session.cell? cell).isSome = true) :
    (r.setStatus cell .running).actor.session.Busy cell := by
  obtain ⟨c, hc⟩ := Option.isSome_iff_exists.mp hknown
  rcases setStatus_cases r cell .running with ⟨_, heq⟩ | ⟨hnone, heq⟩
  · rw [heq]
    refine ⟨c.withStatus .running, ?_, ?_⟩
    · change (r.actor.session.update cell _).cell? cell = _
      rw [cell?_withStatus, if_pos rfl, hc]
      rfl
    · rw [Cell.status?_withStatus]
      cases c.status? <;> simp
  · rw [heq]
    refine ⟨c, hc, fun hidle => ?_⟩
    rw [hc, Option.any_some, Cell.hasStatus, hidle] at hnone
    cases hnone

/-- A cell whose key is free may become idle. -/
theorem setStatus_tracked {cell : CellId} (hr : r.Tracked past)
    (hfree : r.supervisor.isRunning (r.actor.key cell) = false) (status : CellStatus) :
    (r.setStatus cell status).Tracked past := by
  obtain ⟨hsupervisor, hid⟩ := setStatus_same r cell status
  unfold Tracked
  rw [hsupervisor]
  refine Notebook.Tracked.goesOn hr hid
    (fun cell' => ownRuns_setStatus past r cell cell' status ▸ List.Subset.refl _) ?_
  intro cell' hheld _ hbusy
  refine setStatus_busy_of_ne ?_ status hbusy
  rintro rfl
  rw [hfree] at hheld
  cases hheld

/-- A cell for which a process is started is not idle. -/
theorem spawned_tracked (hr : r.Tracked past) {cell : CellId}
    (hknown : (r.actor.session.cell? cell).isSome = true) (program : String)
    (args : List String) (purpose : Purpose) (pid : Nat) :
    (r.spawned cell (r.runRequest cell program args) purpose pid).Tracked past := by
  let r₁ : Room := { r with
    supervisor := r.supervisor.started (r.actor.key cell) pid
    actor.runs := r.actor.runs.set cell pid }.tell
    (.spawned r.supervisor.nextGeneration pid (r.runRequest cell program args) purpose)
  obtain ⟨hsupervisor, hid⟩ := setStatus_same r₁ cell .running
  have hruns : ∀ cell', ownRuns cell' (past ++ (r₁.setStatus cell .running).effects) =
      if cell = cell' then ownRuns cell' (past ++ r.effects) ++ [r.supervisor.nextGeneration]
      else ownRuns cell' (past ++ r.effects) := by
    intro cell'
    rw [ownRuns_setStatus]
    exact ownRuns_tell past _ cell' _
  have hkey : (r₁.setStatus cell .running).actor.key = r.actor.key := by
    funext cell'
    simp only [Actor.key, hid]
    rfl
  change Notebook.Tracked (past ++ (r₁.setStatus cell .running).effects)
    (r₁.setStatus cell .running).supervisor (r₁.setStatus cell .running).actor
  rw [hsupervisor]
  constructor
  · intro cell' g hg
    change g < r.supervisor.nextGeneration + 1
    rw [hruns] at hg
    split at hg
    · rcases List.mem_append.mp hg with hold | hnew
      · exact Nat.lt_succ_of_lt (hr.past cell' g hold)
      · rw [List.mem_singleton.mp hnew]
        exact Nat.lt_succ_self _
    · exact Nat.lt_succ_of_lt (hr.past cell' g hg)
  · intro cell' record hrecord hg
    by_cases hcell : cell = cell'
    · subst hcell
      exact setStatus_running_busy (r := r₁) hknown
    · refine setStatus_busy_of_ne (r := r₁) hcell .running ?_
      have hne : r.actor.key cell ≠ r.actor.key cell' := fun heq =>
        hcell (ProcessKey.mk.inj heq).2
      rw [hkey] at hrecord
      change (r.supervisor.records.set (r.actor.key cell) _).find? _ = _ at hrecord
      rw [Table.find?_set, if_neg hne] at hrecord
      rw [hruns, if_neg hcell] at hg
      exact hr.busy cell' record hrecord hg

theorem Change.tracked (h : Change r r') (hr : r.Tracked past) : r'.Tracked past := by
  rcases h.cases_free with hquiet | hedited | ⟨cell, failure, hfree, rfl⟩ |
    ⟨cell, program, args, purpose, pid, _, hknown, rfl⟩
  · exact hquiet.tracked hr
  · exact hedited.tracked hr
  · exact (Quiet.tell _ _ rfl).tracked (setStatus_tracked hr hfree .idle)
  · exact spawned_tracked hr hknown program args purpose pid

/-- To handle a letter keeps track. -/
theorem receive_tracked (hr : r.Tracked past) (letter : Letter) :
    (r.receive letter).2.Tracked past := by
  have hchanges : ∀ r₁ r₂ : Room, Changes r₁ r₂ → r₁.Tracked past → r₂.Tracked past :=
    fun _ _ h => h.preserves (P := Tracked past) fun _ _ hchange => hchange.tracked
  rcases receive_changes r letter with ⟨_, h⟩ | ⟨cell, pid, ⟨_, hlatest⟩, h⟩
  · exact hchanges _ _ h hr
  · let r₁ : Room := { r with actor.runs := r.actor.runs.erase cell }
    have hr₁ : r₁.Tracked past := ⟨hr.past, hr.busy⟩
    have hfree : r.supervisor.isRunning (r.actor.key cell) = false := by
      simpa using hlatest.2
    exact hchanges _ _ h (setStatus_tracked hr₁ hfree .idle)

theorem hearNext_tracked (hr : r.Tracked past) : r.hearNext.Tracked past :=
  (hearNext_changes r).preserves (P := Tracked past) (fun _ _ hchange => hchange.tracked) hr

/-! ## The wish to execute a cell -/

/-- A process is started, which shows; it cannot be started, which shows as well; or the key
is held, and nothing happens. -/
theorem spawn_tells (r : Room) (sender : ConnectionId) {cell : CellId}
    (hstatus : (r.actor.session.cell? cell).any (·.hasStatus) = true) (program : String)
    (args : List String) (purpose : Purpose) :
    ∃ new, (r.spawn cell program args purpose).2.effects = r.effects ++ new ∧
      ((∃ e ∈ new, e.isVerdict sender cell = true) ∨
        new = [] ∧ r.supervisor.isRunning (r.actor.key cell) = true ∧
          ∃ error, (r.spawn cell program args purpose).1 = .error error) := by
  rcases spawn_cases r cell program args purpose with
    ⟨pid, _, _, heq⟩ | ⟨failure, _, heq⟩ | ⟨hheld, heq⟩
  · rw [heq]
    refine ⟨[.spawned r.supervisor.nextGeneration pid (r.runRequest cell program args) purpose,
      .notice (.statusChanged cell .running)], ?_,
      Or.inl ⟨_, List.mem_cons_of_mem _ List.mem_cons_self, by simp [Effect.isVerdict]⟩⟩
    simp [spawned, setStatus, hstatus, broadcast, tell, withSession]
  · rw [heq]
    refine ⟨[.notice (.statusChanged cell .idle), .notice (.failed (some cell) failure.message)],
      ?_, Or.inl ⟨_, List.mem_cons_of_mem _ List.mem_cons_self, by simp [Effect.isVerdict]⟩⟩
    simp [unspawned, setStatus, hstatus, broadcast, tell, withSession]
  · rw [heq]
    exact ⟨[], (List.append_nil _).symm, Or.inr ⟨rfl, hheld, _, rfl⟩⟩

/-- To execute a code cell, an actor refuses, tells what has become of it, or only writes the
file of the cell, since the key of the cell is held. -/
theorem executeCode_tells (r : Room) (sender : ConnectionId) {cell : CellId} {code : CodeCell}
    (hfind : r.actor.session.cell? cell = some (.code code)) :
    ∃ new, (r.executeCode cell code).2.effects = r.effects ++ new ∧
      ((∃ refusal, (r.executeCode cell code).1 = some refusal) ∨
        (r.executeCode cell code).1 = none ∧
          ((∃ e ∈ new, e.isVerdict sender cell = true) ∨
            new = [.files (r.actor.session.writing (.code code))] ∧
              r.supervisor.isRunning (r.actor.key cell) = true)) := by
  unfold executeCode
  split
  · exact ⟨[], (List.append_nil _).symm, Or.inl ⟨_, rfl⟩⟩
  · next program args _ =>
      split
      · next problem r₁ heq =>
          have heffects : (r.onDisk (r.actor.session.writing (.code code))).2.effects =
            r.effects ++ [.files (r.actor.session.writing (.code code))] := rfl
          rw [heq] at heffects
          exact ⟨_, heffects, Or.inl ⟨_, rfl⟩⟩
      · next r₁ heq =>
          have heffects : (r.onDisk (r.actor.session.writing (.code code))).2.effects =
            r.effects ++ [.files (r.actor.session.writing (.code code))] := rfl
          have hactor : (r.onDisk (r.actor.session.writing (.code code))).2.actor = r.actor := rfl
          have hsupervisor : (r.onDisk (r.actor.session.writing (.code code))).2.supervisor =
            r.supervisor := rfl
          rw [heq] at heffects hactor hsupervisor
          have hstatus : (r₁.actor.session.cell? cell).any (·.hasStatus) = true := by
            rw [hactor, hfind]
            rfl
          obtain ⟨new, hnew, hspawned⟩ := spawn_tells r₁ sender hstatus program
            (args ++ [r₁.actor.session.pathFor code.filename]) .cell
          rw [heffects, List.append_assoc] at hnew
          simp only
          split
          · next r₂ hrun =>
              rw [hrun] at hnew hspawned
              obtain ⟨e, he, hverdict⟩ | ⟨_, _, error, herror⟩ := hspawned
              · refine ⟨_ ++ [.telemetry (.executed code.language)],
                  (congrArg (· ++ [_]) hnew).trans (List.append_assoc _ _ _),
                  Or.inr ⟨rfl, Or.inl ⟨e, ?_, hverdict⟩⟩⟩
                exact List.mem_append_left _ (List.mem_append_right _ he)
              · cases herror
          · next error r₂ hrun =>
              rw [hrun] at hnew hspawned
              refine ⟨_, hnew, Or.inr ⟨rfl, ?_⟩⟩
              obtain ⟨e, he, hverdict⟩ | ⟨rfl, hheld, _⟩ := hspawned
              · exact Or.inl ⟨e, List.mem_append_right _ he, hverdict⟩
              · exact Or.inr ⟨rfl, by rwa [hactor, hsupervisor] at hheld⟩

/-- The wish to execute a code cell is refused, its fate is told, or the file of the cell is
written and nothing else happens, since the key of the cell is held. -/
theorem serve_execute (r : Room) (sender : ConnectionId) {cell : CellId} {code : CodeCell}
    (hfind : r.actor.session.cell? cell = some (.code code)) :
    ∃ new, (r.serve sender (.execute cell)).effects = r.effects ++ new ∧
      ((∃ e ∈ new, e.isVerdict sender cell = true) ∨
        new = [.files (r.actor.session.writing (.code code))] ∧
          r.supervisor.isRunning (r.actor.key cell) = true) := by
  obtain ⟨new, hnew, hends⟩ := executeCode_tells r sender hfind
  have hexecute : r.perform (.execute cell) = r.executeCode cell code := by
    simp only [perform, execute, hfind]
  unfold serve
  rw [hexecute]
  split
  · next r₁ heq =>
      rw [heq] at hnew hends
      obtain ⟨refusal, hrefusal⟩ | ⟨_, htold⟩ := hends
      · cases hrefusal
      · exact ⟨new, hnew, htold⟩
  · next refusal r₁ heq =>
      rw [heq] at hnew
      refine ⟨new ++ [.refusal sender refusal],
        (congrArg (· ++ [_]) hnew).trans (List.append_assoc _ _ _),
        Or.inl ⟨_, List.mem_append_right _ List.mem_cons_self, ?_⟩⟩
      simp [Effect.isVerdict]

end Room

/-! ## Coordinators -/

namespace Coordinator

variable {c c' : Coordinator} {resident other : Nat}

/-- Something that a coordinator does, or that happens to what it has. -/
inductive Event where
  | dispatch (sender : ConnectionId) (message : Message)
  | beginOpen (session : Session)
  | beginClose (session : SessionId)
  | beginShutdown
  | beginCells (session : SessionId)
  | advance (call : Nat)
  | work (resident : Nat)
  | hear (resident : Nat)
  | conclude (resident : Nat)
  /-- Other programs can be started, and somebody has written to the disk. -/
  | supply (spawner : Spawner) (disk : Disk)
  | process (generation : Nat) (what : Supervisor.Step)
  /-- A watcher passes on an exit, whether there has been one or not. -/
  | exit (resident : Nat) (cell : CellId) (pid : Nat) (purpose : Purpose) (info : ExitInfo)
  | happens (resident : Nat) (incident : Incident)
  | plan (resident : Nat) (hindrance : Option LaunchProblem)
      (launches : List (Option LaunchProblem)) (incidents : List (List Incident))

/-- The coordinator after something has happened. -/
def step (c : Coordinator) : Event → Coordinator
  | .dispatch sender message => (c.dispatch sender message).2
  | .beginOpen session => (c.beginOpen session).2
  | .beginClose session => (c.beginClose session).2
  | .beginShutdown => c.beginShutdown.2
  | .beginCells session => (c.beginCells session).2
  | .advance call => c.advance call
  | .work resident => c.work resident
  | .hear resident => c.hear resident
  | .conclude resident => c.conclude resident
  | .supply spawner disk => { c with spawner, disk }
  | .process generation what => { c with supervisor := c.supervisor.step generation what }
  | .exit resident cell pid purpose info => c.post resident (.exited cell pid purpose info)
  | .happens resident incident => c.withLedger resident fun b => b.apply incident
  | .plan resident hindrance launches incidents =>
    c.withLedger resident fun b => { b with hindrance, launches, incidents }

/-- The coordinator after several things have happened. -/
def run (c : Coordinator) (events : List Event) : Coordinator :=
  events.foldl step c

/-- The cells of all residents are tracked. -/
structure KeepsTrack (c : Coordinator) : Prop where
  numbered : c.Numbered
  coherent : c.supervisor.Coherent
  residents : ∀ resident r, c.residents.find? resident = some r →
    Tracked (c.effectsOf resident) c.supervisor r.actor

/-- Nothing is done by residents, and their sessions stay what they are. -/
theorem KeepsTrack.spared (h : c.KeepsTrack) (hnumbered : c'.Numbered)
    (hcoherent : c'.supervisor.Coherent) (hlater : c.supervisor.Later c'.supervisor)
    (heffects : ∀ k, c'.effectsOf k = c.effectsOf k)
    (hresidents : ∀ k r', c'.residents.find? k = some r' →
      c'.effectsOf k = [] ∨
        ∃ r, c.residents.find? k = some r ∧ r'.actor.session = r.actor.session) :
    c'.KeepsTrack := by
  refine ⟨hnumbered, hcoherent, fun k r' hr' => ?_⟩
  rcases hresidents k r' hr' with hfresh | ⟨r, hr, hsession⟩
  · rw [hfresh]
    exact ⟨nofun, nofun⟩
  · rw [heffects]
    refine ((h.residents k r hr).later hlater).goesOn (congrArg Session.id hsession)
      (fun _ => List.Subset.refl _) fun cell _ _ hbusy => ?_
    rw [hsession]
    exact hbusy

/-- A resident is changed, but not its session. -/
theorem KeepsTrack.change (h : c.KeepsTrack) (other : Nat) (f : Resident → Resident)
    (hf : ∀ r, (f r).actor.session = r.actor.session) : (c.change other f).KeepsTrack := by
  have hnumbered : (c.change other f).Numbered := numbered_change h.numbered f
  have hfind := find?_change c other f
  obtain ⟨residents, heq⟩ := change_eq c other f
  rw [heq] at hnumbered hfind ⊢
  refine h.spared hnumbered h.coherent (.refl _) (fun _ => rfl) fun k r' hr' => Or.inr ?_
  rw [hfind] at hr'
  split at hr'
  · obtain ⟨r, hr, rfl⟩ := Option.map_eq_some_iff.mp hr'
    exact ⟨r, hr, hf r⟩
  · exact ⟨r', hr', rfl⟩

theorem session_withLedger (a : Actor) (b : Bridge) :
    (a.withLedger b).session = a.session := by
  unfold Actor.withLedger
  split <;> rfl

theorem Change.keepsTrack (h : Change c c') (hc : c.KeepsTrack) : c'.KeepsTrack := by
  have hnumbered := h.numbered hc.numbered
  have hsame : ∀ k r', c.residents.find? k = some r' →
      c'.effectsOf k = [] ∨ ∃ r, c.residents.find? k = some r ∧
        r'.actor.session = r.actor.session := fun k r' hr' => Or.inr ⟨r', hr', rfl⟩
  cases h with
  | noted table errands =>
      exact hc.spared hnumbered hc.coherent (.refl _) (fun _ => rfl) hsame
  | supplied spawner disk =>
      exact hc.spared hnumbered hc.coherent (.refl _) (fun _ => rfl) hsame
  | processed generation what _ =>
      exact hc.spared hnumbered (hc.coherent.step _ _) (hc.coherent.later_step _ _)
        (fun _ => rfl) hsame
  | served other f _ _ => exact hc.change other _ fun r => session_withLedger r.actor _
  | killed =>
      exact hc.spared hnumbered hc.coherent (.refl _) (effectsOf_killAll c) hsame
  | posted other letter _ _ =>
      refine hc.change other _ fun r => ?_
      split <;> rfl
  | entered session =>
      refine hc.spared hnumbered hc.coherent (.refl _) (fun _ => rfl) fun k r' hr' => ?_
      change (c.residents.set _ _).find? k = some r' at hr'
      rw [Table.find?_set] at hr'
      split at hr'
      · next hk => exact Or.inl (hk ▸ hc.numbered.effects _ (Nat.le_refl _))
      · exact Or.inr ⟨r', hr', rfl⟩

/-- What one resident does in its room keeps track of the cells of all. -/
theorem KeepsTrack.leave (h : c.KeepsTrack) {r : Resident}
    (hr : c.residents.find? other = some r) (mailbox : List Letter) (alive : Bool)
    {room : Room} {session : SessionId} (hstarts : room.Starts session c.supervisor)
    (htracked : room.Tracked (c.effectsOf other)) :
    (c.leave other mailbox alive room).KeepsTrack := by
  have hnumbered := numbered_leave h.numbered hr mailbox alive room
  have heffects := effectsOf_leave c other mailbox alive room
  obtain ⟨errands, heq⟩ := leave_eq c other mailbox alive room
  have hsupervisor : (c.leave other mailbox alive room).supervisor = room.supervisor := by
    rw [heq]
  refine ⟨hnumbered, hsupervisor ▸ hstarts.supervisor.coherent h.coherent, ?_⟩
  intro k r' hr'
  rw [heq] at hr'
  change (c.residents.set other _).find? k = some r' at hr'
  rw [hsupervisor, heffects]
  rw [Table.find?_set] at hr'
  split at hr'
  · next hk =>
      obtain rfl := Option.some.inj hr'
      subst hk
      rw [if_pos rfl]
      exact htracked
  · next hk =>
      rw [if_neg hk, List.append_nil]
      exact (h.residents k r' hr').later hstarts.supervisor.later

/-- The room of a resident is tracked before it does anything in it. -/
theorem KeepsTrack.room (h : c.KeepsTrack) {r : Resident}
    (hr : c.residents.find? other = some r) : (c.room r.actor).Tracked (c.effectsOf other) := by
  change Tracked (c.effectsOf other ++ []) c.supervisor r.actor
  rw [List.append_nil]
  exact h.residents other r hr

theorem work_keepsTrack (h : c.KeepsTrack) (other : Nat) : (c.work other).KeepsTrack := by
  unfold work
  split
  · next actor letter rest hfind =>
      exact h.leave hfind rest _ (Room.receive_starts (c.room actor) letter)
        (Room.receive_tracked (h.room hfind) letter)
  · exact h

theorem hear_keepsTrack (h : c.KeepsTrack) (other : Nat) : (c.hear other).KeepsTrack := by
  unfold hear
  split
  · next actor mailbox hfind =>
      exact h.leave hfind mailbox true (Room.hearNext_starts (c.room actor))
        (Room.hearNext_tracked (h.room hfind))
  · exact h

theorem Changes.keepsTrack (h : Changes c c') (hc : c.KeepsTrack) : c'.KeepsTrack := by
  induction h with
  | refl => exact hc
  | tail _ hlast ih => exact hlast.keepsTrack ih

theorem Move.keepsTrack (h : Move c c') (hc : c.KeepsTrack) : c'.KeepsTrack := by
  rcases h.cases with hchanges | ⟨other, rfl | rfl | rfl⟩
  · exact hchanges.keepsTrack hc
  · exact work_keepsTrack hc other
  · exact hear_keepsTrack hc other
  · exact hc.change other _ fun _ => rfl

theorem step_keepsTrack (h : c.KeepsTrack) (e : Event) : (c.step e).KeepsTrack := by
  cases e with
  | dispatch sender message => exact (Move.dispatched sender message).keepsTrack h
  | beginOpen session => exact (Move.opening session).keepsTrack h
  | beginClose session => exact (Move.closing session).keepsTrack h
  | beginShutdown => exact Move.shuttingDown.keepsTrack h
  | beginCells session => exact (Move.asking session).keepsTrack h
  | advance call => exact (Move.advanced call).keepsTrack h
  | work other => exact (Move.worked other).keepsTrack h
  | hear other => exact (Move.heard other).keepsTrack h
  | conclude other => exact (Move.concluded other).keepsTrack h
  | supply spawner disk => exact (Move.supplied spawner disk).keepsTrack h
  | process generation what =>
      exact h.spared ⟨h.numbered.residents, h.numbered.effects⟩ (h.coherent.step _ _)
        (h.coherent.later_step _ _) (fun _ => rfl) fun k r' hr' => Or.inr ⟨r', hr', rfl⟩
  | exit other cell pid purpose info =>
      refine h.change other _ fun r => ?_
      split <;> rfl
  | happens other incident => exact (Move.happened other incident).keepsTrack h
  | plan other hindrance launches incidents =>
      exact (Move.planned other hindrance launches incidents).keepsTrack h

/-- Whatever happens to a coordinator, it keeps track. -/
theorem run_keepsTrack (h : c.KeepsTrack) (events : List Event) : (c.run events).KeepsTrack := by
  induction events generalizing c with
  | nil => exact h
  | cons e rest ih => exact ih (step_keepsTrack h e)

theorem new_keepsTrack (facilities : Facilities) (spawner : Spawner) (disk : Disk)
    (capacity : Nat) : (new facilities spawner disk (.new capacity)).KeepsTrack := by
  refine ⟨numbered_new _ _ _ _, Supervisor.coherent_new capacity, fun k r hr => ?_⟩
  cases hr

/-- In every state that a coordinator can be in, let an actor handle the wish to execute a
code cell that is idle.  It refuses the sender, shows that the cell is running or shows an
error of the cell; or else the key of the cell is held for a run that the actor has not
started since it last deleted a cell of this name, and then nothing but the file of the
cell is written. -/
theorem execute_idle_tells (facilities : Facilities) (spawner : Spawner) (disk : Disk)
    (capacity : Nat) (events : List Event) (resident : Nat) (actor : Actor)
    (sender : ConnectionId) (cell : CellId) (rest : List Letter) (code : CodeCell) :
    let c := (new facilities spawner disk (.new capacity)).run events
    c.residents.find? resident = some ⟨actor, .intent sender (.execute cell) :: rest, true⟩ →
    actor.session.cell? cell = some (.code code) →
    code.status = .idle →
    ∃ told, (c.work resident).effectsOf resident = c.effectsOf resident ++ told ∧
      ((∃ e ∈ told, e.isVerdict sender cell = true) ∨
        told = [.files (actor.session.writing (.code code))] ∧
          ∃ record, c.supervisor.records.find? (actor.key cell) = some record ∧
            record.generation ∉ ownRuns cell (c.effectsOf resident)) := by
  intro c hresident hcell hidle
  have htracked := (run_keepsTrack (new_keepsTrack facilities spawner disk capacity)
    events).residents resident _ hresident
  obtain ⟨told, htold, hends⟩ := Room.serve_execute (c.room actor) sender hcell
  have hwork : (c.work resident).effectsOf resident =
      c.effectsOf resident ++ ((c.room actor).serve sender (.execute cell)).effects := by
    unfold work
    rw [hresident]
    simp only [Room.receive]
    rw [effectsOf_leave, if_pos rfl]
  refine ⟨told, by rw [hwork, htold]; rfl, hends.imp id ?_⟩
  rintro ⟨hfiles, hheld⟩
  obtain ⟨record, hrecord⟩ := Option.isSome_iff_exists.mp hheld
  refine ⟨hfiles, record, hrecord, fun hown => ?_⟩
  -- A run of its own would have kept the cell from being idle.
  obtain ⟨c, hc, hbusy⟩ := htracked.busy cell record hrecord hown
  obtain rfl := Option.some.inj (hcell.symm.trans hc)
  exact hbusy (congrArg some hidle)

/-- What is looked at of a resident tells what the resident is. -/
theorem resident_of_map (r : Option Resident) (cell : CellId) (mailbox : List Letter)
    (found : Option Cell) (h : r.map (fun r => (r.actor.session.cell? cell, r.mailbox, r.alive)) =
      some (found, mailbox, true)) :
    ∃ actor, r = some ⟨actor, mailbox, true⟩ ∧ actor.session.cell? cell = found := by
  obtain ⟨⟨actor, _, _⟩, rfl, heq⟩ := Option.map_eq_some_iff.mp h
  obtain ⟨hcell, rfl, rfl⟩ : _ ∧ _ ∧ _ := by simpa using heq
  exact ⟨actor, rfl, hcell⟩

/-- A session with one idle cell is opened, and the wish to execute the cell waits. -/
def wished : List Event :=
  [.beginOpen ⟨⟨"s"⟩, "/book", .typescript,
      [.code ⟨⟨"x"⟩, "1", "a.ts", .typescript, .idle⟩]⟩, .advance 0, .advance 0,
    .dispatch ⟨0⟩ ⟨⟨"s"⟩, .execute ⟨"x"⟩⟩]

theorem execute_idle_tells_wished :
    let c := (new ⟨.standard, .standard, []⟩ (fun _ _ => .ok 7) .empty (.new 16)).run wished
    ∃ actor told,
      c.residents.find? 0 = some ⟨actor, [.intent ⟨0⟩ (.execute ⟨"x"⟩)], true⟩ ∧
      actor.session.cell? ⟨"x"⟩ = some (.code ⟨⟨"x"⟩, "1", "a.ts", .typescript, .idle⟩) ∧
      (c.work 0).effectsOf 0 = c.effectsOf 0 ++ told ∧
      ((∃ e ∈ told, e.isVerdict ⟨0⟩ ⟨"x"⟩ = true) ∨ ∃ deeds, told = [.files deeds]) := by
  intro c
  obtain ⟨actor, hresident, hcell⟩ := resident_of_map (c.residents.find? 0) ⟨"x"⟩
    [.intent ⟨0⟩ (.execute ⟨"x"⟩)]
    (some (.code ⟨⟨"x"⟩, "1", "a.ts", .typescript, .idle⟩)) (by decide +kernel)
  obtain ⟨told, htold, hends⟩ := execute_idle_tells ⟨.standard, .standard, []⟩
    (fun _ _ => .ok 7) .empty 16 wished 0 actor ⟨0⟩ ⟨"x"⟩ [] _ hresident hcell rfl
  exact ⟨actor, told, hresident, hcell, htold, hends.imp id fun h => ⟨_, h.1⟩⟩

/-- The cell is executed, deleted while its process runs, created again, and there is again
the wish to execute it. -/
def wishedAgain : List Event :=
  wished ++ [.work 0, .dispatch ⟨0⟩ ⟨⟨"s"⟩, .delete ⟨"x"⟩⟩, .work 0,
    .dispatch ⟨0⟩ ⟨⟨"s"⟩, .create 0 (.code ⟨⟨"x"⟩, "2", "a.ts", .typescript, .idle⟩)⟩, .work 0,
    .dispatch ⟨0⟩ ⟨⟨"s"⟩, .execute ⟨"x"⟩⟩]

/-- The actor neither refuses nor says anything. -/
theorem execute_idle_ignored :
    let c := (new ⟨.standard, .standard, []⟩ (fun _ _ => .ok 7) .empty (.new 16)).run
      wishedAgain
    ∃ actor told,
      c.residents.find? 0 = some ⟨actor, [.intent ⟨0⟩ (.execute ⟨"x"⟩)], true⟩ ∧
      actor.session.cell? ⟨"x"⟩ = some (.code ⟨⟨"x"⟩, "2", "a.ts", .typescript, .idle⟩) ∧
      (c.work 0).effectsOf 0 = c.effectsOf 0 ++ told ∧
      ¬∃ e ∈ told, e.isVerdict ⟨0⟩ ⟨"x"⟩ = true := by
  intro c
  obtain ⟨actor, hresident, hcell⟩ := resident_of_map (c.residents.find? 0) ⟨"x"⟩
    [.intent ⟨0⟩ (.execute ⟨"x"⟩)]
    (some (.code ⟨⟨"x"⟩, "2", "a.ts", .typescript, .idle⟩)) (by decide +kernel)
  exact ⟨actor, [.files [.makeDirectory "/book/src", .write "/book/src/a.ts" "2"]], hresident,
    hcell, by decide +kernel, by decide⟩

end Coordinator
end Notebook
