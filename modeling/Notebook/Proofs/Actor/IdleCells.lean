import Notebook.Proofs.Actor.Executions
import Notebook.Proofs.Actor.Refusals
import Notebook.Proofs.Actor.Replies

/-!
# Idle cells

A cell is told to be idle when the exit of its latest process is handled, and when a process
cannot be started for it.  An exit may be that of an earlier process, which had the same pid,
and another process may have been started before it is handled.  In every order of these
events, the supervisor holds no record for a cell that is told to be idle.

A letter tells of one status at most: `Room.Shifts`.  It frees no key, and whoever else works
with the supervisor frees one only as the monitor of the process: `Site.step_holds`.  So the
record of a run is removed before anything else is told about the status of its cell.

* `Room.Steady`: work that starts no process and tells of no status.
* `Room.receive_shifts`: what a letter does to processes and statuses.
* `Site.step_shifts`, `Site.run_freed`: what a step does, and where a record is removed.
* `Site.idle_after_exit`: a cell is told to be idle only after the exit of its process.
-/

set_option autoImplicit false

namespace Notebook

/-! ## Statuses that are told -/

/-- The status of a cell that an effect tells of. -/
def Effect.status? : Effect → Option (CellId × CellStatus)
  | .notice (.statusChanged cell status) => some (cell, status)
  | _ => none

theorem Effect.status?_of_isAside {e : Effect} (h : e.isAside = true) : e.status? = none := by
  cases e with
  | notice n =>
      cases n with
      | statusChanged _ _ => cases h
      | _ => rfl
  | _ => rfl

theorem Effect.status?_notice {n : Notice} (h : n.isStatus = false) :
    status? (.notice n) = none := by
  cases n with
  | statusChanged _ _ => cases h
  | _ => rfl

theorem Effect.mem_filterMap_status? {effects : List Effect} {cell : CellId}
    {status : CellStatus} :
    (cell, status) ∈ effects.filterMap status? ↔
      .notice (.statusChanged cell status) ∈ effects := by
  rw [List.mem_filterMap]
  constructor
  · rintro ⟨e, he, hstatus⟩
    cases e with
    | notice n =>
        cases n with
        | statusChanged _ _ =>
            obtain ⟨rfl, rfl⟩ := Prod.mk.inj (Option.some.inj hstatus)
            exact he
        | _ => cases hstatus
    | _ => cases hstatus
  · exact fun h => ⟨_, h, rfl⟩

namespace Room

variable {r r₁ r' : Room}

/-- The statuses that have been told. -/
def statuses (r : Room) : List (CellId × CellStatus) :=
  r.effects.filterMap Effect.status?

theorem statuses_tell (r : Room) (e : Effect) :
    (r.tell e).statuses = r.statuses ++ e.status?.toList := by
  change (r.effects ++ [e]).filterMap Effect.status? = _
  rw [List.filterMap_append, filterMap_singleton_eq_toList]
  rfl

/-- The room `r'` follows `r`, no process was started and no status was told. -/
structure Steady (r r' : Room) : Prop where
  supervisor : r'.supervisor = r.supervisor
  session : r'.actor.session.id = r.actor.session.id
  statuses : r'.statuses = r.statuses

namespace Steady

theorem refl (r : Room) : Steady r r :=
  ⟨rfl, rfl, rfl⟩

theorem trans (h : Steady r r₁) (h' : Steady r₁ r') : Steady r r' :=
  ⟨h'.supervisor.trans h.supervisor, h'.session.trans h.session, h'.statuses.trans h.statuses⟩

theorem tell (r : Room) {e : Effect} (he : e.status? = none) : Steady r (r.tell e) :=
  ⟨rfl, rfl, by rw [statuses_tell, he, Option.toList_none, List.append_nil]⟩

theorem key (h : Steady r r') : r'.actor.key = r.actor.key := by
  funext cell
  rw [Actor.key, Actor.key, h.session]

end Steady

theorem Quiet.steady (h : Quiet r r') : Steady r r' := by
  obtain ⟨new, heffects, haside⟩ := h.effects
  refine ⟨h.supervisor, congrArg Session.id h.session, ?_⟩
  rw [statuses, heffects, List.filterMap_append,
    List.filterMap_eq_nil_iff.mpr fun e he => Effect.status?_of_isAside (haside e he),
    List.append_nil]
  rfl

theorem Silent.steady (h : Silent r r') : Steady r r' :=
  h.quiet.steady

theorem Edited.steady (h : Edited r r') : Steady r r' := by
  obtain ⟨session, n, r₁, hannounces, hn, hsilent, rfl⟩ := h
  have hedited : Steady r (r.withSession session) := ⟨rfl, hannounces.id, rfl⟩
  exact (hedited.trans hsilent.steady).trans (.tell r₁ (Effect.status?_notice hn))

theorem setStatus_statuses (r : Room) (cell : CellId) (status : CellStatus) :
    (r.setStatus cell status).statuses = r.statuses ∨
      (r.setStatus cell status).statuses = r.statuses ++ [(cell, status)] := by
  rcases setStatus_cases r cell status with ⟨_, heq⟩ | ⟨_, heq⟩
  · rw [heq]
    exact Or.inr (statuses_tell _ _)
  · rw [heq]
    exact Or.inl rfl

/-! ## What becomes of statuses -/

/-- What may become of processes and statuses by a letter: one cell is told to be idle whose
key is free, or a process is started for one whose key was free, or neither.  A cell that has no
status may have a process all the same. -/
inductive Shifts (r r' : Room) : Prop where
  | steady (h : Steady r r')
  | idled (cell : CellId) (hfree : r.supervisor.isRunning (r.actor.key cell) = false)
    (hsupervisor : r'.supervisor = r.supervisor)
    (hstatuses : r'.statuses = r.statuses ++ [(cell, .idle)])
  | started (cell : CellId) (pid : Nat)
    (hfree : r.supervisor.isRunning (r.actor.key cell) = false)
    (hsupervisor : r'.supervisor = r.supervisor.started (r.actor.key cell) pid)
    (hstatuses : r'.statuses = r.statuses ∨
      r'.statuses = r.statuses ++ [(cell, .running)])

theorem Steady.then (h : Steady r r₁) (h' : Shifts r₁ r') : Shifts r r' := by
  cases h' with
  | steady h' => exact .steady (h.trans h')
  | idled cell hfree hsupervisor hstatuses =>
      rw [h.key, h.supervisor] at hfree
      rw [h.supervisor] at hsupervisor
      rw [h.statuses] at hstatuses
      exact .idled cell hfree hsupervisor hstatuses
  | started cell pid hfree hsupervisor hstatuses =>
      rw [h.key, h.supervisor] at hfree hsupervisor
      rw [h.statuses] at hstatuses
      exact .started cell pid hfree hsupervisor hstatuses

theorem Shifts.then (h : Shifts r r₁) (h' : Steady r₁ r') : Shifts r r' := by
  cases h with
  | steady h => exact .steady (h.trans h')
  | idled cell hfree hsupervisor hstatuses =>
      exact .idled cell hfree (h'.supervisor.trans hsupervisor) (h'.statuses.trans hstatuses)
  | started cell pid hfree hsupervisor hstatuses =>
      exact .started cell pid hfree (h'.supervisor.trans hsupervisor) (h'.statuses ▸ hstatuses)

/-- A cell whose key is free may become idle. -/
theorem setStatus_shifts {cell : CellId}
    (hfree : r.supervisor.isRunning (r.actor.key cell) = false) :
    Shifts r (r.setStatus cell .idle) := by
  obtain ⟨hsupervisor, hid⟩ := setStatus_same r cell .idle
  rcases setStatus_statuses r cell .idle with hsame | htold
  · exact .steady ⟨hsupervisor, hid, hsame⟩
  · exact .idled cell hfree hsupervisor htold

theorem spawn_shifts (r : Room) (cell : CellId) (program : String) (args : List String)
    (purpose : Purpose) : Shifts r (r.spawn cell program args purpose).2 := by
  rcases spawn_cases r cell program args purpose with
    ⟨pid, hfree, _, heq⟩ | ⟨failure, hfree, heq⟩ | ⟨_, heq⟩
  · let r₁ : Room := { r with
      supervisor := r.supervisor.started (r.actor.key cell) pid
      actor.runs := r.actor.runs.set cell pid }.tell
      (.spawned r.supervisor.nextGeneration pid (r.runRequest cell program args) purpose)
    have htold : r₁.statuses = r.statuses :=
      (statuses_tell _ _).trans (List.append_nil _)
    rw [heq]
    refine .started cell pid hfree (setStatus_same r₁ cell .running).1 ?_
    rw [← htold]
    exact setStatus_statuses r₁ cell .running
  · rw [heq]
    exact (setStatus_shifts hfree).then (.tell _ rfl)
  · rw [heq]
    exact .steady (.refl r)

/-! ## Intents -/

theorem install_shifts (r : Room) (packages : List String) :
    Shifts r (r.install packages).2 := by
  unfold install
  split
  · exact .steady (.refl r)
  · next manifest _ =>
      split
      · exact .steady (.refl r)
      · next program args _ =>
          have hwrote :=
            (Unseen.onDisk r (r.actor.session.writing (.manifest manifest))).silent.steady
          split
          · next problem r₁ heq =>
              rw [heq] at hwrote
              exact .steady hwrote
          · next r₁ heq =>
              rw [heq] at hwrote
              have hspawned := hwrote.then (spawn_shifts r₁ manifest.id program
                (args ++ packages) (.install packages))
              split
              · next r₂ hrun =>
                  rw [hrun] at hspawned
                  exact hspawned.then (.tell r₂ rfl)
              · next failure r₂ hrun =>
                  rw [hrun] at hspawned
                  exact hspawned.then (.tell r₂ rfl)
              · next key r₂ hrun =>
                  rw [hrun] at hspawned
                  exact hspawned

theorem executeCode_shifts (r : Room) (cell : CellId) (code : CodeCell) :
    Shifts r (r.executeCode cell code).2 := by
  unfold executeCode
  split
  · exact .steady (.refl r)
  · next program args _ =>
      have hwrote := (Unseen.onDisk r (r.actor.session.writing (.code code))).silent.steady
      split
      · next problem r₁ heq =>
          rw [heq] at hwrote
          exact .steady hwrote
      · next r₁ heq =>
          rw [heq] at hwrote
          simp only
          have hspawned := hwrote.then (spawn_shifts r₁ cell program
            (args ++ [r₁.actor.session.pathFor code.filename]) .cell)
          split
          · next r₂ hrun =>
              rw [hrun] at hspawned
              exact hspawned.then (.tell r₂ rfl)
          · next failure r₂ hrun =>
              rw [hrun] at hspawned
              exact hspawned

theorem execute_shifts (r : Room) (cell : CellId) : Shifts r (r.execute cell).2 := by
  unfold execute
  split
  · exact .steady (.refl r)
  · exact .steady (.refl r)
  · exact .steady (.refl r)
  · exact install_shifts r []
  · next code _ => exact executeCode_shifts r cell code

theorem create_steady (r : Room) (index : Nat) (given : Cell) :
    Steady r (r.create index given).2 := by
  unfold create
  split
  · exact .refl r
  · next cell haccept =>
      split
      · exact .refl r
      · next session hinsert =>
          have hcreated := (Edited.created haccept hinsert).steady
          cases cell <;> exact hcreated

theorem rename_steady (r : Room) (cell : CellId) (given : String) :
    Steady r (r.rename cell given).2 := by
  unfold rename
  split
  · exact .refl r
  · split
    · exact .refl r
    · next code hfind =>
        have hid : code.id = cell := Session.id_of_cell? hfind
        subst hid
        unfold renameTo
        split
        · exact (Edited.restated hfind).steady
        · simp only
          split
          · exact .refl r
          · next old session hreplace => exact (Edited.renamed hfind hreplace).steady
    · exact .refl r

theorem delete_steady (r : Room) (cell : CellId) : Steady r (r.delete cell).2 := by
  unfold delete
  split
  · exact .refl r
  · next removed session hremove =>
      have hdeleted := (Edited.deleted hremove).steady
      cases removed <;> exact hdeleted

theorem edit_steady (r : Room) (id : CellId) (source : String) :
    Steady r (r.edit id source).2 := by
  unfold edit
  split
  · exact .refl r
  · next cell hfind =>
      have hedited := (Edited.edited hfind source).steady
      cases cell <;> exact hedited

theorem startService_steady (r : Room) : Steady r r.startService.2 := by
  have hstart := (analyze_unseen r Bridge.start).silent.steady
  unfold startService
  split
  · next e r₁ heq =>
      rw [heq] at hstart
      exact hstart
  · next r₁ heq =>
      rw [heq] at hstart
      exact hstart.trans (Silent.announceService r₁).steady

theorem stopService_steady (r : Room) : Steady r r.stopService.2 := by
  have hdismissed := (Silent.dismissBridge r).steady
  have hsettled : Steady r { r.dismissBridge with actor.stale := false } :=
    ⟨hdismissed.supervisor, hdismissed.session, hdismissed.statuses⟩
  exact hsettled.trans (.tell _ rfl)

theorem answer_steady (r : Room) (request : RequestId) (answer : Answer) :
    Steady r (r.answer request answer) :=
  .tell r (by cases answer <;> rfl)

theorem navigate_steady (r : Room) (navigation : Navigation) (query : Query) :
    Steady r (r.navigate navigation query).2 := by
  unfold navigate
  split
  · exact answer_steady r _ _
  · next code _ =>
      have hanalyze := (analyze_unseen r (pure ())).silent.steady
      split
      · next e r₁ heq =>
          rw [heq] at hanalyze
          exact hanalyze.trans (answer_steady r₁ _ _)
      · next r₁ heq =>
          rw [heq] at hanalyze
          have hcalled := hanalyze.trans (Silent.call r₁ (Bridge.navigate navigation
            code.filename query.offset.toNat)).steady
          exact ⟨hcalled.supervisor, hcalled.session, hcalled.statuses⟩

theorem perform_shifts (r : Room) (intent : Intent) : Shifts r (r.perform intent).2 := by
  cases intent with
  | execute cell => exact execute_shifts r cell
  | install packages => exact install_shifts r packages
  | stop cell => exact .steady (Silent.stop r cell).steady
  | create index cell => exact .steady (create_steady r _ cell)
  | rename cell filename => exact .steady (rename_steady r cell filename)
  | delete cell => exact .steady (delete_steady r cell)
  | edit cell source => exact .steady (edit_steady r cell source)
  | startService => exact .steady (startService_steady r)
  | stopService => exact .steady (stopService_steady r)
  | requestDiagnostics => exact .steady (requestDiagnostics_unseen r).silent.steady
  | navigate navigation query => exact .steady (navigate_steady r navigation query)

/-! ## Letters -/

theorem refreshManifest_steady (r : Room) : Steady r r.refreshManifest := by
  unfold refreshManifest
  split
  · next source named _ _ =>
      split
      · next manifest hfind =>
          have hid : manifest.id = named.id := Session.id_of_cell? hfind
          split
          · exact .refl r
          · exact (Edited.refreshed (hid ▸ hfind) source).steady
      · next other _ hfind =>
          have hid : other.id = named.id := Session.id_of_cell? hfind
          exact (Edited.restated (hid ▸ hfind)).steady
      · exact .refl r
  · exact .refl r

theorem refreshService_steady (r : Room) : Steady r r.refreshService := by
  have hanalyze := (analyze_unseen r (reanalyze r.actor.session.filenames
    r.facilities.service.diagnosticsDelay.toNat)).silent.steady
  unfold refreshService
  simp only
  split
  · next r₁ heq =>
      rw [heq] at hanalyze
      split
      · exact hanalyze
      · exact hanalyze.trans (Silent.announceService r₁).steady
  · next e r₁ heq =>
      rw [heq] at hanalyze
      exact hanalyze

theorem finishInstall_steady (r : Room) (packages : List String) (info : ExitInfo) :
    Steady r (r.finishInstall packages info) := by
  unfold finishInstall
  simp only
  have htold := fun status => (Steady.tell r
    (e := .notice (.install status packages info.code)) rfl).trans
      (.tell _ (e := .telemetry (.installed packages.length info.success)) rfl)
  split
  · exact ((htold _).trans (refreshManifest_steady _)).trans (refreshService_steady _)
  · exact htold _

/-- An exit that is handled is that of a process whose key is free. -/
theorem exited_shifts (r : Room) (cell : CellId) (pid : Nat) (purpose : Purpose)
    (info : ExitInfo) : Shifts r (r.exited cell pid purpose info) := by
  rcases exited_cases r cell pid purpose info with ⟨_, heq⟩ | ⟨⟨_, hfree⟩, heq⟩
  · rw [heq]
    exact .steady (.refl r)
  · have hforgot : Steady r { r with actor.runs := r.actor.runs.erase cell } := ⟨rfl, rfl, rfl⟩
    have hended : Shifts r (r.ended cell) :=
      hforgot.then (setStatus_shifts (Bool.not_eq_true _ ▸ hfree))
    rw [heq]
    cases purpose with
    | cell => exact hended
    | install packages => exact hended.then (finishInstall_steady _ packages info)

/-- A letter starts one process at most and tells of one status at most. -/
theorem receive_shifts (r : Room) (letter : Letter) : Shifts r (r.receive letter).2 := by
  cases letter with
  | intent sender intent =>
      simp only [receive]
      rcases serve_eq r sender intent with heq | ⟨refusal, heq⟩
      · rw [heq]
        exact perform_shifts r intent
      · rw [heq]
        exact (perform_shifts r intent).then (.tell _ rfl)
  | exited cell pid purpose info => exact exited_shifts r cell pid purpose info
  | answered request answer => exact .steady (answer_steady r request answer)
  | snapshot call => exact .steady (.tell r rfl)
  | close call => exact .steady ((Silent.teardown r).steady.trans (.tell _ rfl))

end Room

/-! ## Records that are held -/

namespace Supervisor

variable {s s' : Supervisor} {key : ProcessKey} {record : ProcessRecord}

/-- A process that is started leaves the records alone that are held. -/
theorem held_started {key' : ProcessKey} (hfree : s.isRunning key' = false) (pid : Nat)
    (hheld : s.records.find? key = some record) :
    (s.started key' pid).records.find? key = some record := by
  have hne : key' ≠ key := by
    rintro rfl
    rw [isRunning_eq_false_iff, hheld] at hfree
    cases hfree
  simp only [started, Table.find?_set, if_neg hne, hheld]

theorem Starts.held {session : SessionId} (h : s.Starts session s')
    (hheld : s.records.find? key = some record) : s'.records.find? key = some record := by
  induction h with
  | refl => exact hheld
  | @tail s' _ cell pid ih =>
      simp only [act]
      rcases run_cases s' ⟨session, cell⟩ (fun world : Unit => (.ok pid, world)) () with
        ⟨_, heq⟩ | ⟨hfree, ⟨_, _, heq⟩ | ⟨pid', _, heq⟩⟩
      · rw [heq]
        exact ih
      · rw [heq]
        exact ih
      · rw [heq]
        exact held_started hfree pid' ih

/-- A record is removed by the monitor of its process, and by nobody else. -/
theorem Coherent.held_step (hs : s.Coherent) (hheld : s.records.find? key = some record)
    (g : Nat) (what : Step) :
    (s.step g what).records.find? key = some record ∨
      (g = record.generation ∧ what = .remove) ∧ (s.step g what).records.find? key = none := by
  rcases step_cases s g what with hsame | ⟨r, hr, ⟨r', heq, _⟩ | ⟨info, hphase, hremove, heq⟩⟩
  · rw [hsame]
    exact Or.inl hheld
  · rw [heq]
    exact Or.inl hheld
  · have hown := hs.held g r hr (by rw [hphase]; rfl)
    rw [heq, hs.freed_eq hr hphase]
    simp only [Table.find?_erase]
    split
    · next hkey =>
        -- One record holds the key that is freed: that of the run.
        subst hkey
        obtain rfl := Option.some.inj (hown.symm.trans hheld)
        exact Or.inr ⟨⟨rfl, hremove⟩, rfl⟩
    · exact Or.inl hheld

end Supervisor

/-! ## Steps of a site -/

namespace Site

variable {s : Site}

/-- The statuses that are told in a run. -/
def statuses (s : Site) (events : List Event) : List (CellId × CellStatus) :=
  (s.effects events).filterMap Effect.status?

/-- The supervisor holds this record for the cell. -/
def Holds (s : Site) (cell : CellId) (record : ProcessRecord) : Prop :=
  s.supervisor.records.find? (s.actor.key cell) = some record

/-- The supervisor holds no record for the cell. -/
def Free (s : Site) (cell : CellId) : Prop :=
  s.supervisor.records.find? (s.actor.key cell) = none

theorem supervisor_post (s : Site) (letter : Letter) :
    (s.post letter).supervisor = s.supervisor := by
  unfold post
  split <;> rfl

/-- The session of an actor keeps its name. -/
theorem Turn.key {s' : Site} (h : s.Turn s') : s'.actor.key = s.actor.key := by
  have hname : s'.actor.session.id = s.actor.session.id := by
    cases h with
    | posted letter _ => rw [actor_post]
    | worked letter rest _ _ => exact (Room.receive_starts s.room letter).id
    | heard _ => exact (Room.hearNext_starts s.room).id
    | concluded index inquiry letter _ _ => rw [actor_post]
    | happened incident => rw [session_withLedger]
    | planned hindrance launches incidents => rw [session_withLedger]
    | passed generation w info _ _ => rw [actor_post]
    | _ => rfl
  funext cell
  rw [Actor.key, Actor.key, hname]

/-- In a step, processes are started, or one process or its monitor takes a step. -/
theorem step_supervisor (s : Site) (e : Event) :
    (∃ session, s.supervisor.Starts session (s.step e).supervisor) ∨
      ∃ g what, (what = .remove → e = .process g .remove) ∧
        (s.step e).supervisor = s.supervisor.step g what := by
  have hsame : ∀ {s' : Site}, s'.supervisor = s.supervisor →
      ∃ session, s.supervisor.Starts session s'.supervisor :=
    fun h => ⟨s.actor.session.id, h ▸ .refl⟩
  cases e with
  | send client intent => exact Or.inl (hsame (supervisor_post _ _))
  | ask call => exact Or.inl (hsame (supervisor_post _ _))
  | close call => exact Or.inl (hsame (supervisor_post _ _))
  | work =>
      simp only [step, work]
      split
      · next letter rest _ _ => exact Or.inl ⟨_, (Room.receive_starts s.room letter).supervisor⟩
      · exact Or.inl (hsame rfl)
  | hear =>
      simp only [step, hear]
      split
      · exact Or.inl ⟨_, (Room.hearNext_starts s.room).supervisor⟩
      · exact Or.inl (hsame rfl)
  | conclude index =>
      simp only [step, conclude]
      split
      · exact Or.inl (hsame rfl)
      · split
        · exact Or.inl (hsame rfl)
        · exact Or.inl (hsame (supervisor_post _ _))
  | process generation what =>
      simp only [step]
      split
      · exact Or.inl (hsame rfl)
      · exact Or.inr ⟨generation, what, fun h => by rw [h], rfl⟩
  | pass generation =>
      simp only [step, pass]
      split
      · exact Or.inr ⟨generation, .take, (fun h => by cases h), rfl⟩
      · exact Or.inr ⟨generation, .take, (fun h => by cases h), supervisor_post _ _⟩
      · exact Or.inl (hsame rfl)
  | elsewhere key pid =>
      simp only [step]
      split
      · exact Or.inl (hsame rfl)
      · exact Or.inl ⟨key.session, .tail .refl key.cell pid⟩
  | _ => exact Or.inl (hsame rfl)

theorem step_coherent (hs : s.supervisor.Coherent) (e : Event) :
    (s.step e).supervisor.Coherent := by
  rcases step_supervisor s e with ⟨_, hstarts⟩ | ⟨g, what, _, heq⟩
  · exact hstarts.coherent hs
  · rw [heq]
    exact hs.step g what

/-- A record is held until the monitor of its process removes it. -/
theorem step_holds (hs : s.supervisor.Coherent) {cell : CellId} {record : ProcessRecord}
    (hheld : s.Holds cell record) (e : Event) :
    (s.step e).Holds cell record ∨
      e = .process record.generation .remove ∧ (s.step e).Free cell := by
  unfold Holds Free
  rw [(turn_step s e).key]
  rcases step_supervisor s e with ⟨_, hstarts⟩ | ⟨g, what, hremove, heq⟩
  · exact Or.inl (hstarts.held hheld)
  · rw [heq]
    rcases hs.held_step hheld g what with hstill | ⟨⟨rfl, rfl⟩, hfreed⟩
    · exact Or.inl hstill
    · exact Or.inr ⟨hremove rfl, hfreed⟩

/-- In a run that frees a key, there is a step in which the monitor of the process removes its
record. -/
theorem run_freed (hs : s.supervisor.Coherent) {cell : CellId} {record : ProcessRecord}
    (hheld : s.Holds cell record) {events : List Event} (hfree : (s.run events).Free cell) :
    ∃ before after, events = before ++ .process record.generation .remove :: after ∧
      (s.run before).Holds cell record ∧
      ((s.run before).step (.process record.generation .remove)).Free cell := by
  induction events generalizing s with
  | nil =>
      have hnone : s.Free cell := hfree
      rw [Free, hheld] at hnone
      cases hnone
  | cons e rest ih =>
      -- The record is held up to the first step that removes it.
      rcases step_holds hs hheld e with hstill | ⟨rfl, hfreed⟩
      · obtain ⟨before, after, heq, hrest⟩ := ih (step_coherent hs e) hstill hfree
        exact ⟨e :: before, after, congrArg (e :: ·) heq, hrest⟩
      · exact ⟨[], rest, rfl, hheld, hfreed⟩

/-- Without a letter being handled no status is told. -/
theorem Aside.statuses {s' : Site} (h : s.Aside s') :
    ∃ told, s'.log = s.log ++ told ∧ told.filterMap Effect.status? = [] := by
  cases h with
  | posted letter _ => exact ⟨[], by rw [log_post, List.append_nil], rfl⟩
  | heard _ => exact ⟨_, rfl, (Room.Silent.hearNext s.room).steady.statuses⟩
  | concluded index inquiry letter _ _ => exact ⟨[], by rw [log_post, List.append_nil], rfl⟩
  | passed generation w info _ _ => exact ⟨[], by rw [log_post, List.append_nil], rfl⟩
  | elsewhere _ _ _ _ hlog =>
      obtain ⟨told, hlog, haside⟩ := hlog
      exact ⟨told, hlog, List.filterMap_eq_nil_iff.mpr fun e he =>
        Effect.status?_of_isAside (haside e he).1⟩

/-- A status is told only when a letter is handled. -/
theorem step_shifts (s : Site) (e : Event) :
    s.statuses [e] = [] ∨ ∃ r, s.room.Shifts r ∧ (s.step e).supervisor = r.supervisor ∧
      s.statuses [e] = r.statuses := by
  rcases step_cases s e with ⟨letter, rest, _, _, _, hstep⟩ | ⟨_, haside⟩
  · refine Or.inr ⟨_, Room.receive_shifts s.room letter, congrArg supervisor hstep, ?_⟩
    exact congrArg (List.filterMap Effect.status?) (effects_eq (congrArg log hstep))
  · obtain ⟨told, hlog, hnone⟩ := haside.statuses
    have htold : s.effects [e] = told := effects_eq hlog
    exact Or.inl ((congrArg (List.filterMap Effect.status?) htold).trans hnone)

/-- A step that tells of a status tells of no other.  The key of the cell is free, and what
becomes of it goes with the status. -/
theorem step_tells {e : Event} {cell : CellId} {status : CellStatus}
    (h : .notice (.statusChanged cell status) ∈ s.effects [e]) :
    s.statuses [e] = [(cell, status)] ∧ s.Free cell ∧
      (status = .idle ∧ (s.step e).supervisor = s.supervisor ∨
        status = .running ∧
          ∃ pid, (s.step e).supervisor = s.supervisor.started (s.actor.key cell) pid) := by
  have hmem : (cell, status) ∈ s.statuses [e] := Effect.mem_filterMap_status?.mpr h
  rcases step_shifts s e with hnone | ⟨r, hshifts, hsupervisor, hstatuses⟩
  · rw [hnone] at hmem
    cases hmem
  · rw [hstatuses] at hmem ⊢
    cases hshifts with
    | steady hsteady =>
        rw [hsteady.statuses] at hmem
        cases hmem
    | idled cell' hfree hsame htold =>
        rw [htold] at hmem
        obtain ⟨rfl, rfl⟩ := Prod.mk.inj (List.mem_singleton.mp hmem)
        rw [Supervisor.isRunning_eq_false_iff] at hfree
        exact ⟨htold, hfree, Or.inl ⟨rfl, hsupervisor.trans hsame⟩⟩
    | started cell' pid hfree hstarted htold =>
        rcases htold with hsame | htold
        · rw [hsame] at hmem
          cases hmem
        · rw [htold] at hmem
          obtain ⟨rfl, rfl⟩ := Prod.mk.inj (List.mem_singleton.mp hmem)
          rw [Supervisor.isRunning_eq_false_iff] at hfree
          exact ⟨htold, hfree, Or.inr ⟨rfl, pid, hsupervisor.trans hstarted⟩⟩

/-- A cell that is told to be running has a record from then on. -/
theorem holds_of_running {e : Event} {cell : CellId}
    (h : .notice (.statusChanged cell .running) ∈ s.effects [e]) :
    ∃ record, (s.step e).Holds cell record := by
  obtain ⟨_, _, ⟨hidle, _⟩ | ⟨_, pid, hstarted⟩⟩ := step_tells h
  · cases hidle
  · refine ⟨⟨pid, s.supervisor.nextGeneration⟩, ?_⟩
    rw [Holds, (turn_step s e).key, hstarted]
    exact (Table.find?_set ..).trans (if_pos rfl)

/-- To stop a cell is to ask its process to end, and nothing else. -/
theorem step_stop {e : Event} {sender : ConnectionId} {cell : CellId}
    (hdue : s.due e = some (.intent sender (.stop cell))) :
    (s.step e).actor = s.actor ∧ (s.step e).supervisor = s.supervisor ∧
      ∀ told ∈ s.effects [e], ∃ pid, told = .signalled pid := by
  rcases step_cases s e with ⟨letter, rest, hdue', _, _, hstep⟩ | ⟨hnone, _⟩
  · obtain rfl := Option.some.inj (hdue.symm.trans hdue')
    change s.step e = s.leave rest true (s.room.stop cell) at hstep
    have htold : s.effects [e] = (s.room.stop cell).effects := effects_eq (congrArg log hstep)
    rw [htold, hstep]
    unfold Room.stop
    split
    · next pid _ => exact ⟨rfl, rfl, fun told htold => ⟨pid, List.mem_singleton.mp htold⟩⟩
    · exact ⟨rfl, rfl, fun told htold => absurd htold List.not_mem_nil⟩
  · rw [hdue] at hnone
    cases hnone

/-- Open a session after any history of the supervisor and let anything happen.  Whenever a
cell is told to be idle, the supervisor holds no record for it, and the step that tells leaves
the supervisor alone.  A step that tells that a cell is running tells of no other status, and
from then on the supervisor holds a record for the cell; before anything else is told about the
status of this cell, the monitor of the process has removed the record.  To stop a cell is only
to send a signal: no cell, no run and no record changes. -/
theorem idle_after_exit (facilities : Facilities) (spawner : Spawner) (disk : Disk)
    (capacity : Nat) (history : List Supervisor.Act) (session : Session)
    (events : List Event) :
    let s := (opened facilities spawner disk
      (history.foldl Supervisor.act (.new capacity)) session).run events
    (∀ e cell, .notice (.statusChanged cell .idle) ∈ s.effects [e] →
      s.Free cell ∧ (s.step e).supervisor = s.supervisor) ∧
    (∀ e cell, .notice (.statusChanged cell .running) ∈ s.effects [e] →
      s.statuses [e] = [(cell, .running)] ∧ s.Free cell ∧
      ∃ record, (s.step e).Holds cell record ∧
        ∀ later e' status,
          .notice (.statusChanged cell status) ∈ ((s.step e).run later).effects [e'] →
          ∃ before after, later = before ++ .process record.generation .remove :: after ∧
            ((s.step e).run before).Holds cell record ∧
            (((s.step e).run before).step (.process record.generation .remove)).Free cell) ∧
    ∀ e sender cell, s.due e = some (.intent sender (.stop cell)) →
      (s.step e).actor = s.actor ∧ (s.step e).supervisor = s.supervisor ∧
        ∀ told ∈ s.effects [e], ∃ pid, told = .signalled pid := by
  intro s
  have hcoherent : s.supervisor.Coherent :=
    run_preserves (P := fun s => s.supervisor.Coherent) (fun _ e h => step_coherent h e) events
      (Supervisor.coherent_foldl_act history (Supervisor.coherent_new capacity))
  refine ⟨fun e cell htold => ?_, fun e cell htold => ?_, fun e sender cell => step_stop⟩
  · obtain ⟨_, hfree, ⟨_, hsame⟩ | ⟨hrunning, _⟩⟩ := step_tells htold
    · exact ⟨hfree, hsame⟩
    · cases hrunning
  · obtain ⟨honly, hfree, _⟩ := step_tells htold
    obtain ⟨record, hheld⟩ := holds_of_running htold
    refine ⟨honly, hfree, record, hheld, fun later e' status htold' => ?_⟩
    obtain ⟨_, hfreed, _⟩ := step_tells htold'
    exact run_freed (step_coherent hcoherent e) hheld hfreed

/-- A cell is run, stopped and run again before the exit of its first process is handled.  This
exit has the pid of the second process, and nothing is told when it is handled; the cell is told
to be idle when the second process has exited, too. -/
theorem idle_after_exit_recycled :
    let cell : CellId := ⟨"x"⟩
    let session : Session := ⟨⟨"s"⟩, "/book", .typescript,
      [.code ⟨cell, "1", "a.ts", .typescript, .idle⟩]⟩
    let opened := opened ⟨.standard, .standard, []⟩ (fun _ _ => .ok 7) .empty
      (([] : List Supervisor.Act).foldl Supervisor.act (.new 16)) session
    let exit : Nat → List Event := fun g => [.process g (.exit ⟨some 0⟩), .process g .giveUp,
      .process g .remove, .process g .report, .pass g]
    let wished : List Event := [.send ⟨0⟩ (.execute cell)]
    let later : List Event := [.send ⟨0⟩ (.stop cell), .work] ++ wished ++ exit 1
    let s := opened.run wished
    let s' := opened.run (wished ++ .work :: later ++ .work :: .work :: exit 2)
    (.notice (.statusChanged cell .running) ∈ s.effects [.work] ∧
      .notice (.statusChanged cell .running) ∈ ((s.step .work).run later).effects [.work] ∧
      ∃ record, (s.step .work).Holds cell record ∧
        ∃ before after, later = before ++ .process record.generation .remove :: after ∧
          ((s.step .work).run before).Holds cell record ∧
          (((s.step .work).run before).step (.process record.generation .remove)).Free cell) ∧
    ((((s.step .work).run later).step .work).effects [.work] = [] ∧
      .notice (.statusChanged cell .idle) ∈ s'.effects [.work] ∧ s'.Free cell) := by
  intro cell session opened exit wished later s s'
  have hfirst : .notice (.statusChanged cell .running) ∈ s.effects [.work] := by
    decide +kernel
  have hsecond :
      .notice (.statusChanged cell .running) ∈ ((s.step .work).run later).effects [.work] := by
    decide +kernel
  have hidle : .notice (.statusChanged cell .idle) ∈ s'.effects [.work] := by
    decide +kernel
  obtain ⟨_, hruns, _⟩ := idle_after_exit _ _ _ _ [] session wished
  obtain ⟨_, _, record, hheld, hnext⟩ := hruns .work cell hfirst
  obtain ⟨hfree, _⟩ := (idle_after_exit _ _ _ _ [] session _).1 .work cell hidle
  exact ⟨⟨hfirst, hsecond, record, hheld, hnext later .work .running hsecond⟩,
    by decide +kernel, hidle, hfree⟩

end Site
end Notebook
