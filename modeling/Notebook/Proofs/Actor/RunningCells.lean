import Notebook.Proofs.Actor.Site

/-!
# Running cells

A cell is set to running when its process is started, and to idle when the exit of its
latest process is handled.  In between, the process runs until its key is freed, its
monitor reports the exit, a watcher passes the report on, and a letter waits in the
mailbox; any number of other letters may be handled before it, which may delete the cell,
create it again, and start other processes, also ones that get the same pid.

`Attended` is the invariant that carries this: for every running cell somebody is still to
tell the actor of its exit, and a record that is held for the latest process of a cell has
a watcher.  The second part is why an exit that is not taken note of is not missed.

* `Attended.step`, `Attended.take`, `Attended.pass`: what processes and watchers do.
* `Room.Change.attends`: what the actor does.
* `Attended.finished`, `Attended.drop`: the letters that carry exits.
* `running_cells_end`: no cell stays running without a process and without an exit.
-/

set_option autoImplicit false

namespace Notebook

open Session

/-! ## Watchers and letters -/

/-- The run is that of the watcher's process, and its exit is not lost. -/
structure Watcher.Watches (w : Watcher) (session : SessionId) (r : Run) : Prop where
  key : r.key = ⟨session, w.cell⟩
  pid : r.pid = w.pid
  watched : r.watched = true
  reported : r.phase = .reported → ∃ info, .exited info ∈ r.queue

/-- A watcher or a letter is to tell of the exit of a process of a cell. -/
def Expected (watchers : Table Nat Watcher) (letters : List Letter) (cell : CellId)
    (pid : Nat) : Prop :=
  (∃ g w, watchers.find? g = some w ∧ w.cell = cell ∧ w.pid = pid) ∨
    ∃ purpose info, .exited cell pid purpose info ∈ letters

/-- For every running cell somebody is to tell of the exit of its latest process. -/
structure Attended (watchers : Table Nat Watcher) (letters : List Letter)
    (supervisor : Supervisor) (actor : Actor) : Prop where
  coherent : supervisor.Coherent
  watches : ∀ g w, watchers.find? g = some w →
    ∃ r, supervisor.runs.find? g = some r ∧ w.Watches actor.session.id r
  latest : ∀ cell pid record, actor.runs.find? cell = some pid →
    supervisor.records.find? (actor.key cell) = some record →
    ∃ w, watchers.find? record.generation = some w ∧ w.cell = cell ∧ w.pid = pid
  laterIdle : actor.session.LaterIdle
  running : ∀ c ∈ actor.session.cells, c.IsRunning →
    ∃ pid, actor.runs.find? c.id = some pid ∧ Expected watchers letters c.id pid

theorem Expected.mono {watchers : Table Nat Watcher} {letters letters' : List Letter}
    {cell : CellId} {pid : Nat} (h : Expected watchers letters cell pid)
    (hletters : ∀ l ∈ letters, l ∈ letters') : Expected watchers letters' cell pid :=
  h.imp id fun ⟨purpose, info, hmem⟩ => ⟨purpose, info, hletters _ hmem⟩

/-- A run that goes on is watched as before. -/
theorem Watcher.Watches.goesOn {w : Watcher} {session : SessionId} {r r' : Run}
    (h : w.Watches session r) (hgoes : r.GoesOn r') (htells : r.Tells r') :
    w.Watches session r' := by
  refine ⟨hgoes.key.trans h.key, hgoes.pid.trans h.pid, htells.watched.trans h.watched, ?_⟩
  intro hreported
  rcases htells.reported hreported with hold | hnew
  · obtain ⟨new, hqueue⟩ := htells.queue
    obtain ⟨info, hinfo⟩ := h.reported hold
    exact ⟨info, hqueue ▸ List.mem_append_left new hinfo⟩
  · exact hnew h.watched

namespace Attended

variable {watchers : Table Nat Watcher} {letters : List Letter} {supervisor : Supervisor}
  {actor actor' : Actor}

/-! ## Edits and letters -/

/-- An edit that lets no cell run. -/
theorem calm (h : Attended watchers letters supervisor actor)
    (hcalm : Calm actor.session actor'.session)
    (hname : actor'.session.id = actor.session.id) (hruns : actor'.runs = actor.runs) :
    Attended watchers letters supervisor actor' := by
  have hkey : actor'.key = actor.key := by
    funext cell
    simp only [Actor.key, hname]
  refine ⟨h.coherent, hname ▸ h.watches, ?_, hcalm.laterIdle h.laterIdle, ?_⟩
  · rw [hruns, hkey]
    exact h.latest
  · intro c hc hrun
    obtain ⟨c₀, hc₀, hid, hrun₀⟩ := hcalm.ran c hc hrun
    rw [hruns, ← hid]
    exact h.running c₀ hc₀ hrun₀

/-- Another letter waits. -/
theorem post (h : Attended watchers letters supervisor actor) (letter : Letter) :
    Attended watchers (letters ++ [letter]) supervisor actor := by
  refine ⟨h.coherent, h.watches, h.latest, h.laterIdle, fun c hc hrun => ?_⟩
  obtain ⟨pid, hpid, hexpected⟩ := h.running c hc hrun
  exact ⟨pid, hpid, hexpected.mono fun l hl => List.mem_append_left _ hl⟩

/-- A letter that does not carry the exit of a latest process may be put away. -/
theorem drop {letter : Letter} (h : Attended watchers (letter :: letters) supervisor actor)
    (hletter : ∀ cell pid purpose info, letter = .exited cell pid purpose info →
      actor.runs.find? cell = some pid → supervisor.isRunning (actor.key cell) = true) :
    Attended watchers letters supervisor actor := by
  refine ⟨h.coherent, h.watches, h.latest, h.laterIdle, fun c hc hrun => ?_⟩
  obtain ⟨pid, hpid, hwatcher | ⟨purpose, info, hmem⟩⟩ := h.running c hc hrun
  · exact ⟨pid, hpid, Or.inl hwatcher⟩
  · rcases List.mem_cons.mp hmem with heq | hrest
    · -- The exit is that of an earlier process, and the latest one has a watcher.
      obtain ⟨record, hrecord⟩ := Option.isSome_iff_exists.mp
        (hletter c.id pid purpose info heq.symm hpid)
      obtain ⟨w, hw, hcell, hwpid⟩ := h.latest c.id pid record hpid hrecord
      exact ⟨pid, hpid, Or.inl ⟨record.generation, w, hw, hcell, hwpid⟩⟩
    · exact ⟨pid, hpid, Or.inr ⟨purpose, info, hrest⟩⟩

/-- The exit of the latest process of a cell sets it to idle. -/
theorem finished {cell : CellId} {pid : Nat} {purpose : Purpose} {info : ExitInfo}
    (h : Attended watchers (.exited cell pid purpose info :: letters) supervisor actor)
    (hsets : Sets actor.session cell .idle actor'.session)
    (hruns : actor'.runs = actor.runs.erase cell) :
    Attended watchers letters supervisor actor' := by
  have hkey : actor'.key = actor.key := by
    funext cell
    simp only [Actor.key, hsets.id]
  refine ⟨h.coherent, hsets.id ▸ h.watches, ?_, hsets.laterIdle, fun c hc hrun => ?_⟩
  · intro cell' pid' record hpid' hrecord
    rw [hruns, Table.find?_erase] at hpid'
    split at hpid'
    · cases hpid'
    · exact h.latest cell' pid' record hpid' (hkey ▸ hrecord)
  · rcases hsets.running c hc hrun with ⟨_, hidle⟩ | ⟨hne, hold⟩
    · cases hidle
    · obtain ⟨pid', hpid', hexpected⟩ := h.running c hold hrun
      refine ⟨pid', by rw [hruns, Table.find?_erase, if_neg (Ne.symm hne), hpid'], ?_⟩
      refine hexpected.imp id ?_
      rintro ⟨purpose', info', hmem⟩
      rcases List.mem_cons.mp hmem with heq | hrest
      · exact absurd (Letter.exited.inj heq).1 hne
      · exact ⟨purpose', info', hrest⟩

/-! ## Processes -/

/-- A process that is started for a cell has a watcher. -/
theorem started (h : Attended watchers letters supervisor actor) {cell : CellId}
    (hfree : supervisor.isRunning (actor.key cell) = false) (pid : Nat) (purpose : Purpose)
    (hsets : Sets actor.session cell .running actor'.session)
    (hruns : actor'.runs = actor.runs.set cell pid) :
    Attended (watchers.set supervisor.nextGeneration ⟨cell, pid, purpose⟩) letters
      (supervisor.started (actor.key cell) pid) actor' := by
  have hkey : actor'.key = actor.key := by
    funext cell
    simp only [Actor.key, hsets.id]
  -- The generation of the new process is not that of an earlier one.
  have hold : ∀ g w, watchers.find? g = some w → supervisor.nextGeneration ≠ g := by
    rintro g w hw rfl
    obtain ⟨r, hr, _⟩ := h.watches _ w hw
    rw [h.coherent.future] at hr
    cases hr
  refine ⟨h.coherent.started hfree pid, ?_, ?_, hsets.laterIdle, fun c hc hrun => ?_⟩
  · intro g w hw
    rw [Table.find?_set] at hw
    rw [hsets.id]
    simp only [Supervisor.started, Table.find?_set]
    split at hw
    · next hg =>
        obtain rfl := Option.some.inj hw
        exact ⟨_, if_pos hg, rfl, rfl, rfl, fun h => by cases h⟩
    · next hg =>
        obtain ⟨r, hr, hwatches⟩ := h.watches g w hw
        exact ⟨r, by rw [if_neg hg, hr], hwatches⟩
  · intro cell' pid' record hpid' hrecord
    rw [hkey] at hrecord
    rw [hruns, Table.find?_set] at hpid'
    simp only [Supervisor.started, Table.find?_set] at hrecord
    by_cases hcell : cell = cell'
    · subst hcell
      rw [if_pos rfl] at hpid' hrecord
      obtain rfl := Option.some.inj hrecord
      exact ⟨_, by rw [Table.find?_set, if_pos rfl], rfl, Option.some.inj hpid'⟩
    · have hne : actor.key cell ≠ actor.key cell' := fun heq =>
        hcell (ProcessKey.mk.inj heq).2
      rw [if_neg hcell] at hpid'
      rw [if_neg hne] at hrecord
      obtain ⟨w, hw, hwatched⟩ := h.latest cell' pid' record hpid' hrecord
      exact ⟨w, by rw [Table.find?_set, if_neg (hold _ w hw), hw], hwatched⟩
  · rw [hruns, Table.find?_set]
    by_cases hcell : cell = c.id
    · exact ⟨pid, if_pos hcell, Or.inl ⟨supervisor.nextGeneration, _,
        by rw [Table.find?_set, if_pos rfl], hcell, rfl⟩⟩
    · rcases hsets.running c hc hrun with ⟨hid, _⟩ | ⟨_, hmem⟩
      · exact absurd hid.symm hcell
      · obtain ⟨pid', hpid', hexpected⟩ := h.running c hmem hrun
        refine ⟨pid', by rw [if_neg hcell, hpid'], hexpected.imp ?_ id⟩
        rintro ⟨g, w, hw, hwatched⟩
        exact ⟨g, w, by rw [Table.find?_set, if_neg (hold g w hw), hw], hwatched⟩

/-- A pump or a monitor takes a step; nobody but its watcher takes events of a process. -/
theorem step (h : Attended watchers letters supervisor actor) (g : Nat)
    (what : Supervisor.Step)
    (hwatcher : what = .take ∨ what = .leave → watchers.find? g = none) :
    Attended watchers letters (supervisor.step g what) actor := by
  refine ⟨h.coherent.step g what, ?_, ?_, h.laterIdle, h.running⟩
  · intro g' w hw
    obtain ⟨r', hr', hwatches⟩ := h.watches g' w hw
    rcases Supervisor.step_cases supervisor g what with
      hsame | ⟨r, hr, ⟨r₁, heq, hgoes, htells⟩ | ⟨info, hphase, _, heq⟩⟩
    · rw [hsame]
      exact ⟨r', hr', hwatches⟩
    · rw [heq]
      simp only [Table.find?_set]
      by_cases hg : g = g'
      · subst hg
        obtain rfl := Option.some.inj (hr.symm.trans hr')
        have hnot : what ≠ .take ∧ what ≠ .leave := by
          constructor
          · rintro rfl
            rw [hwatcher (Or.inl rfl)] at hw
            cases hw
          · rintro rfl
            rw [hwatcher (Or.inr rfl)] at hw
            cases hw
        exact ⟨r₁, if_pos rfl, hwatches.goesOn hgoes (htells hnot.1 hnot.2)⟩
      · exact ⟨r', by rw [if_neg hg, hr'], hwatches⟩
    · rw [heq, h.coherent.freed_eq hr hphase]
      simp only [Table.find?_set]
      by_cases hg : g = g'
      · subst hg
        obtain rfl := Option.some.inj (hr.symm.trans hr')
        exact ⟨_, if_pos rfl, hwatches.key, hwatches.pid, hwatches.watched,
          fun h => by cases h⟩
      · exact ⟨r', by rw [if_neg hg, hr'], hwatches⟩
  · intro cell pid record hpid hrecord
    exact h.latest cell pid record hpid (h.coherent.records_step hrecord)

/-- A watcher passes on a piece of output. -/
theorem take (h : Attended watchers letters supervisor actor) {g : Nat}
    {stream : OutputStream} {text : String}
    (hevent : supervisor.nextEvent? g = some (.output stream text)) :
    Attended watchers letters (supervisor.step g .take) actor := by
  obtain ⟨r, rest, hr, hqueue⟩ := Supervisor.of_nextEvent?_eq_some hevent
  refine ⟨h.coherent.step g .take, ?_, ?_, h.laterIdle, h.running⟩
  · intro g' w hw
    obtain ⟨r', hr', hwatches⟩ := h.watches g' w hw
    rw [Supervisor.step_take hr]
    simp only [Table.find?_set]
    by_cases hg : g = g'
    · subst hg
      obtain rfl := Option.some.inj (hr.symm.trans hr')
      refine ⟨_, if_pos rfl, hwatches.key, hwatches.pid, hwatches.watched, ?_⟩
      intro hreported
      obtain ⟨info, hinfo⟩ := hwatches.reported hreported
      rw [hqueue] at hinfo
      rcases List.mem_cons.mp hinfo with heq | hrest
      · cases heq
      · refine ⟨info, ?_⟩
        rw [hqueue]
        exact hrest
    · exact ⟨r', by rw [if_neg hg, hr'], hwatches⟩
  · intro cell pid record hpid hrecord
    exact h.latest cell pid record hpid (h.coherent.records_step hrecord)

/-- A watcher passes on the exit of its process, whose key has been freed. -/
theorem pass (h : Attended watchers letters supervisor actor) {g : Nat} {w : Watcher}
    {info : ExitInfo} (hw : watchers.find? g = some w)
    (hevent : supervisor.nextEvent? g = some (.exited info)) :
    Attended (watchers.erase g) (letters ++ [.exited w.cell w.pid w.purpose info])
      (supervisor.step g .take) actor := by
  obtain ⟨r, rest, hr, hqueue⟩ := Supervisor.of_nextEvent?_eq_some hevent
  refine ⟨h.coherent.step g .take, ?_, ?_, h.laterIdle, fun c hc hrun => ?_⟩
  · intro g' w' hw'
    rw [Table.find?_erase] at hw'
    split at hw'
    · cases hw'
    · next hg =>
        obtain ⟨r', hr', hwatches⟩ := h.watches g' w' hw'
        refine ⟨r', ?_, hwatches⟩
        rw [Supervisor.step_take hr]
        simp only [Table.find?_set, if_neg hg, hr']
  · intro cell pid record hpid hrecord
    have hold := h.coherent.records_step hrecord
    obtain ⟨w', hw', hwatched⟩ := h.latest cell pid record hpid hold
    refine ⟨w', ?_, hwatched⟩
    rw [Table.find?_erase, if_neg, hw']
    -- The record would be that of a run whose key has been freed.
    rintro rfl
    obtain ⟨r', hr', _, _, hlive⟩ := h.coherent.owned _ record hold
    obtain rfl := Option.some.inj (hr.symm.trans hr')
    have hfreed := h.coherent.exits _ r info hr (hqueue ▸ List.mem_cons_self)
    rw [hlive] at hfreed
    cases hfreed
  · obtain ⟨pid, hpid, ⟨g', w', hw', hcell, hwpid⟩ | ⟨purpose, info', hmem⟩⟩ :=
      h.running c hc hrun
    · by_cases hg : g = g'
      · subst hg
        obtain rfl := Option.some.inj (hw.symm.trans hw')
        refine ⟨pid, hpid, Or.inr ⟨w.purpose, info, ?_⟩⟩
        rw [← hcell, ← hwpid]
        exact List.mem_append_right _ List.mem_cons_self
      · exact ⟨pid, hpid, Or.inl ⟨g', w', by rw [Table.find?_erase, if_neg hg, hw'],
          hcell, hwpid⟩⟩
    · exact ⟨pid, hpid, Or.inr ⟨purpose, info', List.mem_append_left _ hmem⟩⟩

/-- A process is run for another session. -/
theorem elsewhere (h : Attended watchers letters supervisor actor) {key : ProcessKey}
    (hkey : key.session ≠ actor.session.id) (pid : Nat) :
    Attended watchers letters (supervisor.act (.start key pid)) actor := by
  have hcoherent := h.coherent.act (.start key pid)
  simp only [Supervisor.act] at hcoherent ⊢
  rcases Supervisor.run_cases supervisor key (fun world : Unit => (.ok pid, world)) () with
    ⟨_, heq⟩ | ⟨_, ⟨_, _, heq⟩ | ⟨pid', _, heq⟩⟩
  · rw [heq]
    exact h
  · rw [heq]
    exact h
  · rw [heq] at hcoherent ⊢
    refine ⟨hcoherent, fun g w hw => ?_, fun cell pid record hpid hrecord => ?_,
      h.laterIdle, h.running⟩
    · obtain ⟨r, hr, hwatches⟩ := h.watches g w hw
      refine ⟨r, ?_, hwatches⟩
      have hpast := h.coherent.past g r hr
      simp only [Supervisor.started, Table.find?_set]
      rw [if_neg (by omega), hr]
    · have hne : key ≠ actor.key cell := by
        rintro rfl
        exact hkey rfl
      simp only [Supervisor.started, Table.find?_set, if_neg hne] at hrecord
      exact h.latest cell pid record hpid hrecord

end Attended

/-! ## Rooms -/

namespace Room

/-- The actor in the room is attended by the watchers from before and those that it has
started since. -/
def Attends (watchers : Table Nat Watcher) (letters : List Letter) (r : Room) : Prop :=
  Attended (r.effects.foldl Site.enroll watchers) letters r.supervisor r.actor

variable {watchers : Table Nat Watcher} {letters : List Letter} {r r' : Room}

theorem foldl_enroll_of_isAside (effects : List Effect)
    (h : ∀ e ∈ effects, e.isAside = true) (watchers : Table Nat Watcher) :
    effects.foldl Site.enroll watchers = watchers := by
  induction effects with
  | nil => rfl
  | cons e rest ih =>
      have hfirst : Site.enroll watchers e = watchers := by
        cases e with
        | spawned _ _ _ _ => exact absurd (h _ List.mem_cons_self) (by simp [Effect.isAside])
        | _ => rfl
      rw [List.foldl_cons, hfirst]
      exact ih fun e he => h e (List.mem_cons_of_mem _ he)

theorem foldl_enroll_broadcast (r : Room) (n : Notice) :
    (r.broadcast n).effects.foldl Site.enroll watchers =
      r.effects.foldl Site.enroll watchers := by
  change (r.effects ++ [Effect.notice n]).foldl Site.enroll watchers = _
  rw [List.foldl_append]
  rfl

theorem Quiet.foldl_enroll (h : Quiet r r') :
    r'.effects.foldl Site.enroll watchers = r.effects.foldl Site.enroll watchers := by
  obtain ⟨new, heffects, haside⟩ := h.effects
  rw [heffects, List.foldl_append, foldl_enroll_of_isAside new haside]

theorem Quiet.attends (h : Quiet r r') (hr : Attends watchers letters r) :
    Attends watchers letters r' := by
  unfold Attends
  rw [h.foldl_enroll, h.supervisor]
  exact hr.calm (h.session ▸ Calm.refl _) (congrArg Session.id h.session) h.runs

theorem Edited.attends (h : Edited r r') (hr : Attends watchers letters r) :
    Attends watchers letters r' := by
  obtain ⟨session, n, r₁, hannounces, hn, hsilent, rfl⟩ := h
  have hedited : Attends watchers letters (r.withSession session) :=
    hr.calm (hannounces.calm hn) hannounces.id rfl
  have hfollowed := hsilent.quiet.attends hedited
  unfold Attends
  rw [foldl_enroll_broadcast]
  exact hfollowed

/-- What setting a status does besides telling of it. -/
theorem setStatus_sets (watchers : Table Nat Watcher) (hr : r.actor.session.LaterIdle)
    (cell : CellId) (status : CellStatus) :
    Sets r.actor.session cell status (r.setStatus cell status).actor.session ∧
      (r.setStatus cell status).supervisor = r.supervisor ∧
      (r.setStatus cell status).actor.runs = r.actor.runs ∧
      (r.setStatus cell status).effects.foldl Site.enroll watchers =
        r.effects.foldl Site.enroll watchers := by
  rcases setStatus_cases r cell status with ⟨_, heq⟩ | ⟨hnone, heq⟩
  · rw [heq]
    exact ⟨sets_update hr cell status, rfl, rfl, foldl_enroll_broadcast _ _⟩
  · rw [heq]
    exact ⟨sets_refl hr status hnone, rfl, rfl, rfl⟩

/-- Whatever an actor does, its running cells are attended. -/
theorem Change.attends (h : Change r r') (hr : Attends watchers letters r) :
    Attends watchers letters r' := by
  rcases h.cases with hquiet | hedited | ⟨cell, failure, rfl⟩ |
    ⟨cell, program, args, purpose, pid, hfree, rfl⟩
  · exact hquiet.attends hr
  · exact hedited.attends hr
  · obtain ⟨hsets, hsupervisor, hruns, hwatchers⟩ :=
      setStatus_sets watchers hr.laterIdle cell .idle
    unfold Attends Room.unspawned
    rw [foldl_enroll_broadcast, hwatchers]
    change Attended _ _ (r.setStatus cell .idle).supervisor (r.setStatus cell .idle).actor
    rw [hsupervisor]
    exact hr.calm hsets.calm hsets.id hruns
  · let r₁ : Room := { r with
      supervisor := r.supervisor.started (r.actor.key cell) pid
      actor.runs := r.actor.runs.set cell pid }.tell
      (.spawned r.supervisor.nextGeneration pid (r.runRequest cell program args) purpose)
    obtain ⟨hsets, hsupervisor, hruns, hwatchers⟩ :=
      setStatus_sets (r := r₁) watchers hr.laterIdle cell .running
    change Attended ((r₁.setStatus cell .running).effects.foldl Site.enroll watchers) letters
      (r₁.setStatus cell .running).supervisor (r₁.setStatus cell .running).actor
    have henrolled : r₁.effects.foldl Site.enroll watchers =
        (r.effects.foldl Site.enroll watchers).set r.supervisor.nextGeneration
          ⟨cell, pid, purpose⟩ := by
      change (r.effects ++ [_]).foldl Site.enroll watchers = _
      rw [List.foldl_append]
      rfl
    rw [hwatchers, hsupervisor, henrolled]
    exact Attended.started hr hfree pid purpose hsets hruns

/-- An exit that is handled leaves the running cells attended. -/
theorem ended_attends {cell : CellId} {pid : Nat} {purpose : Purpose} {info : ExitInfo}
    (hr : Attends watchers (.exited cell pid purpose info :: letters) r) :
    Attends watchers letters (r.ended cell) := by
  let r₁ : Room := { r with actor.runs := r.actor.runs.erase cell }
  obtain ⟨hsets, hsupervisor, hruns, hwatchers⟩ :=
    setStatus_sets (r := r₁) watchers hr.laterIdle cell .idle
  change Attended ((r₁.setStatus cell .idle).effects.foldl Site.enroll watchers) letters
    (r₁.setStatus cell .idle).supervisor (r₁.setStatus cell .idle).actor
  rw [hwatchers, hsupervisor]
  exact Attended.finished hr hsets hruns

/-- A letter that is handled leaves the running cells attended. -/
theorem receive_attends {letter : Letter} (hr : Attends watchers (letter :: letters) r) :
    Attends watchers letters (r.receive letter).2 := by
  have hchanges : ∀ r₁ r₂ : Room, Changes r₁ r₂ → Attends watchers letters r₁ →
      Attends watchers letters r₂ := fun r₁ r₂ h h₁ =>
    h.preserves (P := Attends watchers letters) (fun _ _ hchange h => hchange.attends h) h₁
  rcases receive_changes r letter with ⟨hnot, h⟩ | ⟨cell, pid, ⟨⟨purpose, info, rfl⟩, _⟩, h⟩
  · refine hchanges _ _ h (Attended.drop hr ?_)
    intro cell pid purpose info heq hpid
    refine Bool.not_eq_false _ |>.mp fun hstopped => hnot cell pid ⟨⟨purpose, info, heq⟩, hpid, ?_⟩
    rw [hstopped]
    exact Bool.false_ne_true
  · exact hchanges _ _ h (ended_attends hr)

end Room

/-! ## Runs -/

namespace Site

/-- For every running cell somebody is to tell the actor of the exit of its process. -/
def Attends (s : Site) : Prop :=
  Attended s.watchers s.mailbox s.supervisor s.actor

variable {s : Site}

theorem Attends.room (h : s.Attends) : s.room.Attends s.watchers s.mailbox := h

theorem post_attends (h : s.Attends) (letter : Letter) (halive : s.alive = true) :
    (s.post letter).Attends := by
  unfold Site.post
  rw [if_pos halive]
  exact Attended.post h letter

theorem withLedger_attends (h : s.Attends) (b : Bridge) : (s.withLedger b).Attends :=
  Attended.calm h (session_withLedger s b ▸ Calm.refl _)
    (congrArg Session.id (session_withLedger s b)) (runs_withLedger s b)

/-- Whatever happens as long as the actor handles letters, its running cells stay
attended. -/
theorem Turn.attends {s' : Site} (hturn : s.Turn s') (h : s.Attends)
    (halive : s'.alive = true) : s'.Attends := by
  have hs : s.alive = true := hturn.alive halive
  cases hturn with
  | idle => exact h
  | posted letter _ => exact post_attends h letter hs
  | worked letter rest _ hmailbox =>
      have hroom : s.room.Attends s.watchers (letter :: rest) := hmailbox ▸ h.room
      have hreceived := Room.receive_attends hroom
      change (s.room.receive letter).1 = true at halive
      unfold Attends leave
      rw [halive]
      exact hreceived
  | heard _ =>
      exact (Room.hearNext_changes s.room).preserves (P := Room.Attends s.watchers s.mailbox)
        (fun _ _ hchange hr => hchange.attends hr) h
  | concluded index inquiry letter _ _ =>
      refine post_attends ?_ letter hs
      exact Attended.calm h (Calm.refl _) rfl rfl
  | happened incident => exact withLedger_attends h _
  | planned hindrance launches incidents => exact withLedger_attends h _
  | processed generation what hwatcher => exact Attended.step h generation what hwatcher
  | printed generation w stream text _ hevent => exact Attended.take h hevent
  | passed generation w info hw hevent =>
      unfold Site.post
      rw [if_pos hs]
      exact Attended.pass h hw hevent
  | elsewhere key pid hkey => exact Attended.elsewhere h hkey pid
  | disturbed disk => exact h
  | respawned spawner => exact h

/-- The actor of a session that has just been opened with all cells idle. -/
theorem opened_attends (facilities : Facilities) (spawner : Spawner) (disk : Disk)
    {supervisor : Supervisor} (hsupervisor : supervisor.Coherent) {session : Session}
    (hidle : ∀ c ∈ session.cells, ¬c.IsRunning) :
    (opened facilities spawner disk supervisor session).Attends := by
  refine ⟨hsupervisor, nofun, nofun, ?_, fun c hc hrun => absurd hrun (hidle c hc)⟩
  exact List.pairwise_of_forall_mem_list fun _ _ y hy _ => hidle y hy

theorem run_attends (h : s.Attends) (events : List Event) :
    (s.run events).alive = true → (s.run events).Attends :=
  run_invariant (P := fun s => s.alive = true → s.Attends)
    (fun _ _ hturn h halive => hturn.attends (h (hturn.alive halive)) halive)
    events (fun _ => h)

/-- The supervisor holds a record of this process for the cell. -/
def HasProcess (s : Site) (cell : CellId) (pid : Nat) : Prop :=
  ∃ record, s.supervisor.records.find? (s.actor.key cell) = some record ∧ record.pid = pid

/-- The exit of this process of the cell is still to be handled: a letter carries it, or a
watcher is to take it from the queue, where it waits or where the monitor is to put it. -/
def AwaitsExit (s : Site) (cell : CellId) (pid : Nat) : Prop :=
  (∃ purpose info, .exited cell pid purpose info ∈ s.mailbox) ∨
    ∃ g w r, s.watchers.find? g = some w ∧ w.cell = cell ∧ w.pid = pid ∧
      s.supervisor.runs.find? g = some r ∧
      ((∃ info, r.phase = .removed info) ∨ ∃ info, .exited info ∈ r.queue)

/-- Who is to tell of an exit watches a process that is live, or knows of the exit. -/
theorem Attends.process_or_exit (h : s.Attends) {cell : CellId} {pid : Nat}
    (hexpected : Expected s.watchers s.mailbox cell pid) :
    s.HasProcess cell pid ∨ s.AwaitsExit cell pid := by
  rcases hexpected with ⟨g, w, hw, rfl, rfl⟩ | hletter
  · obtain ⟨r, hr, hwatches⟩ := h.watches g w hw
    have hlive : r.phase.isLive = true → s.HasProcess w.cell w.pid := by
      intro hlive
      have hheld := h.coherent.held g r hr hlive
      rw [hwatches.key] at hheld
      exact ⟨_, hheld, hwatches.pid⟩
    have hexit : ((∃ info, r.phase = .removed info) ∨ ∃ info, .exited info ∈ r.queue) →
        s.AwaitsExit w.cell w.pid := fun hexit => Or.inr ⟨g, w, r, hw, rfl, rfl, hr, hexit⟩
    cases hphase : r.phase with
    | waiting => exact Or.inl (hlive (by rw [hphase]; rfl))
    | draining info => exact Or.inl (hlive (by rw [hphase]; rfl))
    | drained info => exact Or.inl (hlive (by rw [hphase]; rfl))
    | removed info => exact Or.inr (hexit (Or.inl ⟨info, hphase⟩))
    | reported => exact Or.inr (hexit (Or.inr (hwatches.reported hphase)))
  · exact Or.inr (Or.inl hletter)

/-- Open a session with all cells idle, after any history of the supervisor, and let
anything happen.  As long as the actor handles letters, every running cell has a latest
process whose record the supervisor holds or whose exit is still to be handled.  Hence no
cell is running if no process of the session is live and no exit is outstanding. -/
theorem running_cells_end (facilities : Facilities) (spawner : Spawner) (disk : Disk)
    (capacity : Nat) (history : List Supervisor.Act) (session : Session)
    (hidle : ∀ c ∈ session.cells, ¬c.IsRunning) (events : List Event) :
    let s := (opened facilities spawner disk
      (history.foldl Supervisor.act (.new capacity)) session).run events
    s.alive = true →
      (∀ c ∈ s.actor.session.cells, c.IsRunning →
        ∃ pid, s.actor.runs.find? c.id = some pid ∧
          (s.HasProcess c.id pid ∨ s.AwaitsExit c.id pid)) ∧
      ((∀ cell pid, ¬s.HasProcess cell pid ∧ ¬s.AwaitsExit cell pid) →
        ∀ c ∈ s.actor.session.cells, ¬c.IsRunning) := by
  intro s halive
  have hsupervisor := Supervisor.coherent_foldl_act history
    (Supervisor.coherent_new capacity)
  have hs : s.Attends := run_attends
    (opened_attends facilities spawner disk hsupervisor hidle) events halive
  have hrunning : ∀ c ∈ s.actor.session.cells, c.IsRunning →
      ∃ pid, s.actor.runs.find? c.id = some pid ∧
        (s.HasProcess c.id pid ∨ s.AwaitsExit c.id pid) := by
    intro c hc hrun
    obtain ⟨pid, hpid, hexpected⟩ := hs.running c hc hrun
    exact ⟨pid, hpid, hs.process_or_exit hexpected⟩
  refine ⟨hrunning, fun hnone c hc hrun => ?_⟩
  obtain ⟨pid, _, hprocess | hexit⟩ := hrunning c hc hrun
  · exact (hnone c.id pid).1 hprocess
  · exact (hnone c.id pid).2 hexit

/-- A cell is deleted while it is running, created again, and run again with the same pid
before the exit of its first process is handled, which then changes nothing. -/
theorem running_cells_end_rerun :
    let session : Session := ⟨⟨"s"⟩, "/book", .typescript,
      [.code ⟨⟨"x"⟩, "1", "a.ts", .typescript, .idle⟩]⟩
    let s := (opened ⟨.standard, .standard, []⟩ (fun _ _ => .ok 7) .empty
      (([] : List Supervisor.Act).foldl Supervisor.act (.new 16)) session).run
      [.send ⟨0⟩ (.execute ⟨"x"⟩), .work, .send ⟨0⟩ (.delete ⟨"x"⟩), .work,
      .send ⟨0⟩ (.create 0 (.code ⟨⟨"x"⟩, "2", "a.ts", .typescript, .idle⟩)),
      .send ⟨0⟩ (.execute ⟨"x"⟩), .process 1 (.exit ⟨some 0⟩), .process 1 .giveUp,
      .process 1 .remove, .process 1 .report, .pass 1, .work, .work, .work]
    (∀ c ∈ session.cells, ¬c.IsRunning) ∧ s.alive = true ∧
      (∃ c ∈ s.actor.session.cells, c.IsRunning) ∧
      ∀ c ∈ s.actor.session.cells, c.IsRunning →
        ∃ pid, s.actor.runs.find? c.id = some pid ∧
          (s.HasProcess c.id pid ∨ s.AwaitsExit c.id pid) := by
  exact ⟨by decide, by decide +kernel, by decide +kernel,
    (running_cells_end _ _ _ _ _ _ (by decide) _ (by decide +kernel)).1⟩

end Site
end Notebook
