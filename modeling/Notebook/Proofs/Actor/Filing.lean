import Notebook.Proofs.Actor.Changes
import Notebook.Proofs.Actor.Site

/-!
# What a letter does to the files

Of all that an actor does, little has to do with the files of its cells.  `Room.filing` is the
view of a room that is left: the disk, the cells without their statuses, and of the effects those
that try deeds or run a cell.  Most operations of a room keep it.

`Room.Filed` lists what a letter can come to in this view, one constructor for each: a letter
makes one edit at most, and an edit is followed on disk by writing the file of the cell, by
removing the file that it had, or both.

* `execute_filed`, `create_filed`, …: one lemma for each handler.
* `receive_filed`: every letter.
* `Site.step_filed`: every step of a run, other than a write of somebody else.
* `Site.run_facilities`: no step changes the facilities.
-/

set_option autoImplicit false

namespace Notebook

/-- An effect that tries deeds on the disk or runs a cell. -/
def Effect.isFiling : Effect → Bool
  | .files _ => true
  | .spawned _ _ _ .cell => true
  | _ => false

namespace Session

/-- The session with every cell idle: statuses are not kept in files. -/
def calmed (s : Session) : Session :=
  { s with cells := s.cells.map (·.withStatus .idle) }

theorem map_updateCells (id : CellId) (f f' g : Cell → Cell) (hid : ∀ c, (g c).id = c.id)
    (h : ∀ c, g (f c) = f' (g c)) (cells : List Cell) :
    (updateCells id f cells).map g = updateCells id f' (cells.map g) := by
  induction cells with
  | nil => rfl
  | cons c rest ih =>
      rw [List.map_cons, updateCells, updateCells, hid]
      split
      · rw [List.map_cons, h]
      · rw [List.map_cons, ih]

theorem updateCells_self (id : CellId) (cells : List Cell) :
    updateCells id (fun c => c) cells = cells := by
  induction cells with
  | nil => rfl
  | cons c rest ih =>
      rw [updateCells, ih]
      split <;> rfl

@[simp]
theorem calmed_withStatus (s : Session) (id : CellId) (status : CellStatus) :
    (s.update id (·.withStatus status)).calmed = s.calmed := by
  have hcells := map_updateCells id (·.withStatus status) (fun c => c) (·.withStatus .idle)
    (Cell.id_withStatus .idle) (fun c => by cases c <;> rfl) s.cells
  simp only [calmed, update, hcells, updateCells_self]

theorem calmed_withSource (s : Session) (id : CellId) (source : String) :
    (s.update id (·.withSource source)).calmed =
      s.calmed.update id (·.withSource source) := by
  have hcells := map_updateCells id (·.withSource source) (·.withSource source)
    (·.withStatus .idle) (Cell.id_withStatus .idle) (fun c => by cases c <;> rfl) s.cells
  simp only [calmed, update, hcells]

theorem cell?_calmed (s : Session) (id : CellId) :
    s.calmed.cell? id = (s.cell? id).map (·.withStatus .idle) := by
  simp only [cell?, calmed, List.find?_map, Function.comp_def, Cell.id_withStatus]

end Session

/-- What is seen of a room by those who look after the files. -/
structure Filing where
  facilities : Facilities
  disk : Disk
  session : Session
  effects : List Effect

namespace Room

open Session

/-- What is seen of a room by those who look after the files. -/
def filing (r : Room) : Filing :=
  ⟨r.facilities, r.disk, r.actor.session.calmed, r.effects.filter Effect.isFiling⟩

/-! ## Operations that keep the files -/

section Kept

variable {r r' : Room}

theorem fst_onDisk (r : Room) (deeds : List FileDeed) :
    (r.onDisk deeds).1 = (FileDeed.runAll r.disk deeds).1 := rfl

theorem persist_eq (r : Room) (deeds : List FileDeed) :
    r.persist deeds =
      { r with disk := (FileDeed.runAll r.disk deeds).2 }.tell (.files deeds) := rfl

theorem filing_persist (r : Room) (deeds : List FileDeed) :
    (r.persist deeds).filing = { r.filing with
      disk := (FileDeed.runAll r.disk deeds).2
      effects := r.filing.effects ++ [.files deeds] } := by
  simp [filing, persist_eq, tell, Effect.isFiling]

/-- Trying deeds depends on nothing else. -/
theorem filing_persist_congr (h : r'.filing = r.filing) (deeds : List FileDeed) :
    (r'.persist deeds).filing = (r.persist deeds).filing := by
  have hdisk : r'.disk = r.disk := congrArg Filing.disk h
  rw [filing_persist, filing_persist, h, hdisk]

theorem filing_tell (r : Room) {e : Effect} (he : e.isFiling = false) :
    (r.tell e).filing = r.filing := by
  simp [filing, tell, he]

/-- After deeds a cell is run. -/
theorem filing_persist_ran (r : Room) (deeds : List FileDeed) (generation pid : Nat)
    (request : RunRequest) :
    ((r.persist deeds).tell (.spawned generation pid request .cell)).filing = { r.filing with
      disk := (FileDeed.runAll r.disk deeds).2
      effects := r.filing.effects ++ [.files deeds, .spawned generation pid request .cell] } := by
  simp [filing, persist_eq, tell, Effect.isFiling]

@[simp]
theorem filing_broadcast (r : Room) (notice : Notice) : (r.broadcast notice).filing = r.filing :=
  filing_tell r rfl

@[simp]
theorem filing_setStatus (r : Room) (cell : CellId) (status : CellStatus) :
    (r.setStatus cell status).filing = r.filing := by
  unfold setStatus
  split
  · rw [filing_broadcast]
    simp [filing, withSession]
  · rfl

@[simp]
theorem filing_stop (r : Room) (cell : CellId) : (r.stop cell).filing = r.filing := by
  unfold stop
  split
  · exact filing_tell r rfl
  · rfl

@[simp]
theorem filing_call {α : Type} (r : Room) (c : Call α) : (r.call c).2.filing = r.filing := by
  unfold call
  split <;> rfl

@[simp]
theorem filing_inform (r : Room) (c : Call Unit) : (r.inform c).filing = r.filing := by
  have hcall := filing_call r c
  unfold inform
  split
  · rfl
  · split
    · next r₁ heq =>
        rw [heq] at hcall
        exact hcall
    · next e r₁ heq =>
        rw [heq] at hcall
        exact hcall

@[simp]
theorem filing_ensureBridge (r : Room) : r.ensureBridge.filing = r.filing := by
  unfold ensureBridge
  split <;> rfl

@[simp]
theorem filing_freshen (r : Room) : r.freshen.2.filing = r.filing := by
  have hcall := filing_call r (Bridge.adopt r.actor.session.sources)
  unfold freshen
  split
  · split
    · next r₁ heq =>
        rw [heq] at hcall
        exact hcall
    · next e r₁ heq =>
        rw [heq] at hcall
        exact hcall
  · rfl

@[simp]
theorem filing_analyze {α : Type} (r : Room) (c : Call α) :
    (r.analyze c).2.filing = r.filing := by
  unfold analyze
  split
  · have hready : r.ensureBridge.freshen.2.filing = r.filing := by simp
    split
    · next e r₁ heq =>
        rw [heq] at hready
        exact hready
    · next r₁ heq =>
        rw [heq] at hready
        have hcall := filing_call r₁ c
        split
        · next e r₂ hrun =>
            rw [hrun] at hcall
            exact hcall.trans hready
        · next a r₂ hrun =>
            rw [hrun] at hcall
            exact hcall.trans hready
  · rfl

@[simp]
theorem filing_announceService (r : Room) : r.announceService.filing = r.filing := by
  unfold announceService
  rw [filing_tell _ rfl, filing_broadcast]

@[simp]
theorem filing_dismissBridge (r : Room) : r.dismissBridge.filing = r.filing := by
  have hcall := filing_call r Bridge.shutdown
  unfold dismissBridge
  simp only
  split <;> exact hcall

@[simp]
theorem filing_answer (r : Room) (request : RequestId) (answer : Answer) :
    (r.answer request answer).filing = r.filing :=
  filing_broadcast r _

@[simp]
theorem filing_publish (r : Room) (filename : String) (notice : CellId → Notice) :
    (r.publish filename notice).filing = r.filing := by
  unfold publish
  split
  · exact filing_broadcast r _
  · rfl

@[simp]
theorem filing_hear (r : Room) (report : Report) : (r.hear report).filing = r.filing := by
  unfold hear
  split
  · rfl
  · next b _ =>
      have hheard : ({ r with actor.bridge := some (b.handle report).2 } : Room).filing =
          r.filing := rfl
      simp only
      split <;> simp [hheard]

@[simp]
theorem filing_hearNext (r : Room) : r.hearNext.filing = r.filing := by
  unfold hearNext
  split
  · rfl
  · split
    · rfl
    · rw [filing_hear]
      rfl

@[simp]
theorem filing_ended (r : Room) (cell : CellId) : (r.ended cell).filing = r.filing := by
  unfold ended
  rw [filing_setStatus]
  rfl

theorem filing_spawned (r : Room) (cell : CellId) (request : RunRequest) (purpose : Purpose)
    (pid : Nat) :
    (r.spawned cell request purpose pid).filing =
      (r.tell (.spawned r.supervisor.nextGeneration pid request purpose)).filing := by
  unfold spawned
  rw [filing_setStatus]
  rfl

@[simp]
theorem filing_unspawned (r : Room) (cell : CellId) (failure : SpawnFailure) :
    (r.unspawned cell failure).filing = r.filing := by
  unfold unspawned
  rw [filing_broadcast, filing_setStatus]

/-! ## Letters that keep the files -/

theorem filing_startService (r : Room) : r.startService.2.filing = r.filing := by
  have hstart := filing_analyze r Bridge.start
  unfold startService
  split
  · next e r₁ heq =>
      rw [heq] at hstart
      exact hstart
  · next r₁ heq =>
      rw [heq] at hstart
      exact (filing_announceService r₁).trans hstart

theorem filing_stopService (r : Room) : r.stopService.2.filing = r.filing := by
  change (({ r.dismissBridge with actor.stale := false } : Room).broadcast _).filing = _
  rw [filing_broadcast]
  exact filing_dismissBridge r

theorem filing_requestDiagnostics (r : Room) : r.requestDiagnostics.2.filing = r.filing := by
  have hrequest := filing_analyze r (Bridge.requestDiagnostics r.actor.session.filenames
    r.facilities.service.diagnosticsDelay.toNat)
  unfold requestDiagnostics
  simp only
  split
  · next e r₁ heq =>
      rw [heq] at hrequest
      exact hrequest
  · next r₁ heq =>
      rw [heq] at hrequest
      exact hrequest

theorem filing_navigate (r : Room) (navigation : Navigation) (query : Query) :
    (r.navigate navigation query).2.filing = r.filing := by
  unfold navigate
  split
  · exact filing_answer r _ _
  · next code _ =>
      have hready := filing_analyze r (pure ())
      split
      · next e r₁ heq =>
          rw [heq] at hready
          exact (filing_answer r₁ _ _).trans hready
      · next r₁ heq =>
          rw [heq] at hready
          exact (filing_call r₁ _).trans hready

theorem filing_teardown (r : Room) : r.teardown.filing = r.filing := by
  have hsignals : ∀ (pids : List Nat) (r₁ : Room),
      (pids.foldl (fun r pid => r.tell (.signalled pid)) r₁).filing = r₁.filing := by
    intro pids
    induction pids with
    | nil => exact fun _ => rfl
    | cons pid rest ih => exact fun r₁ => (ih _).trans (filing_tell r₁ rfl)
  unfold teardown
  simp only
  rw [hsignals, filing_dismissBridge]

theorem filing_refreshService (r : Room) : r.refreshService.filing = r.filing := by
  have hanalyze := filing_analyze r (reanalyze r.actor.session.filenames
    r.facilities.service.diagnosticsDelay.toNat)
  unfold refreshService
  simp only
  split
  · next r₁ heq =>
      rw [heq] at hanalyze
      split
      · exact hanalyze
      · exact (filing_announceService r₁).trans hanalyze
  · next e r₁ heq =>
      rw [heq] at hanalyze
      exact hanalyze

end Kept

/-! ## What a letter can come to -/

/-- What becomes of the files of a room by a letter. -/
inductive Filed (r r' : Room) : Prop where
  | kept (h : r'.filing = r.filing)
  /-- A cell is written as it is. -/
  | wrote (cell : Cell) (hcell : cell ∈ r.actor.session.cells)
    (h : r'.filing = (r.persist (r.actor.session.writing cell)).filing)
  /-- A code cell is written as it is, and its file is run. -/
  | ran (code : CodeCell) (program : String) (args : List String) (generation pid : Nat)
    (hfind : r.actor.session.cell? code.id = some (.code code))
    (hcommand : r.facilities.runner.command code.language = program :: args)
    (hwrote : (FileDeed.runAll r.disk (r.actor.session.writing (.code code))).1 = none)
    (h : r'.filing = ((r.persist (r.actor.session.writing (.code code))).tell
      (.spawned generation pid (r.runRequest code.id program
        (args ++ [r.actor.session.pathFor code.filename])) .cell)).filing)
  | created (given cell : Cell) (index : Nat) (session : Session)
    (haccept : accept r.actor.session given = .ok cell)
    (hinsert : r.actor.session.insert index cell = .ok session)
    (h : r'.filing = ((r.withSession session).persist (session.writing cell)).filing)
  | renamed (code : CodeCell) (given : String) (old : Cell) (session : Session)
    (hcheck : Filename.check given r.actor.session.language = .ok ())
    (hfind : r.actor.session.cell? code.id = some (.code code))
    (hne : code.filename ≠ Text.trim given)
    (hreplace : r.actor.session.replace (.code { code with filename := Text.trim given }) =
      .ok (old, session))
    (h : r'.filing = (((r.withSession session).persist
      (session.writing (.code { code with filename := Text.trim given }))).persist
      (session.removing code.filename)).filing)
  /-- A code cell is taken out with its file. -/
  | deleted (id : CellId) (code : CodeCell) (session : Session)
    (hremove : r.actor.session.remove id = .ok (.code code, session))
    (h : r'.filing = ((r.withSession session).persist (session.removing code.filename)).filing)
  /-- A cell without code is taken out.  A manifest stays on disk. -/
  | dropped (id : CellId) (cell : Cell) (session : Session) (hcell : cell.code? = none)
    (hremove : r.actor.session.remove id = .ok (cell, session))
    (h : r'.filing = (r.withSession session).filing)
  | edited (id : CellId) (cell : Cell) (source : String)
    (hfind : r.actor.session.cell? id = some cell)
    (h : r'.filing = ((r.withSession (r.actor.session.update id (·.withSource source))).persist
      ((r.actor.session.update id (·.withSource source)).writing
        (cell.withSource source))).filing)
  /-- The manifest is taken over from the disk. -/
  | refreshed (manifest : ManifestCell) (source : String)
    (hfind : r.actor.session.cell? manifest.id = some (.manifest manifest))
    (hread : r.actor.session.manifestOn r.disk = some source)
    (h : r'.filing =
      (r.withSession (r.actor.session.update manifest.id (·.withSource source))).filing)

variable {r : Room}

theorem Filed.of_filing {r' r'' : Room} (h : Filed r r') (heq : r''.filing = r'.filing) :
    Filed r r'' := by
  cases h with
  | kept h => exact .kept (heq.trans h)
  | wrote cell hcell h => exact .wrote cell hcell (heq.trans h)
  | ran code program args generation pid hfind hcommand hwrote h =>
      exact .ran code program args generation pid hfind hcommand hwrote (heq.trans h)
  | created given cell index session haccept hinsert h =>
      exact .created given cell index session haccept hinsert (heq.trans h)
  | renamed code given old session hcheck hfind hne hreplace h =>
      exact .renamed code given old session hcheck hfind hne hreplace (heq.trans h)
  | deleted id code session hremove h => exact .deleted id code session hremove (heq.trans h)
  | dropped id cell session hcell hremove h =>
      exact .dropped id cell session hcell hremove (heq.trans h)
  | edited id cell source hfind h => exact .edited id cell source hfind (heq.trans h)
  | refreshed manifest source hfind hread h =>
      exact .refreshed manifest source hfind hread (heq.trans h)

theorem Filed.facilities {r' : Room} (h : Filed r r') : r'.facilities = r.facilities := by
  have hsame : r'.filing.facilities = r.filing.facilities := by
    cases h with
    | kept h => rw [h]
    | wrote cell hcell h => rw [h, filing_persist]
    | ran code program args generation pid hfind hcommand hwrote h => rw [h, filing_persist_ran]
    | created given cell index session haccept hinsert h =>
        rw [h, filing_persist]
        rfl
    | renamed code given old session hcheck hfind hne hreplace h =>
        rw [h, filing_persist, filing_persist]
        rfl
    | deleted id code session hremove h =>
        rw [h, filing_persist]
        rfl
    | dropped id cell session hcell hremove h =>
        rw [h]
        rfl
    | edited id cell source hfind h =>
        rw [h, filing_persist]
        rfl
    | refreshed manifest source hfind hread h =>
        rw [h]
        rfl
  exact hsame

/-! ## One lemma for each handler -/

theorem install_filed (r : Room) (packages : List String) :
    Filed r (r.install packages).2 := by
  unfold install
  split
  · exact .kept rfl
  · next manifest hmanifest =>
      have hcell : Cell.manifest manifest ∈ r.actor.session.cells := by
        obtain ⟨c, hc, heq⟩ := List.exists_of_findSome?_eq_some hmanifest
        cases c with
        | manifest c =>
            obtain rfl := Option.some.inj heq
            exact hc
        | _ => cases heq
      split
      · exact .kept rfl
      · next program args _ =>
          let deeds := r.actor.session.writing (.manifest manifest)
          have hwrote : Filed r (r.persist deeds) := .wrote _ hcell rfl
          split
          · next problem r₁ heq =>
              obtain rfl : r.persist deeds = r₁ := congrArg Prod.snd heq
              exact hwrote
          · next r₁ heq =>
              obtain rfl : r.persist deeds = r₁ := congrArg Prod.snd heq
              rcases spawn_cases (r.persist deeds) manifest.id program (args ++ packages)
                (.install packages) with ⟨pid, _, _, hrun⟩ | ⟨failure, _, hrun⟩ | ⟨_, hrun⟩
              · rw [hrun]
                refine hwrote.of_filing ?_
                change (broadcast _ _).filing = _
                rw [filing_broadcast, filing_spawned, filing_tell _ rfl]
              · rw [hrun]
                refine hwrote.of_filing ?_
                change (broadcast _ _).filing = _
                rw [filing_broadcast, filing_unspawned]
              · rw [hrun]
                exact hwrote

theorem executeCode_filed {code : CodeCell}
    (hfind : r.actor.session.cell? code.id = some (.code code)) :
    Filed r (r.executeCode code.id code).2 := by
  unfold executeCode
  split
  · exact .kept rfl
  · next program args hcommand =>
      let deeds := r.actor.session.writing (.code code)
      have hwrote : Filed r (r.persist deeds) :=
        .wrote _ (List.mem_of_find?_eq_some hfind) rfl
      split
      · next problem r₁ heq =>
          obtain rfl : r.persist deeds = r₁ := congrArg Prod.snd heq
          exact hwrote
      · next r₁ heq =>
          obtain rfl : r.persist deeds = r₁ := congrArg Prod.snd heq
          have hnone : (FileDeed.runAll r.disk deeds).1 = none := by
            rw [← fst_onDisk, heq]
          have hrequest : ∀ args, (r.persist deeds).runRequest code.id program args =
              r.runRequest code.id program args := by
            rw [persist_eq]
            exact fun _ => rfl
          simp only
          rcases spawn_cases (r.persist deeds) code.id program
            (args ++ [(r.persist deeds).actor.session.pathFor code.filename]) .cell with
            ⟨pid, _, _, hrun⟩ | ⟨failure, _, hrun⟩ | ⟨_, hrun⟩
          · rw [hrun]
            refine .ran code program args (r.persist deeds).supervisor.nextGeneration pid hfind
              hcommand hnone ?_
            refine (filing_tell _ rfl).trans ?_
            rw [filing_spawned, hrequest, persist_eq]
            rfl
          · rw [hrun]
            exact hwrote.of_filing (filing_unspawned _ code.id failure)
          · rw [hrun]
            exact hwrote

theorem execute_filed (r : Room) (cell : CellId) : Filed r (r.execute cell).2 := by
  unfold execute
  split
  · exact .kept rfl
  · exact .kept rfl
  · exact .kept rfl
  · exact install_filed r []
  · next code hfind =>
      obtain rfl : code.id = cell := id_of_cell? hfind
      exact executeCode_filed hfind

theorem create_filed (r : Room) (index : Nat) (given : Cell) :
    Filed r (r.create index given).2 := by
  unfold create
  split
  · exact .kept rfl
  · next cell haccept =>
      split
      · exact .kept rfl
      · next session hinsert =>
          refine .created given cell index session haccept hinsert ?_
          simp only
          cases cell with
          | code code => exact (filing_broadcast _ _).trans (filing_inform _ _)
          | _ => exact filing_broadcast _ _

theorem rename_filed (r : Room) (cell : CellId) (given : String) :
    Filed r (r.rename cell given).2 := by
  unfold rename
  split
  · exact .kept rfl
  · next hcheck =>
      split
      · exact .kept rfl
      · next code hfind =>
          obtain rfl : code.id = cell := id_of_cell? hfind
          unfold renameTo
          split
          · exact .kept (filing_broadcast r _)
          · next hne =>
              simp only
              split
              · exact .kept rfl
              · next old session hreplace =>
                  exact .renamed code given old session hcheck hfind hne hreplace
                    ((filing_broadcast _ _).trans (filing_inform _ _))
      · exact .kept rfl

theorem delete_filed (r : Room) (cell : CellId) : Filed r (r.delete cell).2 := by
  unfold delete
  split
  · exact .kept rfl
  · next removed session hremove =>
      have hstopped := filing_stop (r.withSession session) cell
      simp only
      cases removed with
      | code code =>
          refine .deleted cell code session hremove ((filing_broadcast _ _).trans ?_)
          refine filing_persist_congr ?_ _
          exact (filing_inform _ _).trans hstopped
      | _ => exact .dropped cell _ session rfl hremove ((filing_broadcast _ _).trans hstopped)

theorem edit_filed (r : Room) (id : CellId) (source : String) :
    Filed r (r.edit id source).2 := by
  unfold edit
  split
  · exact .kept rfl
  · next cell hfind =>
      refine .edited id cell source hfind ?_
      simp only
      cases cell with
      | code code => exact (filing_broadcast _ _).trans (filing_inform _ _)
      | _ => exact filing_broadcast _ _

theorem perform_filed (r : Room) (intent : Intent) : Filed r (r.perform intent).2 := by
  cases intent with
  | execute cell => exact execute_filed r cell
  | stop cell => exact .kept (filing_stop r cell)
  | create index cell => exact create_filed r index.toNat cell
  | rename cell filename => exact rename_filed r cell filename
  | delete cell => exact delete_filed r cell
  | edit cell source => exact edit_filed r cell source
  | install packages => exact install_filed r packages
  | startService => exact .kept (filing_startService r)
  | stopService => exact .kept (filing_stopService r)
  | requestDiagnostics => exact .kept (filing_requestDiagnostics r)
  | navigate navigation query => exact .kept (filing_navigate r navigation query)

/-! ## Exits -/

/-- Statuses do not hide the manifest. -/
theorem manifest_of_calmed {s s' : Session} (h : s'.calmed = s.calmed) {manifest : ManifestCell}
    (hfind : s'.cell? manifest.id = some (.manifest manifest)) :
    ∃ named : ManifestCell, named.id = manifest.id ∧
      s.cell? named.id = some (.manifest named) := by
  have hcalmed := congrArg (·.cell? manifest.id) h
  simp only [cell?_calmed, hfind] at hcalmed
  obtain ⟨c, hc, hidle⟩ := Option.map_eq_some_iff.mp hcalmed.symm
  cases c with
  | manifest named =>
      have hid : named.id = manifest.id := id_of_cell? hc
      exact ⟨named, hid, hid ▸ hc⟩
  | _ => cases hidle

/-- The manifest may be taken over after statuses have changed. -/
theorem refreshManifest_filed {r₁ : Room} (h : r₁.filing = r.filing) :
    Filed r r₁.refreshManifest := by
  obtain ⟨hfacilities, hdisk, hsession, heffects⟩ := Filing.mk.inj h
  unfold refreshManifest
  split
  · next source named hread _ =>
      split
      · next manifest hfind =>
          have hid : manifest.id = named.id := id_of_cell? hfind
          obtain ⟨old, hold, hfound⟩ := manifest_of_calmed hsession (hid ▸ hfind)
          have hdir := congrArg Session.dir hsession
          split
          · exact .kept h
          · refine .refreshed old source hfound ?_ ?_
            · rw [← hread, ← hdisk]
              simp only [manifestOn, manifestPath]
              rw [show r₁.actor.session.dir = r.actor.session.dir from hdir]
            · rw [filing_broadcast, hold]
              simp only [filing, withSession, calmed_withSource, hfacilities, hdisk, hsession,
                heffects]
      · exact .kept ((filing_broadcast _ _).trans h)
      · exact .kept h
  · exact .kept h

theorem exited_filed (r : Room) (cell : CellId) (pid : Nat) (purpose : Purpose)
    (info : ExitInfo) : Filed r (r.exited cell pid purpose info) := by
  rcases exited_cases r cell pid purpose info with ⟨_, heq⟩ | ⟨_, heq⟩
  · rw [heq]
    exact .kept rfl
  · rw [heq]
    cases purpose with
    | cell => exact .kept (filing_ended r cell)
    | install packages =>
        simp only [finishInstall]
        have htold : ∀ notice event, (((r.ended cell).broadcast notice).tell
            (.telemetry event)).filing = r.filing := fun notice event => by
          rw [filing_tell _ rfl, filing_broadcast, filing_ended]
        split
        · exact (refreshManifest_filed (htold _ _)).of_filing (filing_refreshService _)
        · exact .kept (htold _ _)

/-- Every letter makes one edit at most. -/
theorem receive_filed (r : Room) (letter : Letter) : Filed r (r.receive letter).2 := by
  cases letter with
  | intent sender intent =>
      refine (perform_filed r intent).of_filing ?_
      rcases serve_eq r sender intent with heq | ⟨refusal, heq⟩
      · exact congrArg filing heq
      · exact (congrArg filing heq).trans (filing_tell _ rfl)
  | exited cell pid purpose info => exact exited_filed r cell pid purpose info
  | answered request answer => exact .kept (filing_answer r request answer)
  | snapshot call => exact .kept (filing_tell r rfl)
  | close call => exact .kept ((filing_tell _ rfl).trans (filing_teardown r))

end Room

/-! ## Runs -/

namespace Site

/-- Unless somebody else writes to the disk, a step changes the files as a letter does. -/
theorem step_filed (s : Site) (e : Event) (he : ∀ disk, e ≠ .disturb disk) :
    Room.Filed s.room { (s.step e).room with effects := s.effects [e] } := by
  have hkept : ∀ s' : Site, s'.facilities = s.facilities → s'.disk = s.disk →
      s'.actor.session = s.actor.session →
      (s'.log = s.log ∨ ∃ notice : Notice, s'.log = s.log ++ [Effect.notice notice]) →
      Room.Filed s.room { s'.room with effects := s'.log.drop s.log.length } := by
    intro s' hfacilities hdisk hsession hlog
    refine .kept ?_
    rcases hlog with hlog | ⟨notice, hlog⟩
    · simp [Room.filing, room, hfacilities, hdisk, hsession, hlog]
    · simp [Room.filing, room, hfacilities, hdisk, hsession, hlog, Effect.isFiling]
  have hpost : ∀ (s' : Site) (letter : Letter), s'.facilities = s.facilities →
      s'.disk = s.disk → s'.actor.session = s.actor.session → s'.log = s.log →
      Room.Filed s.room
        { (s'.post letter).room with effects := (s'.post letter).log.drop s.log.length } := by
    intro s' letter hfacilities hdisk hsession hlog
    unfold post
    split
    · exact hkept _ hfacilities hdisk hsession (Or.inl hlog)
    · exact hkept _ hfacilities hdisk hsession (Or.inl hlog)
  -- what a letter has done is all that a step has done
  have hleft : ∀ mailbox alive (r : Room), Room.Filed s.room r → Room.Filed s.room
      { (s.leave mailbox alive r).room with
        effects := (s.leave mailbox alive r).log.drop s.log.length } := by
    intro mailbox alive r hr
    refine hr.of_filing ?_
    simp [Room.filing, room, leave, hr.facilities]
  change Room.Filed s.room { (s.step e).room with effects := (s.step e).log.drop s.log.length }
  cases e with
  | send client intent => exact hpost s _ rfl rfl rfl rfl
  | ask call => exact hpost s _ rfl rfl rfl rfl
  | close call => exact hpost s _ rfl rfl rfl rfl
  | work =>
      simp only [step, work]
      split
      · exact hleft _ _ _ (Room.receive_filed s.room _)
      · exact hkept s rfl rfl rfl (Or.inl rfl)
  | hear =>
      simp only [step, hear]
      split
      · exact hleft _ _ _ (.kept (Room.filing_hearNext s.room))
      · exact hkept s rfl rfl rfl (Or.inl rfl)
  | conclude index =>
      simp only [step, conclude]
      split
      · exact hkept s rfl rfl rfl (Or.inl rfl)
      · split
        · exact hkept s rfl rfl rfl (Or.inl rfl)
        · exact hpost _ _ rfl rfl rfl rfl
  | happens incident => exact hkept _ rfl rfl (session_withLedger s _) (Or.inl rfl)
  | plan hindrance launches incidents =>
      exact hkept _ rfl rfl (session_withLedger s _) (Or.inl rfl)
  | process generation what =>
      simp only [step]
      split
      · exact hkept s rfl rfl rfl (Or.inl rfl)
      · exact hkept _ rfl rfl rfl (Or.inl rfl)
  | pass generation =>
      simp only [step, pass]
      split
      · exact hkept _ rfl rfl rfl (Or.inr ⟨_, rfl⟩)
      · exact hpost _ _ rfl rfl rfl rfl
      · exact hkept s rfl rfl rfl (Or.inl rfl)
  | elsewhere key pid =>
      simp only [step]
      split
      · exact hkept s rfl rfl rfl (Or.inl rfl)
      · exact hkept _ rfl rfl rfl (Or.inl rfl)
  | disturb disk => exact absurd rfl (he disk)
  | respawn spawner => exact hkept _ rfl rfl rfl (Or.inl rfl)

/-- The facilities stay the same. -/
theorem run_facilities (s : Site) (events : List Event) :
    (s.run events).facilities = s.facilities := by
  refine run_preserves (P := fun s' => s'.facilities = s.facilities) (fun s' e h => ?_) events rfl
  by_cases hdisk : ∃ disk, e = .disturb disk
  · obtain ⟨disk, rfl⟩ := hdisk
    exact h
  · exact (step_filed s' e fun disk he => hdisk ⟨disk, he⟩).facilities.trans h

end Site
end Notebook
