import Notebook.Actor.Step
import Notebook.Proofs.Process.Supervision
import Notebook.Proofs.Session.Edits
import Mathlib.Logic.Relation

/-!
# Changes of a room

Whatever an actor does while it handles a letter is a sequence of small changes of its
room.  `Room.Change` lists them, one constructor for each: a cell is created, a process is
spawned, the bridge is called, something is told.  A property that every change preserves
is then preserved by every letter, whatever branches its handler has.

An exit that is taken note of is not among the changes, since it ends what the letter
stands for.  It comes before the changes: `exited_changes`.

Most changes are plain.  The others reply to a client: they answer a navigation request,
begin to wait for the answer, or begin or end an installation.

* `install_cases`, `navigate_cases`, `perform_cases`: what an intent comes to besides plain
  changes.
* `serve_changes`, `answer_changes`, `teardown_plain`, `hearNext_plain`: what an actor does
  consists of changes.
* `Changes.preserves`: an invariant of the changes is an invariant of what an actor does.
-/

set_option autoImplicit false

namespace Notebook

/-- A notice that is not about the cells as they are stored. -/
def Notice.isAside : Notice → Bool
  | .statusChanged .. => false
  | .updated _ => false
  | .deleted _ => false
  | _ => true

/-- A notice that replies to a client: it answers a navigation request, or it tells of an
installation. -/
def Notice.isReply : Notice → Bool
  | .quickinfo .. => true
  | .definition .. => true
  | .completions .. => true
  | .install .. => true
  | _ => false

/-- The name of the manifest finds a cell. -/
theorem Session.cell?_manifest {s : Session} {manifest : ManifestCell}
    (h : s.manifest? = some manifest) : (s.cell? manifest.id).isSome = true := by
  obtain ⟨c, hc, heq⟩ := List.exists_of_findSome?_eq_some h
  rw [Option.isSome_iff_ne_none, ne_eq, cell?_eq_none_iff]
  intro hnone
  cases c with
  | manifest c =>
      obtain rfl := Option.some.inj heq
      exact hnone _ hc rfl
  | _ => cases heq

namespace Room

/-! ## Bundles -/

/-- Lets the bridge follow what has been done to a code cell; other cells have no file. -/
def follow (r : Room) (cell : Cell) (c : CodeCell → Call Unit) : Room :=
  match cell with
  | .code code => r.inform (c code)
  | _ => r

/-- The room after a cell was taken into the session. -/
def created (r : Room) (cell : Cell) (session : Session) : Room :=
  (((r.withSession session).persist (session.writing cell)).follow cell
    fun c => Bridge.openFile c.filename c.source).broadcast (.updated cell)

/-- The room after a code cell was given another filename. -/
def renamed (r : Room) (code : CodeCell) (filename : String) (session : Session) : Room :=
  ((((r.withSession session).persist
    (session.writing (.code { code with filename }))).persist
    (session.removing code.filename)).inform
    (Bridge.rename code.filename filename code.source)).broadcast
    (.updated (.code { code with filename }))

/-- The file of a cell that has been taken out goes with it. -/
def discard (r : Room) (cell : Cell) (session : Session) : Room :=
  match cell with
  | .code code =>
    (r.inform (Bridge.closeFile code.filename)).persist (session.removing code.filename)
  | _ => r

/-- The room after a cell was taken out of the session. -/
def deleted (r : Room) (id : CellId) (cell : Cell) (session : Session) : Room :=
  (((r.withSession session).stop id).discard cell session).broadcast (.deleted id)

/-- The room after a cell was given a new source. -/
def edited (r : Room) (id : CellId) (cell : Cell) (source : String) : Room :=
  let session := r.actor.session.update id (·.withSource source)
  (((r.withSession session).persist (session.writing (cell.withSource source))).follow
    (cell.withSource source)
    fun c => Bridge.resync c.filename c.source session.filenames).broadcast
    (.updated (cell.withSource source))

/-- The room after the source of the manifest was taken over from the disk. -/
def refreshed (r : Room) (manifest : ManifestCell) (source : String) : Room :=
  (r.withSession (r.actor.session.update manifest.id (·.withSource source))).broadcast
    (.updated (.manifest { manifest with source }))

/-- The room after a process was started for a cell. -/
def spawned (r : Room) (cell : CellId) (request : RunRequest) (purpose : Purpose)
    (pid : Nat) : Room :=
  ({ r with
    supervisor := r.supervisor.started request.key pid
    actor.runs := r.actor.runs.set cell pid }.tell
    (.spawned r.supervisor.nextGeneration pid request purpose)).setStatus cell .running

/-- The room after a process could not be started. -/
def unspawned (r : Room) (cell : CellId) (failure : SpawnFailure) : Room :=
  (r.setStatus cell .idle).broadcast (.failed (some cell) failure.message)

/-- The room after the exit of a cell's latest process. -/
def ended (r : Room) (cell : CellId) : Room :=
  { r with actor.runs := r.actor.runs.erase cell }.setStatus cell .idle

/-- The room after its bridge took the first report, which leaves the rest. -/
def reported (r : Room) (b : Bridge) (report : Report) (rest : List Report) : Room :=
  { r with actor.bridge := some ({ b with reports := rest }.handle report).2 }

/-! ## Changes -/

/-- A call that asks the service for something.  It leaves the records as they are. -/
inductive Inquires : {α : Type} → Call α → Prop where
  | nothing : Inquires (pure () : Call Unit)
  | start : Inquires Bridge.start
  | diagnostics (filenames : List String) (delay : Nat) :
    Inquires (Bridge.requestDiagnostics filenames delay)
  | reanalyze (filenames : List String) (delay : Nat) : Inquires (reanalyze filenames delay)
  | navigate (navigation : Navigation) (filename : String) (offset : Nat) :
    Inquires (Bridge.navigate navigation filename offset)

/-- One thing that an actor does, other than to reply to a client or to begin what it is
going to reply to. -/
inductive PlainChange (r : Room) : Room → Prop where
  | refused (client : ConnectionId) (refusal : Refusal) :
    PlainChange r (r.tell (.refusal client refusal))
  | counted (event : Telemetry) : PlainChange r (r.tell (.telemetry event))
  | signalled (pid : Nat) : PlainChange r (r.tell (.signalled pid))
  | shown (call : Nat) : PlainChange r (r.tell (.snapshot call r.actor.session.cells))
  | closed (call : Nat) : PlainChange r (r.tell (.closed call))
  | noticed (notice : Notice) (haside : notice.isAside = true)
    (hreply : notice.isReply = false) : PlainChange r (r.broadcast notice)
  | wrote (deeds : List FileDeed) : PlainChange r (r.onDisk deeds).2
  | created (given cell : Cell) (index : Nat) (session : Session)
    (haccept : accept r.actor.session given = .ok cell)
    (hinsert : r.actor.session.insert index cell = .ok session) :
    PlainChange r (r.created cell session)
  | restated (cell : Cell) (h : r.actor.session.cell? cell.id = some cell) :
    PlainChange r (r.broadcast (.updated cell))
  | renamed (code : CodeCell) (given : String) (old : Cell) (session : Session)
    (hcheck : Filename.check given r.actor.session.language = .ok ())
    (hfind : r.actor.session.cell? code.id = some (.code code))
    (hne : code.filename ≠ Text.trim given)
    (hreplace : r.actor.session.replace (.code { code with filename := Text.trim given }) =
      .ok (old, session)) :
    PlainChange r (r.renamed code (Text.trim given) session)
  | deleted (id : CellId) (cell : Cell) (session : Session)
    (hremove : r.actor.session.remove id = .ok (cell, session)) :
    PlainChange r (r.deleted id cell session)
  | edited (id : CellId) (cell : Cell) (source : String)
    (hfind : r.actor.session.cell? id = some cell) :
    PlainChange r (r.edited id cell source)
  | refreshed (manifest : ManifestCell) (source : String)
    (hfind : r.actor.session.cell? manifest.id = some (.manifest manifest))
    (hread : r.actor.session.manifestOn r.disk = some source) :
    PlainChange r (r.refreshed manifest source)
  | spawned (cell : CellId) (program : String) (args : List String) (pid : Nat)
    (hfree : r.supervisor.isRunning (r.actor.key cell) = false)
    (hspawn : r.spawner r.disk (r.runRequest cell program args) = .ok pid)
    (hknown : (r.actor.session.cell? cell).isSome = true) :
    PlainChange r (r.spawned cell (r.runRequest cell program args) .cell pid)
  | unspawned (cell : CellId) (failure : SpawnFailure)
    (hfree : r.supervisor.isRunning (r.actor.key cell) = false) :
    PlainChange r (r.unspawned cell failure)
  | ensured : PlainChange r r.ensureBridge
  | freshened : PlainChange r r.freshen.2
  | called {α : Type} (c : Call α) (hc : Inquires c) : PlainChange r (r.call c).2
  | dismissed : PlainChange r r.dismissBridge
  | settled (h : r.actor.bridge = none) :
    PlainChange r { r with actor.stale := false }
  | reported (b : Bridge) (report : Report) (rest : List Report)
    (hbridge : r.actor.bridge = some b) (hreports : b.reports = report :: rest) :
    PlainChange r (r.reported b report rest)

/-- One thing that an actor does. -/
inductive Change (r : Room) : Room → Prop where
  | plain {r' : Room} (h : PlainChange r r') : Change r r'
  | noticed (notice : Notice) (haside : notice.isAside = true) :
    Change r (r.broadcast notice)
  | spawned (cell : CellId) (program : String) (args : List String)
    (purpose : Purpose) (pid : Nat)
    (hfree : r.supervisor.isRunning (r.actor.key cell) = false)
    (hspawn : r.spawner r.disk (r.runRequest cell program args) = .ok pid)
    (hknown : (r.actor.session.cell? cell).isSome = true) :
    Change r (r.spawned cell (r.runRequest cell program args) purpose pid)
  | awaited (inquiry : Inquiry) : Change r (r.await inquiry)

/-- Several plain changes, one after the other. -/
abbrev PlainChanges : Room → Room → Prop :=
  Relation.ReflTransGen PlainChange

/-- Several changes, one after the other. -/
abbrev Changes : Room → Room → Prop :=
  Relation.ReflTransGen Change

theorem PlainChanges.changes {r r' : Room} (h : PlainChanges r r') : Changes r r' :=
  Relation.ReflTransGen.mono (fun _ _ => Change.plain) _ _ h

/-- What every change preserves is preserved by several. -/
theorem Changes.preserves {P : Room → Prop} (hstep : ∀ r r', Change r r' → P r → P r')
    {r r' : Room} (h : Changes r r') (hr : P r) : P r' := by
  induction h with
  | refl => exact hr
  | tail _ hlast ih => exact hstep _ _ hlast ih

/-! ## Parts of handlers -/

theorem analyze_plain {α : Type} (r : Room) (c : Call α) (hc : Inquires c) :
    PlainChanges r (r.analyze c).2 := by
  unfold analyze
  split
  · have hfresh : PlainChanges r r.ensureBridge.freshen.2 :=
      (Relation.ReflTransGen.single .ensured).tail .freshened
    split
    · next e r₁ heq =>
        rw [heq] at hfresh
        exact hfresh
    · next r₁ heq =>
        rw [heq] at hfresh
        have hcall := hfresh.tail (.called c hc)
        split
        · next e r₂ hrun =>
            rw [hrun] at hcall
            exact hcall
        · next a r₂ hrun =>
            rw [hrun] at hcall
            exact hcall
  · exact .refl

/-- A process is started, or it cannot be started, or the cell is left alone. -/
theorem spawn_cases (r : Room) (cell : CellId) (program : String) (args : List String)
    (purpose : Purpose) :
    (∃ pid, r.supervisor.isRunning (r.actor.key cell) = false ∧
      r.spawner r.disk (r.runRequest cell program args) = .ok pid ∧
      r.spawn cell program args purpose =
        (.ok (), r.spawned cell (r.runRequest cell program args) purpose pid)) ∨
    (∃ failure, r.supervisor.isRunning (r.actor.key cell) = false ∧
      r.spawn cell program args purpose =
        (.error (.spawn failure), r.unspawned cell failure)) ∨
    r.supervisor.isRunning (r.actor.key cell) = true ∧
      r.spawn cell program args purpose = (.error (.alreadyRunning (r.actor.key cell)), r) := by
  unfold spawn
  simp only
  rcases Supervisor.run_cases r.supervisor (r.runRequest cell program args).key
    (fun disk => (r.spawner disk (r.runRequest cell program args), disk)) r.disk with
    ⟨hheld, heq⟩ | ⟨hfree, ⟨failure, _, heq⟩ | ⟨pid, hspawn, heq⟩⟩
  · rw [heq]
    exact Or.inr (Or.inr ⟨hheld, rfl⟩)
  · rw [heq]
    exact Or.inr (Or.inl ⟨failure, hfree, rfl⟩)
  · rw [heq]
    exact Or.inl ⟨pid, hfree, hspawn, rfl⟩

theorem stop_plain (r : Room) (cell : CellId) : PlainChanges r (r.stop cell) := by
  unfold stop
  split
  · next pid _ => exact .single (.signalled pid)
  · exact .refl

theorem announceService_plain (r : Room) : PlainChanges r r.announceService :=
  (Relation.ReflTransGen.single (.noticed _ rfl rfl)).tail (.counted _)

/-! ## Intents -/

theorem session_onDisk (r : Room) (deeds : List FileDeed) :
    (r.onDisk deeds).2.actor.session = r.actor.session := rfl

/-- An installation is begun with a process and a notice, fails with a notice, or does not
come about. -/
theorem install_cases (r : Room) (packages : List String) :
    ∃ r₁, PlainChanges r r₁ ∧
      ((r.install packages).2 = r₁ ∨
        (r.install packages).2 = r₁.broadcast (.install .failed packages none) ∨
        ∃ deeds cell program args pid,
          r₁ = r.persist deeds ∧
          r₁.supervisor.isRunning (r₁.actor.key cell) = false ∧
          r₁.spawner r₁.disk (r₁.runRequest cell program args) = .ok pid ∧
          (r₁.actor.session.cell? cell).isSome = true ∧
          (r.install packages).2 =
            (r₁.spawned cell (r₁.runRequest cell program args) (.install packages)
              pid).broadcast (.install .installing packages none)) := by
  unfold install
  split
  · exact ⟨r, .refl, Or.inl rfl⟩
  · next manifest hmanifest =>
      split
      · exact ⟨r, .refl, Or.inl rfl⟩
      · next program args _ =>
          have hwrote : PlainChange r _ := .wrote (r.actor.session.writing (.manifest manifest))
          split
          · next problem r₁ heq =>
              rw [heq] at hwrote
              exact ⟨r₁, .single hwrote, Or.inl rfl⟩
          · next r₁ heq =>
              have hsame := session_onDisk r (r.actor.session.writing (.manifest manifest))
              have hpersist : r₁ = r.persist (r.actor.session.writing (.manifest manifest)) :=
                (congrArg Prod.snd heq).symm
              rw [heq] at hwrote hsame
              have hknown : (r₁.actor.session.cell? manifest.id).isSome = true :=
                hsame.symm ▸ Session.cell?_manifest hmanifest
              have hwrote : PlainChanges r r₁ := .single hwrote
              rcases spawn_cases r₁ manifest.id program (args ++ packages) (.install packages)
                with ⟨pid, hfree, hspawn, hrun⟩ | ⟨failure, hfree, hrun⟩ | ⟨_, hrun⟩
              · rw [hrun]
                exact ⟨r₁, hwrote, Or.inr (Or.inr
                  ⟨_, manifest.id, program, _, pid, hpersist, hfree, hspawn, hknown, rfl⟩)⟩
              · rw [hrun]
                exact ⟨_, hwrote.tail (.unspawned manifest.id failure hfree),
                  Or.inr (Or.inl rfl)⟩
              · rw [hrun]
                exact ⟨r₁, hwrote, Or.inl rfl⟩

theorem install_changes (r : Room) (packages : List String) :
    Changes r (r.install packages).2 := by
  obtain ⟨r₁, hplain, hends⟩ := install_cases r packages
  rcases hends with heq | heq | ⟨_, cell, program, args, pid, _, hfree, hspawn, hknown, heq⟩
  · exact heq ▸ hplain.changes
  · exact heq ▸ hplain.changes.tail (.noticed _ rfl)
  · exact heq ▸ (hplain.changes.tail
      (.spawned cell program args (.install packages) pid hfree hspawn hknown)).tail
      (.noticed _ rfl)

theorem executeCode_plain (r : Room) {cell : CellId} {code : CodeCell}
    (hfind : r.actor.session.cell? cell = some (.code code)) :
    PlainChanges r (r.executeCode cell code).2 := by
  unfold executeCode
  split
  · exact .refl
  · next program args _ =>
      have hwrote : PlainChange r _ := .wrote (r.actor.session.writing (.code code))
      split
      · next problem r₁ heq =>
          rw [heq] at hwrote
          exact .single hwrote
      · next r₁ heq =>
          have hsame := session_onDisk r (r.actor.session.writing (.code code))
          rw [heq] at hwrote hsame
          have hknown : (r₁.actor.session.cell? cell).isSome = true := by
            rw [hsame, hfind]
            rfl
          have hwrote : PlainChanges r r₁ := .single hwrote
          simp only
          rcases spawn_cases r₁ cell program (args ++ [r₁.actor.session.pathFor code.filename])
            .cell with ⟨pid, hfree, hspawn, hrun⟩ | ⟨failure, hfree, hrun⟩ | ⟨_, hrun⟩
          · rw [hrun]
            exact (hwrote.tail (.spawned cell program _ pid hfree hspawn hknown)).tail (.counted _)
          · rw [hrun]
            exact hwrote.tail (.unspawned cell failure hfree)
          · rw [hrun]
            exact hwrote

/-- Executing a cell is plain work, or it is an installation. -/
theorem execute_cases (r : Room) (cell : CellId) :
    PlainChanges r (r.execute cell).2 ∨ r.execute cell = r.install [] := by
  unfold execute
  split
  · exact Or.inl .refl
  · exact Or.inl .refl
  · exact Or.inl .refl
  · exact Or.inr rfl
  · next code hfind => exact Or.inl (executeCode_plain r hfind)

theorem create_plain (r : Room) (index : Nat) (given : Cell) :
    PlainChanges r (r.create index given).2 := by
  unfold create
  split
  · exact .refl
  · next cell haccept =>
      split
      · exact .refl
      · next session hinsert =>
          have hcreated := PlainChange.created given cell index session haccept hinsert
          cases cell <;> exact .single hcreated

theorem rename_plain (r : Room) (cell : CellId) (given : String) :
    PlainChanges r (r.rename cell given).2 := by
  unfold rename
  split
  · exact .refl
  · next hcheck =>
      split
      · exact .refl
      · next code hfind =>
          have hid : code.id = cell := Session.id_of_cell? hfind
          subst hid
          unfold renameTo
          split
          · exact .single (.restated (.code code) hfind)
          · next hne =>
              simp only
              split
              · exact .refl
              · next old session hreplace =>
                  exact .single (.renamed code given old session hcheck hfind hne hreplace)
      · exact .refl

theorem delete_plain (r : Room) (cell : CellId) : PlainChanges r (r.delete cell).2 := by
  unfold delete
  split
  · exact .refl
  · next removed session hremove =>
      have hdeleted := PlainChange.deleted cell removed session hremove
      cases removed <;> exact .single hdeleted

theorem edit_plain (r : Room) (id : CellId) (source : String) :
    PlainChanges r (r.edit id source).2 := by
  unfold edit
  split
  · exact .refl
  · next cell hfind =>
      have hedited := PlainChange.edited id cell source hfind
      cases cell <;> exact .single hedited

theorem startService_plain (r : Room) : PlainChanges r r.startService.2 := by
  have hstart := analyze_plain r Bridge.start .start
  unfold startService
  split
  · next e r₁ heq =>
      rw [heq] at hstart
      exact hstart
  · next r₁ heq =>
      rw [heq] at hstart
      exact hstart.trans (announceService_plain r₁)

/-- A bridge that was given up is gone. -/
theorem bridge_dismissBridge (r : Room) : r.dismissBridge.actor.bridge = none := by
  unfold dismissBridge
  simp only
  split
  · rfl
  · next h => exact h

theorem stopService_plain (r : Room) : PlainChanges r r.stopService.2 :=
  ((Relation.ReflTransGen.single .dismissed).tail
    (.settled (bridge_dismissBridge r))).tail (.noticed _ rfl rfl)

theorem requestDiagnostics_plain (r : Room) : PlainChanges r r.requestDiagnostics.2 := by
  have hrequest := analyze_plain r (Bridge.requestDiagnostics r.actor.session.filenames
    r.facilities.service.diagnosticsDelay.toNat) (.diagnostics _ _)
  unfold requestDiagnostics
  simp only
  split
  · next e r₁ heq =>
      rw [heq] at hrequest
      exact hrequest
  · next r₁ heq =>
      rw [heq] at hrequest
      exact hrequest

/-- Passing an answer on is a change. -/
theorem answer_changes (r : Room) (request : RequestId) (answer : Answer) :
    Changes r (r.answer request answer) :=
  .single (.noticed _ (by cases answer <;> rfl))

/-- Nobody can be asked about a place: there is no such code cell, the session is not typed,
or the service cannot be had with the files of the session. -/
def Unserved (r : Room) (query : Query) : Prop :=
  (r.actor.session.cell? query.cell).bind Cell.code? = none ∨
    r.actor.session.language.isTyped = false ∨
    ∃ e, (r.analyze (pure ())).1 = .error (.service e)

/-- With a code cell, nobody can be asked if and only if the service is not to be had. -/
theorem unserved_iff {r : Room} {query : Query} {code : CodeCell}
    (hcode : (r.actor.session.cell? query.cell).bind Cell.code? = some code) :
    r.Unserved query ↔ ∃ e, (r.analyze (pure ())).1 = .error e := by
  constructor
  · rintro (hnone | huntyped | ⟨e, he⟩)
    · rw [hcode] at hnone
      cases hnone
    · exact ⟨.untyped, by simp [analyze, huntyped]⟩
    · exact ⟨.service e, he⟩
  · rintro ⟨e, he⟩
    cases htyped : r.actor.session.language.isTyped with
    | false => exact Or.inr (Or.inl htyped)
    | true =>
        refine Or.inr (Or.inr ?_)
        have hservice : ∃ e', e = .service e' := by
          simp only [analyze, htyped, if_pos] at he
          split at he
          · exact ⟨_, (Except.error.inj he).symm⟩
          · split at he
            · exact ⟨_, (Except.error.inj he).symm⟩
            · cases he
        obtain ⟨e', rfl⟩ := hservice
        exact ⟨e', he⟩

/-- A navigation request is answered with nothing at once if nobody can be asked, and
otherwise its answer is waited for. -/
theorem navigate_cases (r : Room) (navigation : Navigation) (query : Query) :
    ∃ r₁, PlainChanges r r₁ ∧
      (r.Unserved query ∧
        r.navigate navigation query = (none, r₁.answer query.request (.nothing navigation)) ∨
      ¬r.Unserved query ∧ ∃ ticket,
        r.navigate navigation query = (none, r₁.await ⟨navigation, query.request, ticket⟩)) := by
  unfold navigate
  split
  · next hnone => exact ⟨r, .refl, Or.inl ⟨Or.inl hnone, rfl⟩⟩
  · next code hcode =>
      have hanalyze := analyze_plain r (pure ()) .nothing
      have hunserved := unserved_iff hcode
      split
      · next e r₁ heq =>
          rw [heq] at hanalyze hunserved
          exact ⟨r₁, hanalyze, Or.inl ⟨hunserved.mpr ⟨e, rfl⟩, rfl⟩⟩
      · next r₁ heq =>
          rw [heq] at hanalyze hunserved
          have hserved : ¬r.Unserved query := by
            rw [hunserved]
            rintro ⟨e, he⟩
            cases he
          exact ⟨_, hanalyze.tail (.called _ (.navigate navigation code.filename _)),
            Or.inr ⟨hserved, _, rfl⟩⟩

theorem navigate_changes (r : Room) (navigation : Navigation) (query : Query) :
    Changes r (r.navigate navigation query).2 := by
  obtain ⟨r₁, hplain, ⟨_, heq⟩ | ⟨_, ticket, heq⟩⟩ := navigate_cases r navigation query
  · rw [heq]
    exact hplain.changes.trans (answer_changes r₁ _ _)
  · rw [heq]
    exact hplain.changes.tail (.awaited _)

/-- What a client asks for is plain work, an installation or a navigation. -/
theorem perform_cases (r : Room) (intent : Intent) :
    PlainChanges r (r.perform intent).2 ∨
      (∃ packages, r.perform intent = r.install packages) ∨
      ∃ navigation query, intent = .navigate navigation query := by
  cases intent with
  | execute cell => exact (execute_cases r cell).imp id fun h => Or.inl ⟨[], h⟩
  | stop cell => exact Or.inl (stop_plain r cell)
  | create index cell => exact Or.inl (create_plain r index.toNat cell)
  | rename cell filename => exact Or.inl (rename_plain r cell filename)
  | delete cell => exact Or.inl (delete_plain r cell)
  | edit cell source => exact Or.inl (edit_plain r cell source)
  | install packages => exact Or.inr (Or.inl ⟨packages, rfl⟩)
  | startService => exact Or.inl (startService_plain r)
  | stopService => exact Or.inl (stopService_plain r)
  | requestDiagnostics => exact Or.inl (requestDiagnostics_plain r)
  | navigate navigation query => exact Or.inr (Or.inr ⟨navigation, query, rfl⟩)

/-- What a client asks for is done by changes, or is refused by changes. -/
theorem perform_changes (r : Room) (intent : Intent) : Changes r (r.perform intent).2 := by
  rcases perform_cases r intent with hplain | ⟨packages, heq⟩ | ⟨navigation, query, rfl⟩
  · exact hplain.changes
  · exact heq ▸ install_changes r packages
  · exact navigate_changes r navigation query

/-- A refusal is told after everything else. -/
theorem serve_eq (r : Room) (sender : ConnectionId) (intent : Intent) :
    r.serve sender intent = (r.perform intent).2 ∨
      ∃ refusal, r.serve sender intent =
        (r.perform intent).2.tell (.refusal sender refusal) := by
  unfold serve
  split
  · next r₁ heq =>
      rw [heq]
      exact Or.inl rfl
  · next refusal r₁ heq =>
      rw [heq]
      exact Or.inr ⟨refusal, rfl⟩

theorem serve_changes (r : Room) (sender : ConnectionId) (intent : Intent) :
    Changes r (r.serve sender intent) := by
  rcases serve_eq r sender intent with heq | ⟨refusal, heq⟩
  · exact heq ▸ perform_changes r intent
  · exact heq ▸ (perform_changes r intent).tail (.plain (.refused sender refusal))

/-! ## Exits -/

theorem refreshManifest_plain (r : Room) : PlainChanges r r.refreshManifest := by
  unfold refreshManifest
  split
  · next source named hread _ =>
      split
      · next manifest hfind =>
          have hid : manifest.id = named.id := Session.id_of_cell? hfind
          split
          · exact .refl
          · exact .single (.refreshed manifest source (hid ▸ hfind) hread)
      · next other _ hfind =>
          have hid : other.id = named.id := Session.id_of_cell? hfind
          exact .single (.restated other (hid ▸ hfind))
      · exact .refl
  · exact .refl

theorem refreshService_plain (r : Room) : PlainChanges r r.refreshService := by
  have hanalyze := analyze_plain r (reanalyze r.actor.session.filenames
    r.facilities.service.diagnosticsDelay.toNat) (.reanalyze _ _)
  unfold refreshService
  simp only
  split
  · next r₁ heq =>
      rw [heq] at hanalyze
      split
      · exact hanalyze
      · exact hanalyze.trans (announceService_plain r₁)
  · next e r₁ heq =>
      rw [heq] at hanalyze
      exact hanalyze

/-- The end of an installation is told before anything else. -/
theorem finishInstall_plain (r : Room) (packages : List String) (info : ExitInfo) :
    PlainChanges (r.broadcast (.install (if info.success then .complete else .failed) packages
      info.code)) (r.finishInstall packages info) := by
  unfold finishInstall
  simp only
  have hcounted : ∀ r₁ : Room, PlainChanges r₁ (r₁.tell
      (.telemetry (.installed packages.length info.success))) := fun r₁ => .single (.counted _)
  split
  · exact ((hcounted _).trans (refreshManifest_plain _)).trans (refreshService_plain _)
  · exact hcounted _

/-- The exit is that of the latest process of the cell, whose key is free. -/
def IsLatest (r : Room) (cell : CellId) (pid : Nat) : Prop :=
  r.actor.runs.find? cell = some pid ∧ ¬r.supervisor.isRunning (r.actor.key cell)

/-- An exit is that of an earlier process and changes nothing, or it is taken note of, and if
it is that of an installation, this is finished. -/
theorem exited_cases (r : Room) (cell : CellId) (pid : Nat) (purpose : Purpose)
    (info : ExitInfo) :
    ¬r.IsLatest cell pid ∧ r.exited cell pid purpose info = r ∨
    r.IsLatest cell pid ∧ r.exited cell pid purpose info =
      match purpose with
      | .cell => r.ended cell
      | .install packages => (r.ended cell).finishInstall packages info := by
  unfold exited
  split
  · next hlatest => exact Or.inr ⟨hlatest, rfl⟩
  · next hstale => exact Or.inl ⟨hstale, rfl⟩

/-- An exit changes nothing, or it is taken note of before anything else changes. -/
theorem exited_changes (r : Room) (cell : CellId) (pid : Nat) (purpose : Purpose)
    (info : ExitInfo) :
    ¬r.IsLatest cell pid ∧ r.exited cell pid purpose info = r ∨
    r.IsLatest cell pid ∧ Changes (r.ended cell) (r.exited cell pid purpose info) := by
  rcases exited_cases r cell pid purpose info with hstale | ⟨hlatest, heq⟩
  · exact Or.inl hstale
  · refine Or.inr ⟨hlatest, ?_⟩
    rw [heq]
    cases purpose with
    | cell => exact .refl
    | install packages =>
        exact (Relation.ReflTransGen.single (.noticed _ rfl)).trans
          (finishInstall_plain _ packages info).changes

/-! ## The end, and reports -/

theorem teardown_plain (r : Room) : PlainChanges r r.teardown := by
  unfold teardown
  simp only
  have hsignals : ∀ (pids : List Nat) (r₁ : Room), PlainChanges r r₁ →
      PlainChanges r (pids.foldl (fun r pid => r.tell (.signalled pid)) r₁) := by
    intro pids
    induction pids with
    | nil => exact fun r₁ h => h
    | cons pid rest ih => exact fun r₁ h => ih _ (h.tail (.signalled pid))
  exact hsignals _ _ (.single .dismissed)

theorem publish_plain (r : Room) (filename : String) (notice : CellId → Notice)
    (haside : ∀ cell, (notice cell).isAside = true)
    (hreply : ∀ cell, (notice cell).isReply = false) :
    PlainChanges r (r.publish filename notice) := by
  unfold publish
  split
  · next code _ => exact .single (.noticed _ (haside code.id) (hreply code.id))
  · exact .refl

theorem hearNext_plain (r : Room) : PlainChanges r r.hearNext := by
  unfold hearNext
  split
  · exact .refl
  · next b hbridge =>
      split
      · exact .refl
      · next report rest hreports =>
          have hreported := PlainChange.reported b report rest hbridge hreports
          unfold reported at hreported
          unfold hear
          simp only
          split
          · exact .single hreported
          · exact (Relation.ReflTransGen.single hreported).trans
              (publish_plain _ _ _ (fun _ => rfl) fun _ => rfl)
          · exact (Relation.ReflTransGen.single hreported).trans
              (publish_plain _ _ _ (fun _ => rfl) fun _ => rfl)
          · exact (Relation.ReflTransGen.single hreported).tail (.noticed _ rfl rfl)

theorem hearNext_changes (r : Room) : Changes r r.hearNext :=
  (hearNext_plain r).changes

/-! ## Letters -/

/-- The letter carries the exit of the latest process of a cell. -/
def CarriesExit (r : Room) (letter : Letter) (cell : CellId) (pid : Nat) : Prop :=
  (∃ purpose info, letter = .exited cell pid purpose info) ∧ r.IsLatest cell pid

/-- A letter is handled by changes, after an exit was taken note of if it carries the exit
of the latest process of a cell. -/
theorem receive_changes (r : Room) (letter : Letter) :
    (∀ cell pid, ¬r.CarriesExit letter cell pid) ∧ Changes r (r.receive letter).2 ∨
    ∃ cell pid, r.CarriesExit letter cell pid ∧ Changes (r.ended cell) (r.receive letter).2 := by
  have hother : (∀ cell pid purpose info, letter ≠ .exited cell pid purpose info) →
      ∀ cell pid, ¬r.CarriesExit letter cell pid := by
    rintro hno cell pid ⟨⟨purpose, info, heq⟩, _⟩
    exact hno cell pid purpose info heq
  cases letter with
  | intent sender intent => exact Or.inl ⟨hother nofun, serve_changes r sender intent⟩
  | exited cell pid purpose info =>
      rcases exited_changes r cell pid purpose info with ⟨hstale, heq⟩ | ⟨hlatest, hchanges⟩
      · refine Or.inl ⟨?_, ?_⟩
        · rintro _ _ ⟨⟨_, _, heq⟩, hlatest⟩
          obtain ⟨rfl, rfl, -, -⟩ := Letter.exited.inj heq
          exact hstale hlatest
        · simp only [receive]
          rw [heq]
      · exact Or.inr ⟨cell, pid, ⟨⟨purpose, info, rfl⟩, hlatest⟩, hchanges⟩
  | answered request answer => exact Or.inl ⟨hother nofun, answer_changes r request answer⟩
  | snapshot call => exact Or.inl ⟨hother nofun, .single (.plain (.shown call))⟩
  | close call =>
      exact Or.inl ⟨hother nofun, (teardown_plain r).changes.tail (.plain (.closed call))⟩

/-- What changes and exits preserve is preserved by handling a letter. -/
theorem receive_preserves {P : Room → Prop} (hchange : ∀ r r', Change r r' → P r → P r')
    (hended : ∀ r cell, P r → P (r.ended cell)) {r : Room} (hr : P r) (letter : Letter) :
    P (r.receive letter).2 := by
  rcases receive_changes r letter with ⟨_, h⟩ | ⟨cell, _, _, h⟩
  · exact h.preserves hchange hr
  · exact h.preserves hchange (hended r cell hr)

end Room
end Notebook
