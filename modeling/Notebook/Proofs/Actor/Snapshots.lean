import Notebook.Proofs.Actor.Refusals

/-!
# Snapshots

A call that asks for the cells of a session is ended by the effect that shows them.  An actor
shows them to nobody but a call that has asked: `Room.snapshots` lists the calls that have been
shown the cells, and of all letters only the one that asks adds to it.

* `snapshots_perform`, `snapshots_exited`, `snapshots_hearNext`: nothing else adds a call.
* `snapshots_receive`: what a letter adds is what it asks for.
-/

set_option autoImplicit false

namespace Notebook

/-- The calls that an effect shows the cells to. -/
def Effect.snapshots : Effect → List Nat
  | .snapshot call _ => [call]
  | _ => []

/-- The calls that a letter asks for. -/
def Letter.snapshots : Letter → List Nat
  | .snapshot call => [call]
  | _ => []

theorem Letter.mem_snapshots {letter : Letter} {call : Nat} (h : call ∈ letter.snapshots) :
    letter = .snapshot call := by
  cases letter with
  | snapshot call' => rw [List.mem_singleton.mp h]
  | _ => cases h

namespace Room

/-- The calls that the cells have been shown to. -/
def snapshots (r : Room) : List Nat :=
  r.effects.flatMap Effect.snapshots

variable {r r' : Room}

/-! ## Operations -/

@[simp]
theorem snapshots_tell (r : Room) (e : Effect) :
    (r.tell e).snapshots = r.snapshots ++ e.snapshots := by
  simp [snapshots, tell]

@[simp]
theorem snapshots_broadcast (r : Room) (notice : Notice) :
    (r.broadcast notice).snapshots = r.snapshots :=
  (snapshots_tell r _).trans (List.append_nil _)

@[simp]
theorem snapshots_withSession (r : Room) (session : Session) :
    (r.withSession session).snapshots = r.snapshots := rfl

/-- Files that were tried show no cells. -/
theorem Unseen.snapshots (h : Unseen r r') : r'.snapshots = r.snapshots := by
  obtain ⟨tried, htried⟩ := h.tried
  simp [Room.snapshots, htried, List.flatMap_map, Effect.snapshots]

@[simp]
theorem snapshots_persist (r : Room) (deeds : List FileDeed) :
    (r.persist deeds).snapshots = r.snapshots :=
  (Unseen.onDisk r deeds).snapshots

@[simp]
theorem snapshots_stop (r : Room) (cell : CellId) : (r.stop cell).snapshots = r.snapshots := by
  unfold stop
  split <;> simp [Effect.snapshots]

@[simp]
theorem snapshots_setStatus (r : Room) (cell : CellId) (status : CellStatus) :
    (r.setStatus cell status).snapshots = r.snapshots := by
  unfold setStatus
  split <;> simp

@[simp]
theorem snapshots_inform (r : Room) (c : Call Unit) : (r.inform c).snapshots = r.snapshots := by
  have hcall := (call_unseen r c).snapshots
  unfold inform
  split
  · rfl
  · split
    · next r₁ heq => rwa [heq] at hcall
    · next e r₁ heq => rwa [heq] at hcall

@[simp]
theorem snapshots_dismissBridge (r : Room) : r.dismissBridge.snapshots = r.snapshots := by
  have hcall := (call_unseen r Bridge.shutdown).snapshots
  unfold dismissBridge
  simp only
  split
  · exact hcall
  · exact hcall

@[simp]
theorem snapshots_answer (r : Room) (request : RequestId) (answer : Answer) :
    (r.answer request answer).snapshots = r.snapshots :=
  snapshots_broadcast r _

theorem snapshots_announceService (r : Room) : r.announceService.snapshots = r.snapshots := by
  simp [announceService, Effect.snapshots]

theorem snapshots_spawn (r : Room) (cell : CellId) (program : String) (args : List String)
    (purpose : Purpose) : (r.spawn cell program args purpose).2.snapshots = r.snapshots := by
  rcases spawn_cases r cell program args purpose with ⟨pid, _, _, heq⟩ | ⟨failure, _, heq⟩ |
    ⟨_, heq⟩
  · rw [heq]
    exact (snapshots_setStatus _ _ _).trans ((snapshots_tell _ _).trans (List.append_nil _))
  · rw [heq]
    exact (snapshots_broadcast _ _).trans (snapshots_setStatus _ _ _)
  · rw [heq]

theorem snapshots_ended (r : Room) (cell : CellId) : (r.ended cell).snapshots = r.snapshots :=
  snapshots_setStatus _ cell .idle

/-! ## Intents -/

theorem snapshots_install (r : Room) (packages : List String) :
    (r.install packages).2.snapshots = r.snapshots := by
  unfold install
  split
  · rfl
  · next manifest _ =>
      split
      · rfl
      · next program args _ =>
          have hwrote := (Unseen.onDisk r (r.actor.session.writing (.manifest manifest))).snapshots
          split
          · next problem r₁ heq => rwa [heq] at hwrote
          · next r₁ heq =>
              rw [heq] at hwrote
              have hran := snapshots_spawn r₁ manifest.id program (args ++ packages)
                (.install packages)
              split <;> simp_all [done]

theorem snapshots_executeCode (r : Room) (cell : CellId) (code : CodeCell) :
    (r.executeCode cell code).2.snapshots = r.snapshots := by
  unfold executeCode
  split
  · rfl
  · next program args _ =>
      have hwrote := (Unseen.onDisk r (r.actor.session.writing (.code code))).snapshots
      split
      · next problem r₁ heq => rwa [heq] at hwrote
      · next r₁ heq =>
          rw [heq] at hwrote
          have hran := snapshots_spawn r₁ cell program
            (args ++ [r₁.actor.session.pathFor code.filename]) .cell
          simp only
          split <;> simp_all [done, Effect.snapshots]

theorem snapshots_execute (r : Room) (cell : CellId) :
    (r.execute cell).2.snapshots = r.snapshots := by
  unfold execute
  split
  · rfl
  · rfl
  · rfl
  · exact snapshots_install r []
  · exact snapshots_executeCode r _ _

theorem snapshots_create (r : Room) (index : Nat) (given : Cell) :
    (r.create index given).2.snapshots = r.snapshots := by
  unfold create
  split
  · rfl
  · next cell _ =>
      split
      · rfl
      · cases cell <;> simp [done]

theorem snapshots_rename (r : Room) (cell : CellId) (filename : String) :
    (r.rename cell filename).2.snapshots = r.snapshots := by
  unfold rename
  split
  · rfl
  · split
    · rfl
    · unfold renameTo
      split
      · simp [done]
      · simp only
        split
        · rfl
        · simp [done]
    · rfl

theorem snapshots_delete (r : Room) (cell : CellId) :
    (r.delete cell).2.snapshots = r.snapshots := by
  unfold delete
  split
  · rfl
  · next removed session _ => cases removed <;> simp [done]

theorem snapshots_edit (r : Room) (id : CellId) (source : String) :
    (r.edit id source).2.snapshots = r.snapshots := by
  unfold edit
  split
  · rfl
  · next cell _ => cases cell <;> simp [done, Cell.withSource]

theorem snapshots_startService (r : Room) : r.startService.2.snapshots = r.snapshots := by
  have hcalled := (analyze_unseen r Bridge.start).snapshots
  unfold startService
  split
  · next e r₁ heq => rwa [heq] at hcalled
  · next r₁ heq =>
      rw [heq] at hcalled
      exact (snapshots_announceService r₁).trans hcalled

theorem snapshots_stopService (r : Room) : r.stopService.2.snapshots = r.snapshots :=
  (snapshots_broadcast _ _).trans (snapshots_dismissBridge r)

theorem snapshots_navigate (r : Room) (navigation : Navigation) (query : Query) :
    (r.navigate navigation query).2.snapshots = r.snapshots := by
  unfold navigate
  split
  · exact snapshots_answer r _ _
  · next code _ =>
      have hready := (analyze_unseen r (pure ())).snapshots
      split
      · next e r₁ heq =>
          rw [heq] at hready
          exact (snapshots_answer r₁ _ _).trans hready
      · next r₁ heq =>
          rw [heq] at hready
          exact (call_unseen r₁ _).snapshots.trans hready

theorem snapshots_perform (r : Room) (intent : Intent) :
    (r.perform intent).2.snapshots = r.snapshots := by
  cases intent with
  | execute cell => exact snapshots_execute r cell
  | stop cell => exact snapshots_stop r cell
  | create index cell => exact snapshots_create r index.toNat cell
  | rename cell filename => exact snapshots_rename r cell filename
  | delete cell => exact snapshots_delete r cell
  | edit cell source => exact snapshots_edit r cell source
  | install packages => exact snapshots_install r packages
  | startService => exact snapshots_startService r
  | stopService => exact snapshots_stopService r
  | requestDiagnostics => exact (requestDiagnostics_unseen r).snapshots
  | navigate navigation query => exact snapshots_navigate r navigation query

theorem snapshots_serve (r : Room) (sender : ConnectionId) (intent : Intent) :
    (r.serve sender intent).snapshots = r.snapshots := by
  rcases serve_eq r sender intent with heq | ⟨refusal, heq⟩
  · rw [heq, snapshots_perform]
  · rw [heq, snapshots_tell, snapshots_perform]
    exact List.append_nil _

/-! ## Exits -/

theorem snapshots_refreshManifest (r : Room) : r.refreshManifest.snapshots = r.snapshots := by
  unfold refreshManifest
  split
  · split
    · split <;> simp
    · simp
    · rfl
  · rfl

theorem snapshots_refreshService (r : Room) : r.refreshService.snapshots = r.snapshots := by
  have hcalled := (analyze_unseen r (reanalyze r.actor.session.filenames
    r.facilities.service.diagnosticsDelay.toNat)).snapshots
  unfold refreshService
  simp only
  split
  · next r₁ heq =>
      rw [heq] at hcalled
      split
      · exact hcalled
      · exact (snapshots_announceService r₁).trans hcalled
  · next e r₁ heq => rwa [heq] at hcalled

theorem snapshots_finishInstall (r : Room) (packages : List String) (info : ExitInfo) :
    (r.finishInstall packages info).snapshots = r.snapshots := by
  unfold finishInstall
  simp only
  split
  · rw [snapshots_refreshService, snapshots_refreshManifest]
    simp [Effect.snapshots]
  · simp [Effect.snapshots]

theorem snapshots_exited (r : Room) (cell : CellId) (pid : Nat) (purpose : Purpose)
    (info : ExitInfo) : (r.exited cell pid purpose info).snapshots = r.snapshots := by
  rcases exited_cases r cell pid purpose info with ⟨_, heq⟩ | ⟨_, heq⟩
  · rw [heq]
  · rw [heq]
    cases purpose with
    | cell => exact snapshots_ended r cell
    | install packages =>
        exact (snapshots_finishInstall _ packages info).trans (snapshots_ended r cell)

/-! ## The end, and reports -/

theorem snapshots_teardown (r : Room) : r.teardown.snapshots = r.snapshots := by
  have hsignals : ∀ (pids : List Nat) (r₁ : Room),
      (pids.foldl (fun r pid => r.tell (.signalled pid)) r₁).snapshots = r₁.snapshots := by
    intro pids
    induction pids with
    | nil => exact fun _ => rfl
    | cons pid rest ih => exact fun r₁ => (ih _).trans (by simp [Effect.snapshots])
  exact (hsignals _ _).trans (snapshots_dismissBridge r)

theorem snapshots_publish (r : Room) (filename : String) (notice : CellId → Notice) :
    (r.publish filename notice).snapshots = r.snapshots := by
  unfold publish
  split
  · exact snapshots_broadcast r _
  · rfl

theorem snapshots_hearNext (r : Room) : r.hearNext.snapshots = r.snapshots := by
  unfold hearNext
  split
  · rfl
  · split
    · rfl
    · unfold hear
      simp only
      split
      · rfl
      · exact snapshots_publish _ _ _
      · exact snapshots_publish _ _ _
      · exact snapshots_broadcast _ _

/-! ## Letters -/

/-- A letter shows the cells to the call that asks in it, and to no other. -/
theorem snapshots_receive (r : Room) (letter : Letter) :
    (r.receive letter).2.snapshots = r.snapshots ++ letter.snapshots := by
  cases letter with
  | intent sender intent =>
      exact (snapshots_serve r sender intent).trans (List.append_nil _).symm
  | exited cell pid purpose info =>
      exact (snapshots_exited r cell pid purpose info).trans (List.append_nil _).symm
  | answered request answer =>
      exact (snapshots_answer r request answer).trans (List.append_nil _).symm
  | snapshot call => exact snapshots_tell r _
  | close call => exact (snapshots_tell _ _).trans (congrArg (· ++ []) (snapshots_teardown r))

end Room
end Notebook
