import Notebook.Proofs.Actor.Refusals
import Notebook.Proofs.Actor.Mirror

/-!
# What an actor tells of its service

Of all that an actor tells, `Room.serviceNews` is what has to do with its service: whether it
runs, and what it has found.  Most of what an actor does is `Mute`: it tells nothing of this and
leaves the bridge as it is.  Where the service is needed it is only `Hushed`: nothing is told, but
the bridge may change.

`Room.Heeds` lists what a letter can come to in this view, one constructor for each.  A status
of the service is told by letters that start it, stop it or complete an installation, and by no
others; findings are told by no letter at all.

* `execute_mute`, `install_mute`, …, `create_hushed`, `rename_hushed`, …: one lemma for each
  handler.
* `refreshService_heeds`, `receive_heeds`: every letter.
* `receive_news`: a letter tells a status at most.
-/

set_option autoImplicit false

namespace Notebook

/-- An effect that tells of the service or of what it has found. -/
def Effect.isServiceNews : Effect → Bool
  | .notice (.diagnostics _ _) => true
  | .notice (.suggestions _ _) => true
  | .notice (.service _) => true
  | _ => false

/-- An intent that may need the service without being about it, and says nothing of it. -/
def Intent.isLazy : Intent → Bool
  | .create _ _ => true
  | .rename _ _ => true
  | .edit _ _ => true
  | .requestDiagnostics => true
  | .navigate _ _ => true
  | _ => false

namespace Room

/-- What has been told of the service. -/
def serviceNews (r : Room) : List Effect :=
  r.effects.filter Effect.isServiceNews

/-- Nothing is told of the service, and no bridge is given up. -/
structure Hushed (r r' : Room) : Prop where
  news : r'.serviceNews = r.serviceNews
  former : r'.actor.former = r.actor.former
  kept : r.actor.bridge.isSome = true → r'.actor.bridge.isSome = true

/-- Nothing is told of the service, and the bridge stays as it is. -/
structure Mute (r r' : Room) : Prop where
  news : r'.serviceNews = r.serviceNews
  former : r'.actor.former = r.actor.former
  bridge : r'.actor.bridge = r.actor.bridge

/-- A call that brings the service back if it does not run. -/
inductive Revives : Call Unit → Prop where
  | start : Revives Bridge.start
  | reanalyze (filenames : List String) (delay : Nat) : Revives (reanalyze filenames delay)

variable {r r' r₁ : Room}

/-! ## Operations -/

theorem serviceNews_tell (r : Room) {e : Effect} (he : e.isServiceNews = false) :
    (r.tell e).serviceNews = r.serviceNews := by
  simp [serviceNews, tell, he]

theorem serviceNews_tell_news (r : Room) {e : Effect} (he : e.isServiceNews = true) :
    (r.tell e).serviceNews = r.serviceNews ++ [e] := by
  simp [serviceNews, tell, he]

/-- Whoever is not seen tells nothing. -/
theorem Unseen.news (h : Unseen r r') : r'.serviceNews = r.serviceNews := by
  obtain ⟨tried, htried⟩ := h.tried
  rw [serviceNews, htried, List.filter_append, List.filter_map]
  simp [serviceNews, Function.comp_def, Effect.isServiceNews]

namespace Mute

theorem refl (r : Room) : Mute r r :=
  ⟨rfl, rfl, rfl⟩

theorem trans (h : Mute r r₁) (h' : Mute r₁ r') : Mute r r' :=
  ⟨h'.news.trans h.news, h'.former.trans h.former, h'.bridge.trans h.bridge⟩

theorem hushed (h : Mute r r') : Hushed r r' :=
  ⟨h.news, h.former, fun hsome => h.bridge ▸ hsome⟩

theorem tell (r : Room) {e : Effect} (he : e.isServiceNews = false) : Mute r (r.tell e) :=
  ⟨serviceNews_tell r he, rfl, rfl⟩

theorem onDisk (r : Room) (deeds : List FileDeed) : Mute r (r.onDisk deeds).2 :=
  ⟨(Unseen.onDisk r deeds).news, rfl, rfl⟩

theorem stop (r : Room) (cell : CellId) : Mute r (r.stop cell) := by
  unfold Room.stop
  split
  · exact tell r rfl
  · exact refl r

theorem setStatus (r : Room) (cell : CellId) (status : CellStatus) :
    Mute r (r.setStatus cell status) := by
  rcases setStatus_cases r cell status with ⟨_, heq⟩ | ⟨_, heq⟩
  · have hsession : Mute r (r.withSession (r.actor.session.update cell (·.withStatus status))) :=
      ⟨rfl, rfl, rfl⟩
    rw [heq]
    exact hsession.trans (tell _ rfl)
  · rw [heq]
    exact refl r

theorem ended (r : Room) (cell : CellId) : Mute r (r.ended cell) := by
  have hruns : Mute r { r with actor.runs := r.actor.runs.erase cell } := ⟨rfl, rfl, rfl⟩
  exact hruns.trans (setStatus _ _ _)

theorem spawn (r : Room) (cell : CellId) (program : String) (args : List String)
    (purpose : Purpose) : Mute r (r.spawn cell program args purpose).2 := by
  rcases spawn_cases r cell program args purpose with ⟨pid, _, _, heq⟩ | ⟨failure, _, heq⟩ |
    ⟨_, heq⟩
  · rw [heq]
    let started : Room := { r with
      supervisor := r.supervisor.started (r.runRequest cell program args).key pid
      actor.runs := r.actor.runs.set cell pid }
    have hstarted : Mute r started := ⟨rfl, rfl, rfl⟩
    exact (hstarted.trans (tell _ rfl)).trans (setStatus _ _ _)
  · rw [heq]
    exact (setStatus r cell .idle).trans (tell _ rfl)
  · rw [heq]
    exact refl r

theorem refreshManifest (r : Room) : Mute r r.refreshManifest := by
  unfold Room.refreshManifest
  split
  · split
    · split
      · exact refl r
      · have hsession : ∀ session, Mute r (r.withSession session) := fun _ => ⟨rfl, rfl, rfl⟩
        exact (hsession _).trans (tell _ rfl)
    · exact tell r rfl
    · exact refl r
  · exact refl r

end Mute

namespace Hushed

theorem refl (r : Room) : Hushed r r :=
  ⟨rfl, rfl, fun h => h⟩

theorem trans (h : Hushed r r₁) (h' : Hushed r₁ r') : Hushed r r' :=
  ⟨h'.news.trans h.news, h'.former.trans h.former, fun hsome => h'.kept (h.kept hsome)⟩

theorem call {α : Type} (r : Room) (c : Call α) : Hushed r (r.call c).2 := by
  refine ⟨(call_unseen r c).news, ?_, ?_⟩
  · unfold Room.call
    split <;> rfl
  · unfold Room.call
    split
    · exact fun hsome => hsome
    · exact fun _ => rfl

theorem inform (r : Room) (c : Call Unit) : Hushed r (r.inform c) := by
  have hcall := call r c
  unfold Room.inform
  split
  · exact refl r
  · split
    · next r₁ heq =>
        rw [heq] at hcall
        exact hcall
    · next e r₁ heq =>
        rw [heq] at hcall
        exact ⟨hcall.news, hcall.former, hcall.kept⟩

theorem follow (r : Room) (cell : Cell) (c : CodeCell → Call Unit) :
    Hushed r (r.follow cell c) := by
  cases cell with
  | code code => exact inform r (c code)
  | _ => exact refl r

theorem ensureBridge (r : Room) : Hushed r r.ensureBridge := by
  refine ⟨(ensureBridge_unseen r).news, ?_, ?_⟩
  · unfold Room.ensureBridge
    split <;> rfl
  · unfold Room.ensureBridge
    split
    · exact fun hsome => hsome
    · exact fun _ => rfl

theorem freshen (r : Room) : Hushed r r.freshen.2 := by
  have hcall := call r (Bridge.adopt r.actor.session.sources)
  unfold Room.freshen
  split
  · split
    · next r₁ heq =>
        rw [heq] at hcall
        exact ⟨hcall.news, hcall.former, hcall.kept⟩
    · next e r₁ heq =>
        rw [heq] at hcall
        exact hcall
  · exact refl r

theorem analyze {α : Type} (r : Room) (c : Call α) : Hushed r (r.analyze c).2 := by
  unfold Room.analyze
  split
  · have hready := (ensureBridge r).trans (freshen r.ensureBridge)
    split
    · next e r₁ heq =>
        rw [heq] at hready
        exact hready
    · next r₁ heq =>
        rw [heq] at hready
        have hcalled := hready.trans (call r₁ c)
        split
        · next e r₂ hrun =>
            rw [hrun] at hcalled
            exact hcalled
        · next a r₂ hrun =>
            rw [hrun] at hcalled
            exact hcalled
  · exact refl r

end Hushed

theorem dismissBridge_news (r : Room) : r.dismissBridge.serviceNews = r.serviceNews := by
  have hcall := (call_unseen r Bridge.shutdown).news
  unfold dismissBridge
  simp only
  split
  · exact hcall
  · exact hcall

/-! ## Intents -/

theorem install_mute (r : Room) (packages : List String) : Mute r (r.install packages).2 := by
  unfold install
  split
  · exact .refl r
  · next manifest _ =>
      split
      · exact .refl r
      · next program args _ =>
          have hwrote := Mute.onDisk r (r.actor.session.writing (.manifest manifest))
          split
          · next problem r₁ heq =>
              rw [heq] at hwrote
              exact hwrote
          · next r₁ heq =>
              rw [heq] at hwrote
              have hspawned := hwrote.trans (Mute.spawn r₁ manifest.id program (args ++ packages)
                (.install packages))
              split
              · next r₂ hrun =>
                  rw [hrun] at hspawned
                  exact hspawned.trans (Mute.tell r₂ rfl)
              · next failure r₂ hrun =>
                  rw [hrun] at hspawned
                  exact hspawned.trans (Mute.tell r₂ rfl)
              · next key r₂ hrun =>
                  rw [hrun] at hspawned
                  exact hspawned

theorem executeCode_mute (r : Room) (cell : CellId) (code : CodeCell) :
    Mute r (r.executeCode cell code).2 := by
  unfold executeCode
  split
  · exact .refl r
  · next program args _ =>
      have hwrote := Mute.onDisk r (r.actor.session.writing (.code code))
      split
      · next problem r₁ heq =>
          rw [heq] at hwrote
          exact hwrote
      · next r₁ heq =>
          rw [heq] at hwrote
          simp only
          have hspawned := hwrote.trans (Mute.spawn r₁ cell program
            (args ++ [r₁.actor.session.pathFor code.filename]) .cell)
          split
          · next r₂ hrun =>
              rw [hrun] at hspawned
              exact hspawned.trans (Mute.tell r₂ rfl)
          · next failure r₂ hrun =>
              rw [hrun] at hspawned
              exact hspawned

theorem execute_mute (r : Room) (cell : CellId) : Mute r (r.execute cell).2 := by
  unfold execute
  split
  · exact .refl r
  · exact .refl r
  · exact .refl r
  · exact install_mute r []
  · next code _ => exact executeCode_mute r cell code

theorem create_hushed (r : Room) (index : Nat) (given : Cell) :
    Hushed r (r.create index given).2 := by
  unfold create
  split
  · exact .refl r
  · next cell _ =>
      split
      · exact .refl r
      · next session _ =>
          have hsession : Mute r (r.withSession session) := ⟨rfl, rfl, rfl⟩
          have hwrote := (hsession.trans (Mute.onDisk _ (session.writing cell))).hushed
          have hopened := hwrote.trans (Hushed.follow _ cell
            fun c => Bridge.openFile c.filename c.source)
          have htold := hopened.trans (Mute.tell _ (e := .notice (.updated cell)) rfl).hushed
          cases cell <;> exact htold

theorem rename_hushed (r : Room) (cell : CellId) (filename : String) :
    Hushed r (r.rename cell filename).2 := by
  unfold rename
  split
  · exact .refl r
  · split
    · exact .refl r
    · next code _ =>
        unfold renameTo
        split
        · exact (Mute.tell r rfl).hushed
        · simp only
          split
          · exact .refl r
          · next old session _ =>
              have hsession : Mute r (r.withSession session) := ⟨rfl, rfl, rfl⟩
              refine Hushed.trans ?_ (Mute.tell _ rfl).hushed
              refine Hushed.trans ?_ (Hushed.inform _ _)
              exact ((hsession.trans (Mute.onDisk _ _)).trans (Mute.onDisk _ _)).hushed
    · exact .refl r

theorem edit_hushed (r : Room) (id : CellId) (source : String) :
    Hushed r (r.edit id source).2 := by
  unfold edit
  split
  · exact .refl r
  · next cell _ =>
      let session := r.actor.session.update id (·.withSource source)
      let cell' := cell.withSource source
      have hsession : Mute r (r.withSession session) := ⟨rfl, rfl, rfl⟩
      have hwrote := (hsession.trans (Mute.onDisk _ (session.writing cell'))).hushed
      have hsynced := hwrote.trans (Hushed.follow _ cell'
        fun c => Bridge.resync c.filename c.source session.filenames)
      have htold := hsynced.trans (Mute.tell _ (e := .notice (.updated cell')) rfl).hushed
      cases cell <;> exact htold

theorem requestDiagnostics_hushed (r : Room) : Hushed r r.requestDiagnostics.2 := by
  have hanalyze := Hushed.analyze r (Bridge.requestDiagnostics r.actor.session.filenames
    r.facilities.service.diagnosticsDelay.toNat)
  unfold requestDiagnostics
  simp only
  split
  · next e r₁ heq =>
      rw [heq] at hanalyze
      exact hanalyze
  · next r₁ heq =>
      rw [heq] at hanalyze
      exact hanalyze

theorem answer_mute (r : Room) (request : RequestId) (answer : Answer) :
    Mute r (r.answer request answer) := by
  unfold Room.answer
  exact Mute.tell r (by cases answer <;> rfl)

theorem navigate_hushed (r : Room) (navigation : Navigation) (query : Query) :
    Hushed r (r.navigate navigation query).2 := by
  unfold navigate
  split
  · exact (answer_mute r _ _).hushed
  · next code _ =>
      have hanalyze := Hushed.analyze r (pure ())
      split
      · next e r₁ heq =>
          rw [heq] at hanalyze
          exact hanalyze.trans (answer_mute r₁ _ _).hushed
      · next r₁ heq =>
          rw [heq] at hanalyze
          have hcalled := hanalyze.trans (Hushed.call r₁ (Bridge.navigate navigation
            code.filename query.offset.toNat))
          exact ⟨hcalled.news, hcalled.former, hcalled.kept⟩

/-! ## Letters -/

/-- What a letter comes to for the service and for what is told of it. -/
inductive Heeds (r : Room) : Letter → Room → Prop where
  | mute {letter : Letter} {r' : Room} (h : Mute r r') : Heeds r letter r'
  | needed {sender : ConnectionId} {intent : Intent} {r' : Room} (hlazy : intent.isLazy = true)
    (h : Hushed r r') : Heeds r (.intent sender intent) r'
  | forgot {letter : Letter} {r₀ r' : Room} (filename : String) (h : Mute r r₀)
    (h' : Mute (r₀.inform (Bridge.closeFile filename)) r') : Heeds r letter r'
  /-- The service was brought back, or it has been running, and this is told. -/
  | brought {letter : Letter} {r₀ r₁ r' : Room} {c : Call Unit} (hc : Revives c)
    (h : Mute r r₀) (hrun : r₀.analyze c = (.ok (), r₁))
    (hbridge : r'.actor.bridge = r₁.actor.bridge)
    (hnews : r'.serviceNews = r.serviceNews ++ [.notice (.service .running)]) :
    Heeds r letter r'
  /-- The service has been running, and nothing is told. -/
  | kept {letter : Letter} {r₀ r₁ r' : Room} {c : Call Unit} (hc : Revives c)
    (hran : r.actor.bridge.any (·.isRunning) = true) (h : Mute r r₀)
    (hrun : r₀.analyze c = (.ok (), r₁)) (h' : Mute r₁ r') : Heeds r letter r'
  | failed {letter : Letter} {r₀ r₁ r' : Room} {c : Call Unit} {e : Refusal} (hc : Revives c)
    (h : Mute r r₀) (hrun : r₀.analyze c = (.error e, r₁)) (h' : Mute r₁ r') :
    Heeds r letter r'
  | stopped {letter : Letter} {r' : Room} (hbridge : r'.actor.bridge = none)
    (hformer : r'.actor.former = r.dismissBridge.actor.former)
    (hnews : r'.serviceNews = r.serviceNews ++ [.notice (.service .stopped)]) :
    Heeds r letter r'
  | closed (call : Nat) {r' : Room} (hbridge : r'.actor.bridge = none)
    (hformer : r'.actor.former = r.dismissBridge.actor.former)
    (hnews : r'.serviceNews = r.serviceNews) : Heeds r (.close call) r'

theorem announceService_news (r : Room) :
    r.announceService.serviceNews = r.serviceNews ++ [.notice (.service .running)] :=
  (serviceNews_tell _ rfl).trans (serviceNews_tell_news r rfl)

/-- What is told after a heeded letter may be followed by what is mute. -/
theorem Heeds.then {letter : Letter} (h : Heeds r letter r₁) (h' : Mute r₁ r') :
    Heeds r letter r' := by
  cases h with
  | mute h => exact .mute (h.trans h')
  | needed hlazy h => exact .needed hlazy (h.trans h'.hushed)
  | forgot filename h hclosed => exact .forgot filename h (hclosed.trans h')
  | brought hc h hrun hbridge hnews =>
      exact .brought hc h hrun (h'.bridge.trans hbridge) (h'.news.trans hnews)
  | kept hc hran h hrun hlast => exact .kept hc hran h hrun (hlast.trans h')
  | failed hc h hrun hlast => exact .failed hc h hrun (hlast.trans h')
  | stopped hbridge hformer hnews =>
      exact .stopped (h'.bridge.trans hbridge) (h'.former.trans hformer) (h'.news.trans hnews)
  | closed call hbridge hformer hnews =>
      exact .closed call (h'.bridge.trans hbridge) (h'.former.trans hformer) (h'.news.trans hnews)

theorem startService_heeds (r : Room) (letter : Letter) :
    Heeds r letter r.startService.2 := by
  have hunseen := analyze_unseen r Bridge.start
  unfold startService
  split
  · next e r₁ heq => exact .failed .start (.refl r) heq (.refl r₁)
  · next r₁ heq =>
      rw [heq] at hunseen
      refine .brought .start (.refl r) heq rfl ?_
      change r₁.announceService.serviceNews = _
      rw [announceService_news, hunseen.news]

theorem stopService_heeds (r : Room) (letter : Letter) :
    Heeds r letter r.stopService.2 := by
  refine .stopped (bridge_dismissBridge r) rfl ?_
  change (({ r.dismissBridge with actor.stale := false } : Room).broadcast _).serviceNews = _
  rw [broadcast, serviceNews_tell_news _ rfl]
  exact congrArg (· ++ _) (dismissBridge_news r)

theorem delete_heeds (r : Room) (cell : CellId) (letter : Letter) :
    Heeds r letter (r.delete cell).2 := by
  unfold delete
  split
  · exact .mute (.refl r)
  · next removed session _ =>
      have hsession : Mute r (r.withSession session) := ⟨rfl, rfl, rfl⟩
      have hstopped := hsession.trans (Mute.stop _ cell)
      cases removed with
      | code c =>
          exact .forgot c.filename hstopped ((Mute.onDisk _ _).trans (Mute.tell _ rfl))
      | _ => exact .mute (hstopped.trans (Mute.tell _ rfl))

/-- After an installation the service is brought back, unless it runs. -/
theorem refreshService_heeds {r₀ : Room} (h : Mute r r₀) (letter : Letter) :
    Heeds r letter r₀.refreshService := by
  have hunseen := analyze_unseen r₀ (reanalyze r₀.actor.session.filenames
    r₀.facilities.service.diagnosticsDelay.toNat)
  unfold refreshService
  simp only
  split
  · next r₁ heq =>
      rw [heq] at hunseen
      split
      · next hran => exact .kept (.reanalyze _ _) (h.bridge ▸ hran) h heq (.refl r₁)
      · refine .brought (.reanalyze _ _) h heq rfl ?_
        rw [announceService_news, hunseen.news, h.news]
  · next e r₁ heq => exact .failed (.reanalyze _ _) h heq (.refl r₁)

theorem exited_heeds (r : Room) (cell : CellId) (pid : Nat) (purpose : Purpose)
    (info : ExitInfo) (letter : Letter) :
    Heeds r letter (r.exited cell pid purpose info) := by
  rcases exited_cases r cell pid purpose info with ⟨_, heq⟩ | ⟨_, heq⟩
  · rw [heq]
    exact .mute (.refl r)
  · rw [heq]
    cases purpose with
    | cell => exact .mute (.ended r cell)
    | install packages =>
        unfold finishInstall
        simp only
        have htold : ∀ status, Mute r ((((r.ended cell).broadcast
            (.install status packages info.code))).tell
              (.telemetry (.installed packages.length info.success))) := fun status =>
          ((Mute.ended r cell).trans (Mute.tell _ rfl)).trans (Mute.tell _ rfl)
        split
        · exact refreshService_heeds ((htold _).trans (Mute.refreshManifest _)) letter
        · exact .mute (htold _)

theorem teardown_mute (r : Room) : Mute r.dismissBridge r.teardown := by
  have hsignals : ∀ (pids : List Nat) (r₁ : Room),
      Mute r₁ (pids.foldl (fun r pid => r.tell (.signalled pid)) r₁) := by
    intro pids
    induction pids with
    | nil => exact fun r₁ => .refl r₁
    | cons pid rest ih => exact fun r₁ => (Mute.tell r₁ rfl).trans (ih _)
  exact hsignals _ _

theorem perform_heeds (r : Room) (sender : ConnectionId) (intent : Intent) :
    Heeds r (.intent sender intent) (r.perform intent).2 := by
  cases intent with
  | execute cell => exact .mute (execute_mute r cell)
  | stop cell => exact .mute (.stop r cell)
  | create index cell => exact .needed rfl (create_hushed r index.toNat cell)
  | rename cell filename => exact .needed rfl (rename_hushed r cell filename)
  | delete cell => exact delete_heeds r cell _
  | edit cell source => exact .needed rfl (edit_hushed r cell source)
  | install packages => exact .mute (install_mute r packages)
  | startService => exact startService_heeds r _
  | stopService => exact stopService_heeds r _
  | requestDiagnostics => exact .needed rfl (requestDiagnostics_hushed r)
  | navigate navigation query => exact .needed rfl (navigate_hushed r navigation query)

/-- What every letter comes to. -/
theorem receive_heeds (r : Room) (letter : Letter) :
    Heeds r letter (r.receive letter).2 := by
  cases letter with
  | intent sender intent =>
      have hperform := perform_heeds r sender intent
      change Heeds r _ (r.serve sender intent)
      rcases serve_eq r sender intent with heq | ⟨refusal, heq⟩
      · exact heq ▸ hperform
      · exact heq ▸ hperform.then (Mute.tell _ rfl)
  | exited cell pid purpose info => exact exited_heeds r cell pid purpose info _
  | answered request answer => exact .mute (answer_mute r request answer)
  | snapshot call => exact .mute (.tell r rfl)
  | close call =>
      have hlast := (teardown_mute r).trans (.tell _ (e := .closed call) rfl)
      exact .closed call (hlast.bridge.trans (bridge_dismissBridge r)) hlast.former
        (hlast.news.trans (dismissBridge_news r))

/-- A letter tells a status of the service at most. -/
theorem receive_news (r : Room) (letter : Letter) :
    (r.receive letter).2.serviceNews = r.serviceNews ∨
      ∃ status, (r.receive letter).2.serviceNews =
        r.serviceNews ++ [.notice (.service status)] := by
  cases receive_heeds r letter with
  | mute h => exact Or.inl h.news
  | needed _ h => exact Or.inl h.news
  | forgot filename h h' =>
      exact Or.inl (h'.news.trans ((Hushed.inform _ _).news.trans h.news))
  | brought _ _ _ _ hnews => exact Or.inr ⟨.running, hnews⟩
  | @kept _ r₀ r₁ _ c _ _ h hrun h' =>
      have hunseen := (analyze_unseen r₀ c).news
      rw [hrun] at hunseen
      exact Or.inl (h'.news.trans (hunseen.trans h.news))
  | @failed _ r₀ r₁ _ c e _ h hrun h' =>
      have hunseen := (analyze_unseen r₀ c).news
      rw [hrun] at hunseen
      exact Or.inl (h'.news.trans (hunseen.trans h.news))
  | stopped _ _ hnews => exact Or.inr ⟨.stopped, hnews⟩
  | closed _ _ _ hnews => exact Or.inl hnews

end Room
end Notebook
