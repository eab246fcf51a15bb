import Notebook.Proofs.Actor.Publishing
import Notebook.Proofs.Actor.Replies
import Notebook.Proofs.Service.Generations

/-!
# The status of the service

Clients know of the service what they were told last: `Site.lastStatus`.  They are told when the
service is started or stopped on request, when an installation has brought it back, and when its
end is heard.

An intent that needs the service on its way launches it without a word, and the end of an
instance that was given up in the meantime is not told.  As long as neither happens, a run is
`Steady`, and what was told last is so.

* `Room.analyze_revives`: what comes of bringing the service back.
* `Site.Course`, `Site.step_course`: what an event does to the service and to its status.
* `Site.Current`, `Site.Past`: the status told last is the real one, up to an end that is still to
  be heard, and an instance whose end has been heard is not said to run any more.
* `Site.run_current`: both are kept by a steady run.
* `Site.told_status_real`: the status in steady runs; `Site.told_status_wrong`: two other runs.
-/

set_option autoImplicit false

namespace Notebook

/-- The status of the service that an effect tells. -/
def Effect.serviceStatus? : Effect → Option ServiceStatus
  | .notice (.service status) => some status
  | _ => none

/-- Whether a letter carries an intent that may need the service and says nothing of it. -/
def Letter.isLazy : Letter → Bool
  | .intent _ asked => asked.isLazy
  | _ => false

/-- The instance whose end is reported. -/
def Report.ended? (report : Report) : Option Nat :=
  match report.kind with
  | .stopped _ => some report.generation
  | .event _ _ => none

theorem Report.ended?_eq_some_iff {report : Report} {g : Nat} :
    report.ended? = some g ↔ report.generation = g ∧ ∃ reason, report.kind = .stopped reason := by
  unfold ended?
  split
  · next reason hkind => simp [hkind]
  · next hkind => simp [hkind]

/-- Whether there is a bridge and which instance is attached stays as it is, and none is
launched. -/
structure Actor.Keeps (a a' : Actor) : Prop where
  next : a'.ledger.nextGeneration = a.ledger.nextGeneration
  attached : a'.ledger.attached = a.ledger.attached
  bridge : a'.bridge = none → a.bridge = none

theorem Actor.Keeps.refl (a : Actor) : a.Keeps a :=
  ⟨rfl, rfl, fun h => h⟩

/-! ## Bringing the service back -/

namespace Room

open Bridge

variable {r r₁ r' : Room}

/-- Without a bridge, no instance is attached. -/
def Loose (r : Room) : Prop :=
  r.actor.bridge = none → r.actor.ledger.attached = none

/-- A call on the bridge that there is. -/
theorem call_of_bridge {α : Type} {c : Call α} {b : Bridge} {ok : α → Bridge → Prop}
    {err : BridgeError → Bridge → Prop} (hbridge : r.actor.bridge = some b)
    (hcall : Call.Ends c b ok err) :
    (∃ a b', ok a b' ∧ r.call c = (.ok a, { r with actor.bridge := some b' })) ∨
    ∃ e b', err e b' ∧ r.call c = (.error e, { r with actor.bridge := some b' }) := by
  refine (call_cases (r := r) fun b₀ hb₀ => ?_).resolve_left fun h => ?_
  · obtain rfl := Option.some.inj (hbridge.symm.trans hb₀)
    exact hcall
  · rw [hbridge] at h
    cases h.1

/-- Making the open files right leads to a succeeding bridge, and if it fails no service runs. -/
theorem freshen_succeeds {b : Bridge} (hbridge : r.actor.bridge = some b) :
    ∃ b', r.freshen.2.actor.bridge = some b' ∧ Succeeds b b' ∧
      ∀ e, r.freshen.1 = .error e → b'.isRunning = false := by
  unfold freshen
  split
  · rcases call_of_bridge hbridge (Tidy.adopt r.actor.session.sources) with
      ⟨_, b', h, heq⟩ | ⟨e, b', h, heq⟩
    · rw [heq]
      exact ⟨b', rfl, h, nofun⟩
    · rw [heq]
      exact ⟨b', rfl, h.1, fun _ _ => h.2⟩
  · exact ⟨b, hbridge, .refl b, nofun⟩

theorem ends_revives {c : Call Unit} (hc : Revives c) (b : Bridge) :
    Call.Ends c b (fun _ b' => Succeeds b b' ∧ Provides b b')
      fun _ b' => Succeeds b b' ∧ b'.isRunning = false := by
  cases hc with
  | start => exact ends_start_provides b
  | reanalyze filenames delay => exact ends_reanalyze_provides filenames delay b

/-- Without a bridge, a new one takes the place of the former. -/
theorem ensureBridge_succeeds (r : Room) :
    ∃ b, r.ensureBridge.actor.bridge = some b ∧ Succeeds r.actor.ledger b := by
  unfold ensureBridge
  split
  · next b hbridge => exact ⟨b, hbridge, Actor.ledger_of_bridge hbridge ▸ .refl b⟩
  · next hnone =>
      exact ⟨_, rfl, Actor.ledger_of_none hnone ▸ .of_same (Or.inr rfl) rfl rfl⟩

/-- If bringing the service back succeeds, an instance is attached that worked before or is a new
one.  If it fails, no service runs, or there was nothing that could be tried. -/
theorem analyze_revives {c : Call Unit} (hc : Revives c) (r : Room) :
    ((r.analyze c).1 = .ok () →
      ∃ b, (r.analyze c).2.actor.bridge = some b ∧ Provides r.actor.ledger b) ∧
    ∀ e, (r.analyze c).1 = .error e → (r.analyze c).2 = r ∨
      ∃ b, (r.analyze c).2.actor.bridge = some b ∧ b.isRunning = false := by
  unfold analyze
  split
  · obtain ⟨b, hbridge, hsucceeds⟩ := ensureBridge_succeeds r
    obtain ⟨b₁, hbridge₁, hsucceeds₁, hfailed⟩ := freshen_succeeds hbridge
    split
    · next e r₁ hready =>
        rw [hready] at hbridge₁ hfailed
        exact ⟨nofun, fun _ _ => Or.inr ⟨b₁, hbridge₁, hfailed e rfl⟩⟩
    · next r₁ hready =>
        rw [hready] at hbridge₁
        rcases call_of_bridge hbridge₁ (ends_revives hc b₁) with
          ⟨_, b₂, ⟨-, hprovides⟩, heq⟩ | ⟨e, b₂, ⟨-, hdown⟩, heq⟩
        · rw [heq]
          refine ⟨fun _ => ⟨b₂, rfl, ?_⟩, nofun⟩
          exact hprovides.of_succeeds (hsucceeds.trans hsucceeds₁)
        · rw [heq]
          exact ⟨nofun, fun _ _ => Or.inr ⟨b₂, rfl, hdown⟩⟩
  · exact ⟨nofun, fun _ _ => Or.inl rfl⟩

/-! ## Letters -/

theorem Mute.ledger (h : Mute r r') : r'.actor.ledger = r.actor.ledger := by
  simp only [Actor.ledger, h.bridge, h.former]

theorem Hushed.loose (h : Hushed r r') (hloose : r.Loose) : r'.Loose := by
  intro hnone
  have hbefore : r.actor.bridge = none := by
    refine Option.not_isSome_iff_eq_none.mp fun hsome => ?_
    have hkept := h.kept hsome
    rw [hnone] at hkept
    cases hkept
  rw [Actor.ledger_of_none hnone, h.former, ← Actor.ledger_of_none hbefore]
  exact hloose hbefore

/-- A bridge is given up without an instance. -/
theorem dismissBridge_loose (hloose : r.Loose) :
    r.dismissBridge.actor.former.attached = none := by
  unfold dismissBridge
  simp only
  cases hbridge : r.actor.bridge with
  | none =>
      have hsame : (r.call Bridge.shutdown).2 = r := by simp only [call, hbridge]
      rw [hsame, hbridge]
      exact Actor.ledger_of_none hbridge ▸ hloose hbridge
  | some b =>
      rcases call_of_bridge hbridge (ends_shutdown_succeeds b) with
        ⟨_, b', ⟨-, hnone⟩, heq⟩ | ⟨_, _, h, -⟩
      · rw [heq]
        exact hnone
      · exact h.elim

/-- Without a bridge no instance is attached, after every letter. -/
theorem Heeds.loose {letter : Letter} (h : Heeds r letter r') (hloose : r.Loose) :
    r'.Loose := by
  cases h with
  | mute h => exact h.hushed.loose hloose
  | needed _ h => exact h.loose hloose
  | forgot filename h h' =>
      exact h'.hushed.loose ((Hushed.inform _ _).loose (h.hushed.loose hloose))
  | @brought _ r₀ r₁ _ c hc h hrun hbridge hnews =>
      obtain ⟨b, hb, -⟩ := (analyze_revives hc r₀).1 (congrArg Prod.fst hrun)
      rw [hrun] at hb
      intro hnone
      rw [hbridge, hb] at hnone
      cases hnone
  | @kept _ r₀ r₁ _ c _ _ h hrun h' =>
      have hanalyzed := Hushed.analyze r₀ c
      rw [hrun] at hanalyzed
      exact h'.hushed.loose (hanalyzed.loose (h.hushed.loose hloose))
  | @failed _ r₀ r₁ _ c _ _ h hrun h' =>
      have hanalyzed := Hushed.analyze r₀ c
      rw [hrun] at hanalyzed
      exact h'.hushed.loose (hanalyzed.loose (h.hushed.loose hloose))
  | stopped _ hformer _ =>
      intro hnone
      rw [Actor.ledger_of_none hnone, hformer]
      exact dismissBridge_loose hloose
  | closed _ _ hformer _ =>
      intro hnone
      rw [Actor.ledger_of_none hnone, hformer]
      exact dismissBridge_loose hloose

theorem actor_publish (r : Room) (filename : String) (notice : CellId → Notice) :
    (r.publish filename notice).actor = r.actor := by
  unfold publish
  split <;> rfl

/-- Taking a report does nothing to the instances. -/
theorem hearNext_keeps (r : Room) : r.actor.Keeps r.hearNext.actor := by
  cases hbridge : r.actor.bridge with
  | none =>
      have hsame : r.hearNext = r := by simp only [hearNext, hbridge]
      rw [hsame]
      exact .refl r.actor
  | some b =>
      cases hreports : b.reports with
      | nil =>
          have hsame : r.hearNext = r := by simp only [hearNext, hbridge, hreports]
          rw [hsame]
          exact .refl r.actor
      | cons report rest =>
          have hreported : r.actor.Keeps (r.reported b report rest).actor := by
            obtain ⟨findings, heq⟩ := handle_eq { b with reports := rest } report
            simp only [reported, heq]
            refine ⟨?_, ?_, fun hnone => ?_⟩
            · exact (congrArg nextGeneration (Actor.ledger_of_bridge hbridge)).symm
            · exact (congrArg attached (Actor.ledger_of_bridge hbridge)).symm
            · cases hnone
          rw [hearNext_eq hbridge hreports]
          split
          · exact hreported
          · rw [actor_publish]
            exact hreported
          · rw [actor_publish]
            exact hreported
          · exact hreported

/-- Closing a file launches nothing. -/
theorem inform_closeFile_next (r : Room) (filename : String) :
    (r.inform (Bridge.closeFile filename)).actor.ledger.nextGeneration =
      r.actor.ledger.nextGeneration := by
  unfold inform
  split
  · rfl
  · next b hbridge =>
      rw [Actor.ledger_of_bridge hbridge]
      rcases call_of_bridge hbridge (ends_closeFile_succeeds b filename) with
        ⟨_, b', ⟨-, hnext⟩, heq⟩ | ⟨e, b', ⟨-, hnext, -⟩, heq⟩
      · rw [heq]
        exact hnext
      · rw [heq]
        exact hnext

end Room

/-! ## Events -/

namespace Site

variable {s s' : Site}

/-- The status of the service that was told last. -/
def lastStatus (s : Site) : Option ServiceStatus :=
  (s.log.filterMap Effect.serviceStatus?).getLast?

/-- The instance whose end the actor hears of if this happens. -/
def ending? (s : Site) : Event → Option Nat
  | .hear => s.actor.bridge.bind fun b => b.reports.head?.bind Report.ended?
  | _ => none

/-- The instances whose ends the actor hears of in a run. -/
def endings (s : Site) : List Event → List Nat
  | [] => []
  | e :: rest => (s.ending? e).toList ++ (s.step e).endings rest

theorem lastStatus_of_told {told : List Effect} (hlog : s'.log = s.log ++ told) :
    s'.lastStatus = (told.filterMap Effect.serviceStatus?).getLast?.or s.lastStatus := by
  rw [lastStatus, hlog, List.filterMap_append, List.getLast?_append]
  rfl

/-- Of what is told of the service, only its status counts. -/
theorem serviceStatuses_eq (told : List Effect) :
    told.filterMap Effect.serviceStatus? =
      (told.filter Effect.isServiceNews).filterMap Effect.serviceStatus? := by
  rw [List.filterMap_filter]
  refine congrArg (List.filterMap · told) (funext fun e => ?_)
  cases e with
  | notice notice => cases notice <;> rfl
  | _ => rfl

theorem lastStatus_of_quiet {r : Room} (mailbox : List Letter) (alive : Bool)
    (h : r.serviceNews = s.room.serviceNews) :
    (s.leave mailbox alive r).lastStatus = s.lastStatus := by
  have hnone : r.effects.filter Effect.isServiceNews = [] := h
  have htold : (s.leave mailbox alive r).log = s.log ++ r.effects := rfl
  rw [lastStatus_of_told htold, serviceStatuses_eq, hnone]
  rfl

theorem lastStatus_of_news {r : Room} (mailbox : List Letter) (alive : Bool)
    {status : ServiceStatus}
    (h : r.serviceNews = s.room.serviceNews ++ [.notice (.service status)]) :
    (s.leave mailbox alive r).lastStatus = some status := by
  have hone : r.effects.filter Effect.isServiceNews = [.notice (.service status)] := h
  have htold : (s.leave mailbox alive r).log = s.log ++ r.effects := rfl
  rw [lastStatus_of_told htold, serviceStatuses_eq, hone]
  rfl

/-- What an event comes to for the service and for what is told of it. -/
inductive Course (s : Site) (e : Event) (s' : Site) : Prop where
  /-- Nothing is launched, and no status is told. -/
  | calm
    (hnext : s'.actor.ledger.nextGeneration = s.actor.ledger.nextGeneration)
    (hlast : s'.lastStatus = s.lastStatus)
  | needed (hlazy : (s.due e).any Letter.isLazy = true) (hlast : s'.lastStatus = s.lastStatus)
  | kept (hran : s.actor.ledger.isRunning = true) (hlast : s'.lastStatus = s.lastStatus)
  | failed (hdown : s'.actor.ledger.isRunning = false) (hlast : s'.lastStatus = s.lastStatus)
  | brought (hprovides : s.actor.ledger.Provides s'.actor.ledger)
    (hlast : s'.lastStatus = some .running)
  | dismissed (hnone : s'.actor.ledger.attached = none) (hlast : s'.lastStatus = some .stopped)
  | ended (g : Nat) (hending : s.ending? e = some g)
    (hattached : s.actor.ledger.attached = some g)
    (hnext : s'.actor.ledger.nextGeneration = s.actor.ledger.nextGeneration)
    (hlast : s'.lastStatus = some .stopped)

/-- What is said to run has been said to run before, or it has been provided. -/
theorem Course.of_running {e : Event} (h : s.Course e s') (htold : s'.lastStatus = some .running) :
    s.lastStatus = some .running ∨ s.actor.ledger.Provides s'.actor.ledger := by
  cases h with
  | brought hprovides _ => exact Or.inr hprovides
  | dismissed _ hlast =>
      rw [hlast] at htold
      cases htold
  | ended _ _ _ _ hlast =>
      rw [hlast] at htold
      cases htold
  | calm _ hlast => exact Or.inl (hlast ▸ htold)
  | needed _ hlast => exact Or.inl (hlast ▸ htold)
  | kept _ hlast => exact Or.inl (hlast ▸ htold)
  | failed _ hlast => exact Or.inl (hlast ▸ htold)

theorem work_course {letter : Letter} {rest : List Letter} (halive : s.alive = true)
    (hmailbox : s.mailbox = letter :: rest) (hloose : s.room.Loose)
    (hstays : (s.room.receive letter).1 = true) :
    s.Course .work (s.leave rest (s.room.receive letter).1 (s.room.receive letter).2) := by
  have hdue : s.due .work = some letter := by simp [due, halive, hmailbox]
  have hheeds := Room.receive_heeds s.room letter
  generalize (s.room.receive letter).2 = r' at hheeds ⊢
  have hledger : (s.leave rest (s.room.receive letter).1 r').actor.ledger = r'.actor.ledger := rfl
  cases hheeds with
  | mute h =>
      refine .calm ?_ (lastStatus_of_quiet rest _ h.news)
      rw [hledger, h.ledger]
      rfl
  | needed hlazy h =>
      exact .needed (by rw [hdue]; exact hlazy) (lastStatus_of_quiet rest _ h.news)
  | forgot filename h h' =>
      refine .calm ?_ (lastStatus_of_quiet rest _
        (h'.news.trans ((Room.Hushed.inform _ _).news.trans h.news)))
      rw [hledger, h'.ledger, Room.inform_closeFile_next, h.ledger]
      rfl
  | @brought _ r₀ r₁ _ c hc h hrun hbridge hnews =>
      obtain ⟨b, hb, hprovides⟩ := (Room.analyze_revives hc r₀).1 (congrArg Prod.fst hrun)
      rw [hrun] at hb
      refine .brought ?_ (lastStatus_of_news rest _ hnews)
      rw [hledger, Actor.ledger_of_bridge (hbridge.trans hb)]
      exact h.ledger ▸ hprovides
  | @kept _ r₀ r₁ _ c hc hran h hrun h' =>
      have hanalyzed := Room.Hushed.analyze r₀ c
      rw [hrun] at hanalyzed
      refine .kept ?_ (lastStatus_of_quiet rest _
        (h'.news.trans (hanalyzed.news.trans h.news)))
      obtain ⟨b, hb, hb'⟩ := (Option.any_eq_true _ _).mp hran
      exact Actor.ledger_of_bridge (a := s.actor) hb ▸ hb'
  | @failed _ r₀ r₁ _ c e hc h hrun h' =>
      have hanalyzed := Room.Hushed.analyze r₀ c
      rw [hrun] at hanalyzed
      have hlast := lastStatus_of_quiet rest (s.room.receive letter).1
        (h'.news.trans (hanalyzed.news.trans h.news))
      have hfailed := (Room.analyze_revives hc r₀).2 e (congrArg Prod.fst hrun)
      rw [hrun] at hfailed
      rcases hfailed with hsame | ⟨b, hb, hdown⟩
      · obtain rfl : r₁ = r₀ := hsame
        refine .calm ?_ hlast
        rw [hledger, h'.ledger, h.ledger]
        rfl
      · refine .failed ?_ hlast
        rw [hledger, h'.ledger, Actor.ledger_of_bridge hb]
        exact hdown
  | stopped hbridge hformer hnews =>
      refine .dismissed ?_ (lastStatus_of_news rest _ hnews)
      rw [hledger, Actor.ledger_of_none hbridge, hformer]
      exact Room.dismissBridge_loose hloose
  | closed call _ _ _ => cases hstays

/-- Besides letters nothing changes this. -/
theorem keeps_step {e : Event} (hwork : e ≠ .work) : s.actor.Keeps (s.step e).actor := by
  have hsame : s.actor.Keeps s.actor := .refl s.actor
  have hledger : ∀ b, b.nextGeneration = s.actor.ledger.nextGeneration →
      b.attached = s.actor.ledger.attached → s.actor.Keeps (s.withLedger b).actor := by
    intro b hnext hattached
    have hb : (s.withLedger b).actor.ledger = b := Actor.ledger_withLedger s.actor b
    refine ⟨(congrArg Bridge.nextGeneration hb).trans hnext,
      (congrArg Bridge.attached hb).trans hattached, ?_⟩
    simp only [withLedger, Actor.withLedger]
    intro hnone
    split at hnone
    · cases hnone
    · exact hnone
  cases e with
  | send client intent => exact actor_post s _ ▸ hsame
  | ask call => exact actor_post s _ ▸ hsame
  | close call => exact actor_post s _ ▸ hsame
  | work => exact absurd rfl hwork
  | hear =>
      simp only [step, hear]
      split
      · exact Room.hearNext_keeps s.room
      · exact hsame
  | conclude index =>
      simp only [step, conclude]
      split
      · exact hsame
      · split
        · exact hsame
        · rw [actor_post]
          exact ⟨rfl, rfl, fun hnone => hnone⟩
  | happens incident =>
      have hlater := Bridge.later_apply s.actor.ledger incident
      exact hledger _ hlater.nextGeneration hlater.attached
  | plan hindrance launches incidents => exact hledger _ rfl rfl
  | process generation what =>
      simp only [step]
      split
      · exact hsame
      · exact hsame
  | pass generation =>
      simp only [step, pass]
      split
      · exact hsame
      · rw [actor_post]
        exact hsame
      · exact hsame
  | elsewhere key pid =>
      simp only [step]
      split
      · exact hsame
      · exact hsame
  | disturb disk => exact hsame
  | respawn spawner => exact hsame

/-- An end is told if it is that of the attached instance. -/
theorem hear_course (hdir : ∀ b, s.actor.bridge = some b → b.sourceDir = s.actor.session.sourceDir)
    (halive : s.alive = true) :
    s.Course .hear (s.step .hear) ∧ ∀ g, s.ending? .hear = some g →
      s.actor.ledger.attached = some g → (s.step .hear).lastStatus = some .stopped := by
  have hhears := Room.hearNext_hears (r := s.room) hdir
  have hstep : s.step .hear = s.leave s.mailbox true s.room.hearNext := by
    simp only [step, hear, halive, if_true]
  have hother : Event.hear ≠ .work := by rintro ⟨⟩
  have hnext := (keeps_step (s := s) hother).next
  rw [hstep] at hnext ⊢
  generalize s.room.hearNext = r' at hhears hnext
  have hending : ∀ {b : Bridge} {report : Report} {rest : List Report} {g : Nat},
      s.actor.bridge = some b → b.reports = report :: rest → (s.ending? .hear = some g ↔
        report.generation = g ∧ ∃ reason, report.kind = .stopped reason) :=
    fun hbridge hreports => by simp [ending?, hbridge, hreports, Report.ended?_eq_some_iff]
  have hledger : ∀ {b : Bridge}, s.actor.bridge = some b → s.actor.ledger = b :=
    Actor.ledger_of_bridge
  cases hhears with
  | nothing h =>
      refine ⟨.calm hnext (lastStatus_of_quiet _ _ rfl), fun g hg => ?_⟩
      obtain ⟨b, hbridge, hreport⟩ := Option.bind_eq_some_iff.mp hg
      rw [h b hbridge] at hreport
      cases hreport
  | passed b report rest hbridge hreports _ hend =>
      refine ⟨.calm hnext (lastStatus_of_quiet _ _ rfl), fun g hg hg' => ?_⟩
      obtain ⟨rfl, reason, hkind⟩ := (hending hbridge hreports).mp hg
      exact absurd hkind (hend (hledger hbridge ▸ hg') reason)
  | found b report rest pass path raw code items notice hbridge hreports hfinds hattached howns
      hnotice =>
      have hlast : (s.leave s.mailbox true
          ((s.room.reported b report rest).broadcast notice)).lastStatus = s.lastStatus := by
        have htold : (s.leave s.mailbox true
            ((s.room.reported b report rest).broadcast notice)).log = s.log ++ [.notice notice] :=
          rfl
        rw [lastStatus_of_told htold]
        rcases hnotice with rfl | rfl <;> rfl
      refine ⟨.calm hnext hlast, fun g hg => ?_⟩
      obtain ⟨-, reason, hkind⟩ := (hending hbridge hreports).mp hg
      rw [Report.findings?_of_stopped hkind] at hfinds
      cases hfinds
  | ended b report rest reason hbridge hreports hattached hkind =>
      have hlast : (s.leave s.mailbox true
          ((s.room.reported b report rest).broadcast (.service .stopped))).lastStatus =
          some .stopped :=
        lastStatus_of_news s.mailbox true
          (Room.serviceNews_tell_news (s.room.reported b report rest) rfl)
      refine ⟨.ended report.generation ?_ ?_ hnext hlast, fun _ _ _ => hlast⟩
      · exact (hending hbridge hreports).mpr ⟨rfl, reason, hkind⟩
      · exact (hledger hbridge).symm ▸ hattached

/-- What every event comes to, as long as the actor goes on. -/
theorem step_course (hdir : ∀ b, s.actor.bridge = some b → b.sourceDir = s.actor.session.sourceDir)
    (hloose : s.room.Loose) (e : Event) (hstays : (s.step e).alive = true) :
    s.Course e (s.step e) := by
  have halive : s.alive = true := (turn_step s e).alive hstays
  by_cases hwork : e = .work
  · subst hwork
    simp only [step, work] at hstays ⊢
    split at hstays
    · next letter rest _ hmailbox => exact work_course halive hmailbox hloose hstays
    · exact .calm rfl rfl
  · by_cases hhear : e = .hear
    · subst hhear
      exact (hear_course hdir halive).1
    · refine .calm (keeps_step hwork).next ?_
      rcases log_step (s := s) hwork hhear with hlog | ⟨cell, stream, text, hlog⟩
      · simp only [lastStatus, hlog]
      · rw [lastStatus_of_told hlog]
        rfl

/-- Without a bridge no instance is attached, after every event. -/
theorem step_loose (hloose : s.room.Loose) (e : Event) : (s.step e).room.Loose := by
  by_cases hwork : e = .work
  · subst hwork
    simp only [step, work]
    split
    · next letter rest _ _ => exact (Room.receive_heeds s.room letter).loose hloose
    · exact hloose
  · have hkeeps := keeps_step (s := s) hwork
    exact fun hnone => hkeeps.attached.trans (hloose (hkeeps.bridge hnone))

/-- What happens to the instances of a site in one event. -/
theorem step_succeeds (s : Site) (e : Event) :
    s.actor.ledger.Succeeds (s.step e).actor.ledger :=
  have hserves : s.actor.Serves s.actor.session _ := ⟨Session.ComesFrom.refl _, .refl _⟩
  ((turn_step s e).serves
    (Bridge.closed_succeeds s.actor.session.possibleNames s.actor.ledger) hserves).ledger

/-! ## Steady runs -/

/-- Nothing happens to the service that would have to be told and is not. -/
structure Steady (s : Site) (e : Event) : Prop where
  /-- While the service is said to be stopped, no intent launches it on its way. -/
  needed : s.lastStatus = some .stopped → (s.due e).any Letter.isLazy = true →
    (s.step e).actor.ledger.nextGeneration = s.actor.ledger.nextGeneration
  /-- While the service is said to run, no instance is given up without another in its place. -/
  replaced : s.lastStatus = some .running → (s.step e).lastStatus = some .running →
    s.actor.ledger.attached.isSome = true → (s.step e).actor.ledger.attached.isSome = true
  /-- The end of an instance is reported when its output has ended. -/
  orderly : ∀ g ∈ s.ending? e,
    (s.actor.ledger.instances.find? g).any (fun i => !i.alive) = true

instance (s : Site) (e : Event) : Decidable (s.Steady e) :=
  decidable_of_iff (_ ∧ _ ∧ _)
    ⟨fun ⟨h, h', h''⟩ => ⟨h, h', h''⟩, fun ⟨h, h', h''⟩ => ⟨h, h', h''⟩⟩

/-- Every event of a run is steady. -/
def Steadily (s : Site) : List Event → Prop
  | [] => True
  | e :: rest => s.Steady e ∧ (s.step e).Steadily rest

instance (s : Site) : (events : List Event) → Decidable (s.Steadily events)
  | [] => .isTrue trivial
  | e :: rest =>
    have := instDecidableSteadily (s.step e) rest
    inferInstanceAs (Decidable (_ ∧ _))

/-- What is said of the service is so, if the attached instance works or its end has been told. -/
structure Current (s₀ : Session) (s : Site) : Prop where
  serves : s.actor.Serves s₀ fun b => b.projectDir = s₀.dir
  narrated : s.actor.Narrated
  launched : ∀ g, s.actor.ledger.attached = some g → g < s.actor.ledger.nextGeneration
  loose : s.room.Loose
  stopped : s.lastStatus = some .stopped → s.actor.ledger.isRunning = false
  running : s.lastStatus = some .running → s.actor.ledger.attached.isSome = true

/-- The instance does not work any more, and the service is not said to run because of it. -/
structure Past (g : Nat) (s : Site) : Prop where
  launched : g < s.actor.ledger.nextGeneration
  stopped : s.actor.ledger.works g = false
  told : s.actor.ledger.attached = some g → s.lastStatus ≠ some .running

variable {s₀ : Session} {e : Event} {g : Nat}

theorem Current.sourceDir (h : Current s₀ s) :
    ∀ b, s.actor.bridge = some b → b.sourceDir = s.actor.session.sourceDir := fun _ hb =>
  congrArg (Path.join · "src") ((h.serves.bridge hb).trans h.serves.session.dir.symm)

/-- An instance that there is has been launched. -/
theorem Current.lt_of_find? (h : Current s₀ s) {i : Instance}
    (hi : s.actor.ledger.instances.find? g = some i) : g < s.actor.ledger.nextGeneration := by
  obtain ⟨⟨beats, hat⟩, -⟩ := h.narrated.ledger
  exact hat.launched g (Bridge.launched_of_find? (hat.same.instances ▸ hi))

theorem Current.step (h : Current s₀ s) (hsteady : s.Steady e)
    (hstays : (s.step e).alive = true) : Current s₀ (s.step e) := by
  have hsucceeds := step_succeeds s e
  have hcourse := step_course h.sourceDir h.loose e hstays
  refine ⟨(turn_step s e).serves (Bridge.closed_projectDir _ _) h.serves,
    (turn_step s e).narrated h.narrated, ?_, step_loose h.loose e, ?_, ?_⟩
  · intro g hg
    rcases hsucceeds.attached g hg with hold | ⟨-, hlt⟩
    · exact (h.launched g hold).trans_le hsucceeds.next
    · exact hlt
  · -- without a launch, a service that does not run stays so
    have hstill : (s.step e).actor.ledger.nextGeneration = s.actor.ledger.nextGeneration →
        s.actor.ledger.isRunning = false → (s.step e).actor.ledger.isRunning = false := by
      intro hnext hdown
      rw [← Bool.not_eq_true] at hdown ⊢
      exact fun hrunning => hdown (hsucceeds.isRunning hnext h.launched hrunning)
    intro htold
    cases hcourse with
    | calm hnext hlast => exact hstill hnext (h.stopped (hlast ▸ htold))
    | needed hlazy hlast =>
        exact hstill (hsteady.needed (hlast ▸ htold) hlazy) (h.stopped (hlast ▸ htold))
    | kept hran hlast =>
        rw [h.stopped (hlast ▸ htold)] at hran
        cases hran
    | failed hdown _ => exact hdown
    | brought _ hlast =>
        rw [hlast] at htold
        cases htold
    | dismissed hnone _ => exact Bridge.isRunning_of_attached_none hnone
    | ended g hending hattached hnext hlast =>
        refine hstill hnext (Bridge.isRunning_of_works hattached ?_)
        obtain ⟨i, hi, hdead⟩ := (Option.any_eq_true _ _).mp (hsteady.orderly g hending)
        simp only [Bridge.works, hi]
        simpa using fun halive => absurd halive (by simpa using hdead)
  · intro htold
    rcases hcourse.of_running htold with hbefore | ⟨g, hg, -⟩
    · exact hsteady.replaced hbefore htold (h.running hbefore)
    · exact hg ▸ rfl

/-- An instance that has stopped working is not told to run again. -/
theorem Past.step (hpast : Past g s) (h : Current s₀ s) (hstays : (s.step e).alive = true) :
    Past g (s.step e) := by
  have hsucceeds := step_succeeds s e
  refine ⟨hpast.launched.trans_le hsucceeds.next, ?_, fun hattached htold => ?_⟩
  · rw [← Bool.not_eq_true]
    exact fun hworks => Bool.eq_false_iff.mp hpast.stopped
      (hsucceeds.works g hpast.launched hworks)
  · have hbefore : s.actor.ledger.attached = some g :=
      (hsucceeds.attached g hattached).resolve_right fun hnew =>
        absurd hpast.launched (not_lt.mpr hnew.1)
    rcases (step_course h.sourceDir h.loose e hstays).of_running htold with
      hrunning | ⟨g', hg', hworks | hnew⟩
    · exact hpast.told hbefore hrunning
    · obtain rfl := Option.some.inj (hattached.symm.trans hg')
      rw [hpast.stopped] at hworks
      cases hworks
    · obtain rfl := Option.some.inj (hattached.symm.trans hg')
      exact absurd hpast.launched (not_lt.mpr hnew)

/-- After its end has been heard, an instance is past. -/
theorem Current.past (h : Current s₀ s) (hsteady : s.Steady e) (hending : s.ending? e = some g)
    (hstays : (s.step e).alive = true) : Past g (s.step e) := by
  obtain rfl : e = .hear := by
    cases e with
    | hear => rfl
    | _ => cases hending
  have hsucceeds := step_succeeds s .hear
  obtain ⟨i, hi, hdead⟩ := (Option.any_eq_true _ _).mp (hsteady.orderly g hending)
  have hlaunched := h.lt_of_find? hi
  refine ⟨hlaunched.trans_le hsucceeds.next, ?_, fun hattached htold => ?_⟩
  · rw [← Bool.not_eq_true]
    intro hworks
    have halive := hsucceeds.works g hlaunched hworks
    simp only [Bridge.works, hi, Bool.and_eq_true] at halive
    rw [halive.1] at hdead
    cases hdead
  · have hbefore : s.actor.ledger.attached = some g :=
      (hsucceeds.attached g hattached).resolve_right fun hnew =>
        absurd hlaunched (not_lt.mpr hnew.1)
    have hlast := (hear_course h.sourceDir ((turn_step s .hear).alive hstays)).2 g hending hbefore
    rw [hlast] at htold
    cases htold

/-- In a steady run the status stays current, and those whose end has been heard are past. -/
theorem run_current (h : Current s₀ s) (events : List Event) (hsteady : s.Steadily events)
    (halive : (s.run events).alive = true) :
    Current s₀ (s.run events) ∧
      ∀ g, Past g s ∨ g ∈ s.endings events → Past g (s.run events) := by
  induction events generalizing s with
  | nil => exact ⟨h, fun g hg => hg.resolve_right List.not_mem_nil⟩
  | cons e rest ih =>
      have hstays := alive_of_run rest halive
      obtain ⟨hcurrent, hpast⟩ := ih (h.step hsteady.1 hstays) hsteady.2 halive
      refine ⟨hcurrent, fun g hg => hpast g ?_⟩
      rcases hg with hg | hg
      · exact Or.inl (hg.step h hstays)
      · rcases List.mem_append.mp hg with hg | hg
        · exact Or.inl (h.past hsteady.1 (Option.mem_toList.mp hg) hstays)
        · exact Or.inr hg

theorem opened_current (facilities : Facilities) (spawner : Spawner) (disk : Disk)
    (supervisor : Supervisor) (session : Session) :
    Current session (opened facilities spawner disk supervisor session) where
  serves := opened_serves facilities spawner disk supervisor session rfl
  narrated := opened_narrated facilities spawner disk supervisor session
  launched := nofun
  loose := fun _ => rfl
  stopped := nofun
  running := nofun

/-- Whether the actor has a bridge whose service runs. -/
def serviceRuns (s : Site) : Bool :=
  s.actor.bridge.any (·.isRunning)

theorem Current.serviceRuns_eq (h : Current s₀ s) : s.serviceRuns = s.actor.ledger.isRunning := by
  unfold serviceRuns
  cases hbridge : s.actor.bridge with
  | none => exact (Bridge.isRunning_of_attached_none (h.loose hbridge)).symm
  | some b => exact congrArg Bridge.isRunning (Actor.ledger_of_bridge hbridge).symm

/-- The status that is told is the real one.  In every run, as long as no intent launches a
service on its way that is said to be stopped, and no instance of one that is said to run is given
up without another in its place: if a status has been told, the last one is that the service runs
if and only if it does, once the end of an attached instance that does not work has been heard. -/
theorem told_status_real (facilities : Facilities) (spawner : Spawner) (disk : Disk)
    (supervisor : Supervisor) (session : Session) (events : List Event) :
    let first := opened facilities spawner disk supervisor session
    let s := first.run events
    first.Steadily events → s.alive = true →
    (∀ b g, s.actor.bridge = some b → b.attached = some g → b.works g = false →
      g ∈ first.endings events) →
    ∀ status, s.lastStatus = some status → (status = .running ↔ s.serviceRuns = true) := by
  intro first s hsteady halive hheard status hstatus
  obtain ⟨hcurrent, hpast⟩ := run_current
    (opened_current facilities spawner disk supervisor session) events hsteady halive
  rw [hcurrent.serviceRuns_eq]
  cases status with
  | stopped =>
      rw [hcurrent.stopped hstatus]
      exact ⟨nofun, nofun⟩
  | running =>
      refine ⟨fun _ => ?_, fun _ => rfl⟩
      by_contra hdown
      obtain ⟨g, hg⟩ := Option.isSome_iff_exists.mp (hcurrent.running hstatus)
      have hstopped : s.actor.ledger.works g = false := by
        simpa only [Bridge.isRunning, hg, Bool.not_eq_true] using hdown
      obtain ⟨b, hb⟩ : ∃ b, s.actor.bridge = some b := by
        refine Option.ne_none_iff_exists'.mp fun hnone => ?_
        cases hg.symm.trans (hcurrent.loose hnone)
      have hledger : s.actor.ledger = b := Actor.ledger_of_bridge hb
      exact (hpast g (Or.inr (hheard b g hb (hledger ▸ hg) (hledger ▸ hstopped)))).told hg hstatus

/-- The service is started, dies, is said to be stopped, and is started again. -/
theorem told_status_real_restarted :
    let session : Session := ⟨⟨"s"⟩, "/book", .typescript,
      [.code ⟨⟨"x"⟩, "1", "a.ts", .typescript, .idle⟩]⟩
    let first := opened ⟨.standard, .standard, []⟩ (fun _ _ => .ok 7) .empty (.new 16) session
    let events : List Event := [.send ⟨0⟩ .startService, .work, .happens (.dies 1),
      .happens (.reports 1 .exited), .hear, .send ⟨0⟩ .startService, .work]
    let s := first.run events
    (first.Steadily events ∧ s.alive = true ∧
      (∀ b g, s.actor.bridge = some b → b.attached = some g → b.works g = false →
        g ∈ first.endings events) ∧ s.lastStatus = some .running) ∧
    s.serviceRuns = true := by
  intro session first events s
  have hsteady : first.Steadily events := by decide +kernel
  have halive : s.alive = true := by decide +kernel
  have hlast : s.lastStatus = some .running := by decide +kernel
  have hworks : (s.actor.bridge.map fun b => b.attached.all b.works) = some true := by
    decide +kernel
  have hheard : ∀ b g, s.actor.bridge = some b → b.attached = some g → b.works g = false →
      g ∈ first.endings events := by
    intro b g hb hg hstopped
    rw [hb, Option.map_some, hg, Option.all_some, hstopped] at hworks
    cases hworks
  exact ⟨⟨hsteady, halive, hheard, hlast⟩,
    (told_status_real ⟨.standard, .standard, []⟩ (fun _ _ => .ok 7) .empty (.new 16) session
      events hsteady halive hheard .running hlast).mp rfl⟩

/-- A service that is said to be stopped is launched by a request for findings, and one that is
said to run dies and cannot be launched again.  Nothing more will be told in either case. -/
theorem told_status_wrong :
    let session : Session := ⟨⟨"s"⟩, "/book", .typescript,
      [.code ⟨⟨"x"⟩, "1", "a.ts", .typescript, .idle⟩]⟩
    let first := opened ⟨.standard, .standard, []⟩ (fun _ _ => .ok 7) .empty (.new 16) session
    let begun : List Event := [.send ⟨0⟩ .startService, .work, .happens (.dies 1),
      .happens (.reports 1 .exited)]
    let launched := first.run (begun ++ [.hear, .send ⟨0⟩ .requestDiagnostics, .work])
    let lost := first.run (begun ++ [.plan none [some (.failed "no service")] [],
      .send ⟨0⟩ (.edit ⟨"x"⟩ "2"), .work, .hear])
    (launched.lastStatus = some .stopped ∧ launched.serviceRuns = true ∧
      launched.mailbox = [] ∧ launched.actor.ledger.reports.isEmpty = true) ∧
    lost.lastStatus = some .running ∧ lost.serviceRuns = false ∧
      lost.mailbox = [] ∧ lost.actor.ledger.reports.isEmpty = true := by
  decide +kernel

end Site
end Notebook
