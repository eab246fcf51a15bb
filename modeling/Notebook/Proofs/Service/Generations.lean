import Notebook.Proofs.Actor.Serving

/-!
# Generations of instances

Instances are numbered in the order of their launches, and one that has stopped working never
works again.  So all that has to be known of how a bridge has become of another is in
`Bridge.Succeeds`: an instance that is attached now was attached then, or it is a later one.

A call that fails leaves no service running, since it has found the attached instance stopped or
has not got one.  A call that needs the service and comes back has an instance attached that
worked before or is a new one: `Bridge.Provides`.

* `ends_launch_succeeds`, `ends_ensure_succeeds`: launching and replacing instances.
* `Tidy`: calls that fail only when no service runs, with one lemma for each call.
* `succeeds_play`, `closed_succeeds`: every move leads to a succeeding bridge.
* `ends_start_provides`, `ends_reanalyze_provides`: calls that bring the service back.
-/

set_option autoImplicit false

namespace Notebook
namespace Bridge

open Call

/-- The bridge `b'` may have become of `b`. -/
structure Succeeds (b b' : Bridge) : Prop where
  next : b.nextGeneration ≤ b'.nextGeneration
  attached : ∀ g, b'.attached = some g →
    b.attached = some g ∨ b.nextGeneration ≤ g ∧ g < b'.nextGeneration
  works : ∀ g, g < b.nextGeneration → b'.works g = true → b.works g = true

/-- In `b'` an instance is attached that worked in `b` or has been launched since. -/
def Provides (b b' : Bridge) : Prop :=
  ∃ g, b'.attached = some g ∧ (b.works g = true ∨ b.nextGeneration ≤ g)

variable {b b₁ b' : Bridge}

namespace Succeeds

theorem refl (b : Bridge) : Succeeds b b :=
  ⟨le_rfl, fun _ h => Or.inl h, fun _ _ h => h⟩

theorem trans (h : Succeeds b b₁) (h' : Succeeds b₁ b') : Succeeds b b' := by
  refine ⟨h.next.trans h'.next, fun g hg => ?_, fun g hlt hworks => ?_⟩
  · rcases h'.attached g hg with hold | ⟨hnew, hlt⟩
    · rcases h.attached g hold with holder | ⟨hnew, hlt⟩
      · exact Or.inl holder
      · exact Or.inr ⟨hnew, hlt.trans_le h'.next⟩
    · exact Or.inr ⟨h.next.trans hnew, hlt⟩
  · exact h.works g hlt (h'.works g (hlt.trans_le h.next) hworks)

theorem of_later (h : Later b b') : Succeeds b b' :=
  ⟨h.nextGeneration.ge, fun _ hg => Or.inl (h.attached ▸ hg), fun g _ hworks => h.works g hworks⟩

/-- What is not about the instances may change, and the attached one may be let go. -/
theorem of_same (hattached : b'.attached = b.attached ∨ b'.attached = none)
    (hnext : b'.nextGeneration = b.nextGeneration) (hinstances : b'.instances = b.instances) :
    Succeeds b b' := by
  refine ⟨hnext.ge, fun g hg => ?_, fun g _ hworks => ?_⟩
  · rcases hattached with hsame | hnone
    · exact Or.inl (hsame ▸ hg)
    · rw [hnone] at hg
      cases hg
  · simp only [Bridge.works, hinstances] at hworks ⊢
    exact hworks

/-- If no instance is launched, the service does not begin to run. -/
theorem isRunning (h : Succeeds b b') (hnext : b'.nextGeneration = b.nextGeneration)
    (hlaunched : ∀ g, b.attached = some g → g < b.nextGeneration) (hrunning : b'.isRunning = true) :
    b.isRunning = true := by
  unfold Bridge.isRunning at hrunning ⊢
  cases hattached : b'.attached with
  | none =>
      rw [hattached] at hrunning
      cases hrunning
  | some g =>
      rw [hattached] at hrunning
      rcases h.attached g hattached with hold | ⟨hnew, hlt⟩
      · rw [hold]
        exact h.works g (hlaunched g hold) hrunning
      · exact absurd (hnew.trans_lt (hnext ▸ hlt)) (lt_irrefl _)

end Succeeds

theorem Provides.of_succeeds (h : Succeeds b b₁) (h' : Provides b₁ b') : Provides b b' := by
  obtain ⟨g, hattached, hg⟩ := h'
  refine ⟨g, hattached, ?_⟩
  rcases lt_or_ge g b.nextGeneration with hlt | hge
  · refine Or.inl (h.works g hlt (hg.resolve_right fun hge => ?_))
    exact absurd (h.next.trans hge) (not_le.mpr hlt)
  · exact Or.inr hge

theorem isRunning_of_attached_none (h : b.attached = none) : b.isRunning = false := by
  simp only [isRunning, h]

theorem isRunning_of_works {g : Nat} (hattached : b.attached = some g)
    (hworks : b.works g = false) : b.isRunning = false := by
  simp only [isRunning, hattached, hworks]

/-! ## Instances -/

/-- A launched instance is attached.  If its launch fails, what was attached before stays so. -/
theorem ends_launch_succeeds (b : Bridge) :
    Ends launch b
      (fun _ b' => Succeeds b b' ∧ b'.attached = some b.nextGeneration)
      fun _ b' => Succeeds b b' ∧ b'.attached = b.attached := by
  simp only [launch, ends_bind]
  refine (ends_nextLaunch b).mono ?_ (fun _ _ h => h.elim)
  rintro problem _ ⟨launches, rfl⟩
  cases problem with
  | some problem => exact ⟨.of_same (Or.inl rfl) rfl rfl, rfl⟩
  | none =>
      simp only [ends_bind, ends_get, ends_set, ends_perform]
      generalize hb₁ : ({ b with
        nextGeneration := b.nextGeneration + 1
        instances := b.instances.set b.nextGeneration ⟨1, true, true⟩
        findings := .empty
        launches
        trace := .launched b.nextGeneration :: b.trace } : Bridge) = b₁
      have hnext : b₁.nextGeneration = b.nextGeneration + 1 := hb₁ ▸ rfl
      have hattached : b₁.attached = b.attached := hb₁ ▸ rfl
      have hworks : ∀ g, g < b.nextGeneration → b₁.works g = true → b.works g = true := by
        subst hb₁
        intro g hlt hworks
        simp only [works, Table.find?_set, if_neg (Nat.ne_of_gt hlt)] at hworks ⊢
        exact hworks
      clear hb₁
      have hlaunched : ∀ {b₂}, Later b₁ b₂ → Succeeds b b₂ ∧ b₂.attached = b.attached := by
        refine fun hlater => ⟨⟨?_, fun g hg => ?_, fun g hlt hw => ?_⟩, ?_⟩
        · rw [hlater.nextGeneration, hnext]
          exact Nat.le_succ _
        · exact Or.inl (hattached ▸ hlater.attached ▸ hg)
        · exact hworks g hlt (hlater.works g hw)
        · exact hlater.attached.trans hattached
      have hready : ∀ {b₂}, Later b₁ b₂ →
          Succeeds b { b₂ with attached := some b.nextGeneration } := by
        intro b₂ hlater
        obtain ⟨hsucceeds, -⟩ := hlaunched hlater
        refine ⟨hsucceeds.next, fun g hg => ?_, hsucceeds.works⟩
        obtain rfl := Option.some.inj hg
        refine Or.inr ⟨le_rfl, ?_⟩
        change b.nextGeneration < b₂.nextGeneration
        rw [hlater.nextGeneration, hnext]
        exact Nat.lt_succ_self _
      change Ends (openAll b.nextGeneration b.sortedRecords) b₁ _ _
      refine (ends_openAll _ _ b₁).mono ?_ (fun _ _ h => hlaunched h.1)
      rintro _ b₂ ⟨hlater, -⟩
      split
      · exact ⟨hready hlater, rfl⟩
      · simp only [ends_bind, ends_pause, ends_modify]
        refine (ends_notify b₂ _ _).mono ?_ (fun _ _ h => hlaunched (hlater.trans h.1))
        rintro _ b₃ ⟨hlater₃, -⟩
        exact ⟨hready ((hlater.trans hlater₃).trans (later_elapse b₃)), trivial⟩

/-- Afterwards an instance is attached that worked before or is a new one.  If that fails, none
is attached. -/
theorem ends_ensure_succeeds (b : Bridge) :
    Ends ensure b
      (fun g b' => Succeeds b b' ∧ b'.attached = some g ∧
        (b.works g = true ∨ b.nextGeneration ≤ g))
      fun _ b' => Succeeds b b' ∧ b'.attached = none := by
  have hlaunch : ∀ b₁ : Bridge, Succeeds b b₁ → b₁.attached = none →
      Ends launch b₁
        (fun _ b' => Succeeds b b' ∧ ∃ g, b'.attached = some g ∧ b.nextGeneration ≤ g)
        fun _ b' => Succeeds b b' ∧ b'.attached = none := by
    intro b₁ hsucceeds hnone
    refine (ends_launch_succeeds b₁).mono ?_ ?_
    · rintro _ b' ⟨hsucceeds', hattached⟩
      exact ⟨hsucceeds.trans hsucceeds', _, hattached, hsucceeds.next⟩
    · rintro _ b' ⟨hsucceeds', hattached⟩
      exact ⟨hsucceeds.trans hsucceeds', hattached.trans hnone⟩
  simp only [ensure, ends_bind, ends_get]
  split
  · next hrunning =>
      cases hattached : b.attached with
      | none => simp [isRunning, hattached] at hrunning
      | some g =>
          simp only [ends_bind, ends_get, hattached, ends_pure]
          refine ⟨.refl b, trivial, Or.inl ?_⟩
          simpa only [isRunning, hattached] using hrunning
  · cases hattached : b.attached with
    | none =>
        simp only [ends_bind, ends_get]
        refine (hlaunch b (.refl b) hattached).mono ?_ (fun _ _ h => h)
        rintro _ b' ⟨hsucceeds, g, hg, hnew⟩
        rw [hg]
        exact ⟨hsucceeds, hg, Or.inr hnew⟩
    | some dead =>
        simp only [ends_bind, ends_get, ends_set]
        have hloose : Succeeds b { b with attached := none } := .of_same (Or.inr rfl) rfl rfl
        refine (ends_release _ dead).mono ?_ (fun _ _ h => h.elim)
        rintro _ b₁ ⟨hlater, -, -⟩
        refine (hlaunch b₁ (hloose.trans (.of_later hlater)) hlater.attached).mono ?_
          (fun _ _ h => h)
        rintro _ b' ⟨hsucceeds, g, hg, hnew⟩
        rw [hg]
        exact ⟨hsucceeds, hg, Or.inr hnew⟩

/-! ## Calls -/

/-- The call leads to a succeeding bridge, and it fails only when no service runs. -/
def Tidy {α : Type} (c : Call α) (b : Bridge) : Prop :=
  Ends c b (fun _ => Succeeds b) fun _ b' => Succeeds b b' ∧ b'.isRunning = false

/-- The call is made while the instance is attached, and it is tidy and leaves it attached. -/
def TidyWith {α : Type} (g : Nat) (c : Call α) (b : Bridge) : Prop :=
  b.attached = some g → Ends c b (fun _ b' => Succeeds b b' ∧ b'.attached = some g)
    fun _ b' => Succeeds b b' ∧ b'.isRunning = false

namespace TidyWith

variable {α β : Type} {g : Nat}

theorem bind {c : Call α} {f : α → Call β} (hc : TidyWith g c b)
    (hf : ∀ a b', TidyWith g (f a) b') : TidyWith g (c >>= f) b := by
  intro hattached
  rw [ends_bind]
  refine (hc hattached).mono ?_ (fun _ _ h => h)
  rintro a b₁ ⟨hsucceeds, hattached₁⟩
  exact (hf a b₁ hattached₁).mono (fun _ _ h => ⟨hsucceeds.trans h.1, h.2⟩)
    fun _ _ h => ⟨hsucceeds.trans h.1, h.2⟩

theorem pause : TidyWith g Bridge.pause b := fun hattached =>
  ⟨.of_later (later_elapse b), (later_elapse b).attached.trans hattached⟩

theorem notify (c : Command) : TidyWith g (Bridge.notify g c) b := by
  intro hattached
  refine (ends_notify b g c).mono ?_ ?_
  · rintro _ b' ⟨hlater, -⟩
    exact ⟨.of_later hlater, hlater.attached.trans hattached⟩
  · rintro _ b' ⟨hlater, hstopped, -⟩
    exact ⟨.of_later hlater, isRunning_of_works (hlater.attached.trans hattached) hstopped⟩

theorem modify {f : Bridge → Bridge} (hattached : (f b).attached = b.attached)
    (hnext : (f b).nextGeneration = b.nextGeneration) (hinstances : (f b).instances = b.instances) :
    TidyWith g (modify f : Call PUnit) b := fun h =>
  ⟨.of_same (Or.inl hattached) hnext hinstances, hattached.trans h⟩

theorem record (filename content : String) : TidyWith g (Bridge.record filename content) b :=
  modify rfl rfl rfl

theorem tidy {c : Call α} (hc : TidyWith g c b) (hattached : b.attached = some g) : Tidy c b :=
  (hc hattached).mono (fun _ _ h => h.1) fun _ _ h => h

/-- Afterwards the instance need not stay attached any more. -/
theorem tidy_bind {c : Call α} {f : α → Call β} (hc : TidyWith g c b)
    (hattached : b.attached = some g) (hf : ∀ a b', b'.attached = some g → Tidy (f a) b') :
    Tidy (c >>= f) b := by
  unfold Tidy
  rw [ends_bind]
  refine (hc hattached).mono ?_ (fun _ _ h => h)
  rintro a b₁ ⟨hsucceeds, hattached₁⟩
  exact (hf a b₁ hattached₁).mono (fun _ _ h => hsucceeds.trans h)
    fun _ _ h => ⟨hsucceeds.trans h.1, h.2⟩

end TidyWith

/-- A file is closed on an instance that is there; none is launched for this. -/
theorem ends_closeFile_succeeds (b : Bridge) (filename : String) :
    Ends (closeFile filename) b
      (fun _ b' => Succeeds b b' ∧ b'.nextGeneration = b.nextGeneration)
      fun _ b' => Succeeds b b' ∧ b'.nextGeneration = b.nextGeneration ∧
        b'.isRunning = false := by
  simp only [closeFile, ends_bind, ends_get]
  split
  · simp only [ends_bind, ends_set]
    generalize hb₁ : ({ b with
      records := b.records.erase filename
      findings := b.findings.remove filename } : Bridge) = b₁
    have hclosed : Succeeds b b₁ := hb₁ ▸ .of_same (Or.inl rfl) rfl rfl
    have hnext : b₁.nextGeneration = b.nextGeneration := hb₁ ▸ rfl
    have hattached : b₁.attached = b.attached := hb₁ ▸ rfl
    split
    · next g hold =>
        split
        · refine (ends_notify b₁ g _).mono ?_ ?_
          · rintro _ b' ⟨hlater, -⟩
            exact ⟨hclosed.trans (.of_later hlater), hlater.nextGeneration.trans hnext⟩
          · rintro _ b' ⟨hlater, hstopped, -⟩
            exact ⟨hclosed.trans (.of_later hlater), hlater.nextGeneration.trans hnext,
              isRunning_of_works (hlater.attached.trans (hattached.trans hold)) hstopped⟩
        · exact ⟨hclosed, hnext⟩
    · exact ⟨hclosed, hnext⟩
  · exact ⟨.refl b, rfl⟩

namespace Tidy

variable {α β : Type}

theorem pure (a : α) : Tidy (Pure.pure a : Call α) b :=
  Succeeds.refl b

theorem bind {c : Call α} {f : α → Call β} (hc : Tidy c b) (hf : ∀ a b', Tidy (f a) b') :
    Tidy (c >>= f) b := by
  unfold Tidy
  rw [ends_bind]
  refine hc.mono (fun a b₁ hsucceeds => ?_) (fun _ _ h => h)
  exact (hf a b₁).mono (fun _ _ h => hsucceeds.trans h) fun _ _ h => ⟨hsucceeds.trans h.1, h.2⟩

/-- A call that begins with a look at the bridge. -/
theorem get_bind {f : Bridge → Call β} (hf : Tidy (f b) b) : Tidy (get >>= f) b := hf

theorem pause : Tidy Bridge.pause b :=
  Succeeds.of_later (later_elapse b)

theorem set (h : Succeeds b b') : Tidy (MonadStateOf.set b' : Call PUnit) b := h

/-- A call that goes on with the attached instance. -/
theorem ensure_bind {f : Nat → Call β} (hf : ∀ g b', b'.attached = some g → Tidy (f g) b') :
    Tidy (ensure >>= f) b := by
  unfold Tidy
  rw [ends_bind]
  refine (ends_ensure_succeeds b).mono ?_ ?_
  · rintro g b₁ ⟨hsucceeds, hattached, -⟩
    exact (hf g b₁ hattached).mono (fun _ _ h => hsucceeds.trans h)
      fun _ _ h => ⟨hsucceeds.trans h.1, h.2⟩
  · exact fun _ _ h => ⟨h.1, isRunning_of_attached_none h.2⟩

theorem start : Tidy Bridge.start b :=
  ensure_bind fun _ _ _ => pure _

theorem update (filename content : String) : Tidy (Bridge.update filename content) b := by
  unfold Bridge.update
  refine get_bind (ensure_bind fun g b₁ => TidyWith.tidy (TidyWith.pause.bind fun _ b₂ => ?_))
  have hopen : ∀ path b, TidyWith g (do
      Bridge.notify g (.openFile path content)
      Bridge.pause
      Bridge.record filename content) b := fun path b =>
    (TidyWith.notify _).bind fun _ _ => TidyWith.pause.bind fun _ _ => TidyWith.record _ _
  split
  · exact (TidyWith.notify _).bind fun _ _ => TidyWith.pause.bind fun _ _ => hopen _ _
  · exact hopen _ _

theorem openFile (filename content : String) : Tidy (Bridge.openFile filename content) b := by
  unfold Bridge.openFile
  refine get_bind ?_
  split
  · exact update filename content
  · exact ensure_bind fun g _ => TidyWith.tidy (TidyWith.pause.bind fun _ _ =>
      (TidyWith.notify _).bind fun _ _ => TidyWith.pause.bind fun _ _ => TidyWith.record _ _)

theorem reload : Tidy Bridge.reload b :=
  ensure_bind fun _ _ => TidyWith.tidy (TidyWith.pause.bind fun _ _ => TidyWith.notify _)

theorem requestDiagnostics (filenames : List String) (delay : Nat) :
    Tidy (Bridge.requestDiagnostics filenames delay) b := by
  unfold Bridge.requestDiagnostics
  refine get_bind ?_
  simp only
  split
  · exact pure _
  · exact ensure_bind fun _ _ => TidyWith.tidy (TidyWith.pause.bind fun _ _ => TidyWith.notify _)

theorem closeFile (filename : String) : Tidy (Bridge.closeFile filename) b :=
  (ends_closeFile_succeeds b filename).mono (fun _ _ h => h.1) fun _ _ h => ⟨h.1, h.2.2⟩

theorem forM {c : α → Call PUnit} (hc : ∀ a b, Tidy (c a) b) (items : List α) :
    Tidy (items.forM c) b := by
  induction items generalizing b with
  | nil => exact pure _
  | cons a rest ih =>
      rw [List.forM_eq_forM, List.forM_cons]
      exact (hc a b).bind fun _ _ => ih

theorem adopt (wanted : List (String × String)) : Tidy (Bridge.adopt wanted) b := by
  unfold Bridge.adopt
  exact get_bind ((forM (fun f _ => closeFile f) _).bind fun _ _ =>
    forM (fun (w : String × String) _ => openFile w.1 w.2) _)

theorem rename (old new content : String) : Tidy (Bridge.rename old new content) b := by
  unfold Bridge.rename
  refine get_bind (ensure_bind fun g b₁ hattached =>
    TidyWith.pause.tidy_bind hattached fun _ b₂ hattached₂ => ?_)
  have hopen : ∀ b', b'.attached = some g → Tidy (do
      Bridge.notify g (.openFile (b.servicePath new) content)
      Bridge.pause
      modify fun b => { b with
        records := (b.records.erase old).set new content
        findings := b.findings.remove old }
      Bridge.reload
      Bridge.pause
      let b ← get
      Bridge.requestDiagnostics b.openFiles b.settings.diagnosticsDelay.toNat) b' :=
    fun b' hattached => (TidyWith.notify _).tidy_bind hattached fun _ _ hattached =>
      TidyWith.pause.tidy_bind hattached fun _ _ _ =>
        bind (set (.of_same (Or.inl rfl) rfl rfl)) fun _ _ => reload.bind fun _ _ =>
          pause.bind fun _ _ => get_bind (requestDiagnostics _ _)
  split
  · exact (TidyWith.notify _).tidy_bind hattached₂ fun _ _ hattached =>
      TidyWith.pause.tidy_bind hattached fun _ b' hattached => hopen b' hattached
  · exact hopen b₂ hattached₂

end Tidy

theorem ends_navigate_succeeds (b : Bridge) (navigation : Navigation) (filename : String)
    (offset : Nat) :
    Ends (navigate navigation filename offset) b (fun _ => Succeeds b) fun _ => Succeeds b := by
  simp only [navigate, ends_bind, ends_get]
  split
  · exact .refl b
  · simp only [ends_bind, ends_pause]
    refine (ends_ensure_succeeds b).mono ?_ (fun _ _ h => h.1)
    rintro g b₁ ⟨hsucceeds, -, -⟩
    have hpaused := hsucceeds.trans (.of_later (later_elapse b₁))
    exact (ends_request b₁.elapse g _).mono (fun _ _ h => hpaused.trans (.of_later h.1))
      fun _ _ h => hpaused.trans (.of_later h.1)

/-- Afterwards no instance is attached, whatever happens meanwhile. -/
theorem ends_shutdown_succeeds (b : Bridge) :
    Ends shutdown b (fun _ b' => Succeeds b b' ∧ b'.attached = none) fun _ _ => False := by
  simp only [shutdown, ends_bind, ends_get]
  split
  · next g _ =>
      simp only [ends_bind, ends_set]
      have hloose : Succeeds b { b with attached := none } := .of_same (Or.inr rfl) rfl rfl
      refine (ends_release _ g).mono ?_ (fun _ _ h => h.elim)
      rintro _ b₁ ⟨hlater, -, -⟩
      exact ⟨(hloose.trans (.of_later hlater)).trans (.of_same (Or.inl rfl) rfl rfl),
        hlater.attached⟩
  · next hnone => exact ⟨.of_same (Or.inl rfl) rfl rfl, hnone⟩

/-! ## Moves -/

theorem Tidy.after {α : Type} {c : Call α} (h : Tidy c b) : Succeeds b (b.after c) :=
  Ends.always (h.mono (fun _ _ h => h) fun _ _ h => h.1)

/-- Every move leads to a succeeding bridge. -/
theorem succeeds_play (b : Bridge) (m : Move) : Succeeds b (b.play m) := by
  cases m with
  | start => exact Tidy.start.after
  | openFile filename content => exact (Tidy.openFile filename content).after
  | update filename content => exact (Tidy.update filename content).after
  | closeFile filename => exact (Tidy.closeFile filename).after
  | rename old new content => exact (Tidy.rename old new content).after
  | reload => exact Tidy.reload.after
  | requestDiagnostics filenames delay => exact (Tidy.requestDiagnostics filenames delay).after
  | navigate navigation filename offset =>
      exact Ends.always (ends_navigate_succeeds b navigation filename offset)
  | shutdown =>
      exact Ends.always ((ends_shutdown_succeeds b).mono (fun _ _ h => h.1) fun _ _ h => h.elim)
  | collect ticket navigation =>
      rcases play_collect_cases b ticket navigation with heq | heq
      · rw [heq]
        exact .refl b
      · rw [heq]
        exact .of_later (later_apply b (.expires ticket))
  | hear =>
      simp only [play]
      split
      · exact .refl b
      · next report rest _ =>
          obtain ⟨findings, heq⟩ := handle_eq { b with reports := rest } report
          rw [heq]
          exact .of_same (Or.inl rfl) rfl rfl
  | happens incident => exact .of_later (later_apply b incident)
  | plan hindrance launches incidents => exact .of_same (Or.inl rfl) rfl rfl

theorem closed_succeeds (names : Set String) (b : Bridge) : Closed names (Succeeds b) :=
  ⟨fun b' hb m _ => hb.trans (succeeds_play b' m),
    fun _ hb => hb.trans (.of_same (Or.inr rfl) rfl rfl)⟩

/-! ## Bringing the service back -/

theorem ends_start_provides (b : Bridge) :
    Ends start b (fun _ b' => Succeeds b b' ∧ Provides b b')
      fun _ b' => Succeeds b b' ∧ b'.isRunning = false := by
  simp only [start, ends_bind]
  refine (ends_ensure_succeeds b).mono ?_ ?_
  · rintro g b' ⟨hsucceeds, hattached, hg⟩
    exact ⟨hsucceeds, g, hattached, hg⟩
  · exact fun _ _ h => ⟨h.1, isRunning_of_attached_none h.2⟩

/-- After an installation the attached instance has been started at the beginning, or again. -/
theorem ends_reanalyze_provides (filenames : List String) (delay : Nat) (b : Bridge) :
    Ends (Room.reanalyze filenames delay) b (fun _ b' => Succeeds b b' ∧ Provides b b')
      fun _ b' => Succeeds b b' ∧ b'.isRunning = false := by
  have hneeds : ∀ (c : Nat → Command) (b₀ : Bridge), Ends (do
      let g ← ensure
      pause
      notify g (c g)) b₀ (fun _ b' => Succeeds b₀ b' ∧ Provides b₀ b')
        fun _ b' => Succeeds b₀ b' ∧ b'.isRunning = false := by
    intro c b₀
    simp only [ends_bind, ends_pause]
    refine (ends_ensure_succeeds b₀).mono ?_ ?_
    · rintro g b₁ ⟨hsucceeds, hattached, hg⟩
      have hpaused := hsucceeds.trans (.of_later (later_elapse b₁))
      refine (TidyWith.notify (c g) ((later_elapse b₁).attached.trans hattached)).mono ?_ ?_
      · exact fun _ _ h => ⟨hpaused.trans h.1, g, h.2, hg⟩
      · exact fun _ _ h => ⟨hpaused.trans h.1, h.2⟩
    · exact fun _ _ h => ⟨h.1, isRunning_of_attached_none h.2⟩
  have hthen : ∀ {b₀ b₁ : Bridge} {c : Call Unit}, Succeeds b₀ b₁ →
      Ends c b₁ (fun _ b' => Succeeds b₁ b' ∧ Provides b₁ b')
        (fun _ b' => Succeeds b₁ b' ∧ b'.isRunning = false) →
      Ends c b₁ (fun _ b' => Succeeds b₀ b' ∧ Provides b₀ b')
        fun _ b' => Succeeds b₀ b' ∧ b'.isRunning = false := fun hsucceeds hc =>
    hc.mono (fun _ _ h => ⟨hsucceeds.trans h.1, h.2.of_succeeds hsucceeds⟩)
      fun _ _ h => ⟨hsucceeds.trans h.1, h.2⟩
  unfold Room.reanalyze
  simp only [ends_bind]
  refine (ends_start_provides b).mono ?_ (fun _ _ h => h)
  rintro _ b₁ ⟨hsucceeds₁, hprovides₁⟩
  refine (hthen hsucceeds₁ (hneeds (fun _ => .reloadProjects) b₁)).mono ?_ (fun _ _ h => h)
  rintro _ b₂ ⟨hsucceeds₂, hprovides₂⟩
  unfold requestDiagnostics
  simp only [ends_bind, ends_get]
  split
  · exact ⟨hsucceeds₂, hprovides₂⟩
  · exact hthen hsucceeds₂ (hneeds (fun _ => .findErrors _ delay) b₂)

end Bridge
end Notebook
