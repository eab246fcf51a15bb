import Notebook.Proofs.Service.Pauses

/-!
# Launches

What an instance has been told is read off the trace: `told trace g` folds the requests
queued to the instance `g` since its launch, oldest first, into a memory of paths and
contents.  Opening a path stores its content, closing it forgets it, and no other command
matters.

A call that needs the service first makes sure that a working instance is attached.

* `ends_openAll`: opening files one by one tells the instance of all of them.
* `ends_launch`: a launched instance has been told of every record.
* `ends_ensure`: the records stay, and what is attached afterwards is either the instance
  that worked before, or a new one that has been told of every record.
* `ends_ensure_count`: an instance is launched if and only if none is running.
-/

set_option autoImplicit false

namespace Notebook

/-- The contents of files by path, as a service instance knows them. -/
abbrev Memory := String → Option String

/-- What a command does to the memory of the instance that obeys it. -/
def Command.remember : Command → Memory → Memory
  | .openFile path content, m => fun p => if p = path then some content else m p
  | .closeFile path, m => fun p => if p = path then none else m p
  | _, m => m

/-- What an instance has been told since its launch, if it obeys the requests in the order
of the queue.  The trace stands newest first. -/
def told : List Deed → Nat → Memory
  | [], _ => fun _ => none
  | .queued g' r :: earlier, g =>
    if g' = g then r.command.remember (told earlier g) else told earlier g
  | .launched g' :: earlier, g => if g' = g then fun _ => none else told earlier g
  | .released _ :: earlier, g => told earlier g

namespace Bridge

open Call

/-- Opens files in a memory, one after the other. -/
def opened (b : Bridge) (records : List (String × String)) (m : Memory) : Memory :=
  records.foldl (fun m r => (Command.openFile (b.servicePath r.1) r.2).remember m) m

/-- A bridge with the same files. -/
structure SameFiles (b b' : Bridge) : Prop where
  records : b'.records = b.records
  projectDir : b'.projectDir = b.projectDir

namespace SameFiles

theorem refl (b : Bridge) : SameFiles b b :=
  ⟨rfl, rfl⟩

theorem trans {a b c : Bridge} (h : SameFiles a b) (h' : SameFiles b c) : SameFiles a c :=
  ⟨h'.records.trans h.records, h'.projectDir.trans h.projectDir⟩

theorem servicePath {b b' : Bridge} (h : SameFiles b b') : b'.servicePath = b.servicePath := by
  funext filename
  simp only [Bridge.servicePath, sourceDir, h.projectDir]

theorem sortedRecords {b b' : Bridge} (h : SameFiles b b') :
    b'.sortedRecords = b.sortedRecords := by
  simp only [Bridge.sortedRecords, h.records]

theorem opened {b b' : Bridge} (h : SameFiles b b') : b'.opened = b.opened := by
  funext records m
  simp only [Bridge.opened, h.servicePath]

theorem of_later {b b' : Bridge} (h : Later b b') : SameFiles b b' :=
  ⟨h.records, h.projectDir⟩

end SameFiles

/-! ## Sending -/

/-- A notification reaches the memory of its instance, or the instance has stopped. -/
theorem ends_notify_told (b : Bridge) (g : Nat) (c : Command) :
    Ends (notify g c) b
      (fun _ b' => Later b b' ∧ told b'.trace g = c.remember (told b.trace g))
      fun _ b' => Later b b' ∧ b'.works g = false := by
  refine (ends_notify b g c).mono ?_ ?_
  · rintro _ b' ⟨hlater, n, htrace⟩
    refine ⟨hlater, ?_⟩
    rw [htrace]
    exact if_pos rfl
  · rintro _ b' ⟨hlater, hstopped, _⟩
    exact ⟨hlater, hstopped⟩

/-- Opening several files tells the instance of all of them, or it has stopped. -/
theorem ends_openAll (g : Nat) (records : List (String × String)) (b : Bridge) :
    Ends (openAll g records) b
      (fun _ b' => Later b b' ∧ told b'.trace g = b.opened records (told b.trace g))
      fun _ b' => Later b b' ∧ b'.works g = false := by
  induction records generalizing b with
  | nil => exact ⟨Later.refl b, rfl⟩
  | cons r rest ih =>
      obtain ⟨filename, content⟩ := r
      simp only [openAll, ends_bind, ends_get, ends_pause]
      refine (ends_notify_told b g _).mono ?_ (fun _ _ h => h)
      rintro _ b₁ ⟨hlater, htold⟩
      have hpause := hlater.trans (later_elapse b₁)
      refine (ih b₁.elapse).mono ?_ ?_
      · rintro _ b' ⟨hrest, hall⟩
        refine ⟨hpause.trans hrest, ?_⟩
        rw [hall, trace_elapse, htold]
        simp only [opened, hpause.servicePath, List.foldl_cons]
      · rintro _ b' ⟨hrest, hstopped⟩
        exact ⟨hpause.trans hrest, hstopped⟩

/-! ## Launching -/

/-- Only the launches to come are changed by asking for the next one. -/
theorem ends_nextLaunch (b : Bridge) :
    Ends nextLaunch b
      (fun _ b' => ∃ launches, b' = { b with launches }) fun _ _ => False := by
  simp only [nextLaunch, ends_bind, ends_get]
  split
  · exact ⟨b.launches, rfl⟩
  · simp only [ends_bind, ends_set, ends_pure]
    exact ⟨_, rfl⟩

/-- A launch attaches an instance that has been told of every record.  If it fails,
what was attached before stays so. -/
theorem ends_launch (b : Bridge) :
    Ends launch b
      (fun _ b' => SameFiles b b' ∧ b'.attached = some b.nextGeneration ∧
        told b'.trace b.nextGeneration = b.opened b.sortedRecords fun _ => none)
      fun _ b' => SameFiles b b' ∧ b'.attached = b.attached := by
  simp only [launch, ends_bind]
  refine (ends_nextLaunch b).mono ?_ (fun _ _ h => h.elim)
  rintro problem _ ⟨launches, rfl⟩
  cases problem with
  | some problem => exact ⟨⟨rfl, rfl⟩, rfl⟩
  | none =>
      simp only [ends_bind, ends_get, ends_set, ends_perform]
      -- Of the new instance only this matters: it has not been told anything.
      generalize hb₁ : ({ b with
        nextGeneration := b.nextGeneration + 1
        instances := b.instances.set b.nextGeneration ⟨1, true, true⟩
        findings := .empty
        launches
        trace := .launched b.nextGeneration :: b.trace } : Bridge) = b₁
      have hfiles : SameFiles b b₁ := by
        subst hb₁
        exact ⟨rfl, rfl⟩
      have hattached : b₁.attached = b.attached := by
        subst hb₁
        rfl
      have hblank : told b₁.trace b.nextGeneration = fun _ => none := by
        subst hb₁
        exact if_pos rfl
      clear hb₁
      change Ends (openAll b.nextGeneration b.sortedRecords) b₁ _ _
      refine (ends_openAll _ _ b₁).mono ?_ ?_
      · rintro _ b₂ ⟨hlater, htold⟩
        rw [hblank, hfiles.opened] at htold
        have hfiles₂ := hfiles.trans (SameFiles.of_later hlater)
        -- Asking for the findings of the records, if there are any, tells nothing of files.
        split
        · exact ⟨⟨hfiles₂.records, hfiles₂.projectDir⟩, rfl, htold⟩
        · simp only [ends_bind, ends_pause, ends_modify]
          refine (ends_notify_told b₂ _ _).mono ?_ ?_
          · rintro _ b₃ ⟨hlater₃, htold₃⟩
            have hfiles₃ := hfiles₂.trans
              (SameFiles.of_later (hlater₃.trans (later_elapse b₃)))
            refine ⟨⟨hfiles₃.records, hfiles₃.projectDir⟩, trivial, ?_⟩
            rw [trace_elapse, htold₃, ← htold]
            rfl
          · rintro _ b₃ ⟨hlater₃, _⟩
            exact ⟨hfiles₂.trans (SameFiles.of_later hlater₃),
              (hlater₃.attached.trans hlater.attached).trans hattached⟩
      · rintro _ b₂ ⟨hlater, _⟩
        exact ⟨hfiles.trans (SameFiles.of_later hlater), hlater.attached.trans hattached⟩

/-- Afterwards the instance that worked before is attached, or one that has been told of
every record.  If that fails, none is attached. -/
theorem ends_ensure (b : Bridge) :
    Ends ensure b
      (fun g b' => SameFiles b b' ∧ b'.attached = some g ∧
        (b' = b ∨ told b'.trace g = b.opened b.sortedRecords fun _ => none))
      fun _ b' => SameFiles b b' ∧ b'.attached = none := by
  have hlaunch : ∀ b₁ : Bridge, SameFiles b b₁ → b₁.attached = none →
      Ends launch b₁
        (fun _ b' => SameFiles b b' ∧ ∃ g, b'.attached = some g ∧
          told b'.trace g = b.opened b.sortedRecords fun _ => none)
        fun _ b' => SameFiles b b' ∧ b'.attached = none := by
    intro b₁ hfiles hnone
    refine (ends_launch b₁).mono ?_ ?_
    · rintro _ b' ⟨hfiles', hattached, htold⟩
      rw [hfiles.opened, hfiles.sortedRecords] at htold
      exact ⟨hfiles.trans hfiles', _, hattached, htold⟩
    · rintro _ b' ⟨hfiles', hattached⟩
      exact ⟨hfiles.trans hfiles', hattached.trans hnone⟩
  simp only [ensure, ends_bind, ends_get]
  split
  · next hrunning =>
      cases hattached : b.attached with
      | none => simp [isRunning, hattached] at hrunning
      | some g =>
          simp only [ends_bind, ends_get, hattached, ends_pure]
          exact ⟨SameFiles.refl b, trivial, Or.inl trivial⟩
  · cases hattached : b.attached with
    | none =>
        simp only [ends_bind, ends_get]
        refine (hlaunch b (SameFiles.refl b) hattached).mono ?_ (fun _ _ h => h)
        rintro _ b' ⟨hfiles, g, hg, htold⟩
        rw [hg]
        exact ⟨hfiles, hg, Or.inr htold⟩
    | some dead =>
        simp only [ends_bind, ends_get, ends_set]
        refine (ends_release _ dead).mono ?_ (fun _ _ h => h.elim)
        rintro _ b₁ ⟨hlater, _, _⟩
        refine (hlaunch b₁ ⟨hlater.records, hlater.projectDir⟩ hlater.attached).mono ?_
          (fun _ _ h => h)
        rintro _ b' ⟨hfiles, g, hg, htold⟩
        rw [hg]
        exact ⟨hfiles, hg, Or.inr htold⟩

/-! ## Counting launches -/

theorem ends_launch_count (b : Bridge) :
    Ends launch b (fun _ b' => b'.nextGeneration = b.nextGeneration + 1) fun _ _ => True := by
  simp only [launch, ends_bind]
  refine (ends_nextLaunch b).mono ?_ (fun _ _ h => h.elim)
  rintro problem _ ⟨launches, rfl⟩
  cases problem with
  | some problem => exact trivial
  | none =>
      simp only [ends_bind, ends_get, ends_set, ends_perform]
      refine (ends_openAll _ _ _).mono ?_ (fun _ _ _ => trivial)
      rintro _ b₁ ⟨hlater, _⟩
      split
      · exact hlater.nextGeneration
      · simp only [ends_bind, ends_pause, ends_modify]
        refine (ends_notify b₁ _ _).mono ?_ (fun _ _ _ => trivial)
        rintro _ b₂ ⟨hlater₂, _⟩
        exact ((hlater.trans hlater₂).trans (later_elapse b₂)).nextGeneration

/-- A running instance is kept; otherwise one is launched. -/
theorem ends_ensure_count (b : Bridge) :
    Ends ensure b
      (fun g b' => b'.nextGeneration = (b.nextGeneration + if b.isRunning then 0 else 1) ∧
        (b.isRunning = true → b' = b ∧ b.attached = some g ∧ b.works g = true))
      fun _ _ => True := by
  simp only [ensure, ends_bind, ends_get]
  split
  · next hrunning =>
      cases hattached : b.attached with
      | none => simp [isRunning, hattached] at hrunning
      | some g =>
          simp only [ends_bind, ends_get, hattached, ends_pure]
          refine ⟨by simp, fun _ => ⟨trivial, trivial, ?_⟩⟩
          simpa only [isRunning, hattached] using hrunning
  · next hstopped =>
      split
      · simp only [ends_bind, ends_get, ends_set]
        refine (ends_release _ _).mono ?_ (fun _ _ h => h.elim)
        rintro _ b₁ ⟨hlater, _, _⟩
        refine (ends_launch_count b₁).mono (fun _ b' hcount => ?_) (fun _ _ h => h)
        split
        · exact ⟨hcount.trans (congrArg (· + 1) hlater.nextGeneration),
            fun hrunning => absurd hrunning hstopped⟩
        · exact trivial
      · simp only [ends_bind, ends_get]
        refine (ends_launch_count b).mono (fun _ b' hcount => ?_) (fun _ _ h => h)
        split
        · exact ⟨hcount, fun hrunning => absurd hrunning hstopped⟩
        · exact trivial

end Bridge
end Notebook
