import Notebook.Proofs.Service.Records

/-!
# What calls do to the records

Every call ends with the records that its success or its failure stands for, and a
faithful bridge stays faithful in both cases.  `Leaves names b records b'` says this of a
call that was made in `b` and has left `b'`.

In the middle of a call the attached instance is ahead of the records: `Telling names b g
records b'` says that the call made in `b` is talking to `g`, which by now has been told
`records`.  `ends_ensure_telling` begins such a talk, the lemmas on `notify` go on with
it, and `Telling.leaves` ends it.

* `ends_openFile`, `ends_update`, `ends_closeFile`, `ends_rename`, `ends_adopt`: the calls
  that change the records.
* `ends_start`, `ends_reload`, `ends_requestDiagnostics`, `ends_navigate`, `ends_shutdown`:
  the calls that keep them.
-/

set_option autoImplicit false

namespace Notebook
namespace Bridge

open Call

variable {names : Set String}

/-- A call made in `b` has left `b'` with these records. -/
structure Leaves (names : Set String) (b : Bridge) (records : Table String String)
    (b' : Bridge) : Prop where
  records : b'.records = records
  projectDir : b'.projectDir = b.projectDir
  faithful : Faithful names b → Faithful names b'

/-- A call made in `b` is talking to `g`, which has been told these records by now. -/
structure Telling (names : Set String) (b : Bridge) (g : Nat)
    (records : Table String String) (b' : Bridge) : Prop where
  files : SameFiles b b'
  attached : b'.attached = some g
  sound : Faithful names b → Within names records ∧ records.keys.Nodup
  shows : Faithful names b → b'.works g = true →
    Memory.Shows (told b'.trace g) b.servicePath records

namespace Leaves

variable {b b' : Bridge} {records : Table String String}

/-- What a later call leaves was left by the earlier one before. -/
theorem trans {a : Bridge} {records' : Table String String} (h : Leaves names a records b)
    (h' : Leaves names b records' b') : Leaves names a records' b' :=
  ⟨h'.records, h'.projectDir.trans h.projectDir, fun hb => h'.faithful (h.faithful hb)⟩

/-- A later call that keeps the records. -/
theorem keep {b'' : Bridge} (h : Leaves names b records b')
    (h' : Leaves names b' b'.records b'') : Leaves names b records b'' :=
  h.trans (h.records ▸ h')

/-- A faithful bridge stays faithful if the attached instance has been told the records. -/
theorem of_shows (hrecords : b'.records = records) (hdir : b'.projectDir = b.projectDir)
    (hsound : Faithful names b → Within names records ∧ records.keys.Nodup)
    (hshows : Faithful names b → ∀ g, b'.attached = some g → b'.works g = true →
      Memory.Shows (told b'.trace g) b.servicePath records) : Leaves names b records b' := by
  have hpath : b'.servicePath = b.servicePath := by
    funext filename
    simp only [Bridge.servicePath, sourceDir, hdir]
  subst hrecords
  refine ⟨rfl, hdir, fun hb => ⟨?_, (hsound hb).1, (hsound hb).2, ?_⟩⟩
  · rw [hpath]
    exact hb.apart
  · rw [hpath]
    exact hshows hb

/-- Without a working instance there is nobody to be told anything. -/
theorem of_stopped (h : SameFiles b b')
    (hstopped : ∀ g, b'.attached = some g → b'.works g = false) :
    Leaves names b b.records b' := by
  refine of_shows h.records h.projectDir (fun hb => ⟨hb.within, hb.single⟩) ?_
  intro _ g hg hworks
  rw [hstopped g hg] at hworks
  cases hworks

/-- Incidents and pauses leave the records. -/
theorem of_later (h : Later b b') (htrace : b'.trace = b.trace) :
    Leaves names b b.records b' := by
  refine of_shows h.records h.projectDir (fun hb => ⟨hb.within, hb.single⟩) ?_
  intro hb g hg hworks
  rw [h.attached] at hg
  rw [htrace]
  exact hb.current g hg (h.works g hworks)

theorem elapse (h : Leaves names b records b') : Leaves names b records b'.elapse :=
  h.keep (of_later (later_elapse b') (trace_elapse b'))

/-- Findings are not among what a faithful bridge has to know. -/
theorem findings (h : Leaves names b records b') (findings : Findings) :
    Leaves names b records { b' with findings } :=
  ⟨h.records, h.projectDir, fun hb =>
    ⟨(h.faithful hb).apart, (h.faithful hb).within, (h.faithful hb).single,
      (h.faithful hb).current⟩⟩

end Leaves

namespace Telling

variable {b b' : Bridge} {g : Nat} {records : Table String String}

/-- A later bridge in which nothing more has been said. -/
theorem later {b'' : Bridge} (h : Telling names b g records b') (hlater : Later b' b'')
    (htrace : b''.trace = b'.trace) : Telling names b g records b'' := by
  refine ⟨h.files.trans (SameFiles.of_later hlater), hlater.attached.trans h.attached,
    h.sound, ?_⟩
  intro hb hworks
  rw [htrace]
  exact h.shows hb (hlater.works g hworks)

theorem elapse (h : Telling names b g records b') : Telling names b g records b'.elapse :=
  h.later (later_elapse b') (trace_elapse b')

/-- One more command to the instance, which has the effect `records'`. -/
theorem ends_notify (h : Telling names b g records b') (c : Command)
    (records' : Table String String)
    (hsound : Faithful names b → Within names records' ∧ records'.keys.Nodup)
    (htell : ∀ m : Memory, Faithful names b → m.Shows b.servicePath records →
      (c.remember m).Shows b.servicePath records') :
    Ends (notify g c) b' (fun _ => Telling names b g records')
      fun _ => Leaves names b b.records := by
  refine (ends_notify_told b' g c).mono ?_ ?_
  · rintro _ b'' ⟨hlater, htold⟩
    refine ⟨h.files.trans (SameFiles.of_later hlater), hlater.attached.trans h.attached,
      hsound, ?_⟩
    intro hb hworks
    rw [htold]
    exact htell _ hb (h.shows hb (hlater.works g hworks))
  · rintro _ b'' ⟨hlater, hstopped⟩
    refine Leaves.of_stopped (h.files.trans (SameFiles.of_later hlater)) ?_
    intro g' hg'
    rw [hlater.attached, h.attached] at hg'
    obtain rfl := Option.some.inj hg'
    exact hstopped

/-- The instance is told to open a file. -/
theorem ends_notify_openFile (h : Telling names b g records b') {f : String}
    (hf : f ∈ names) (c : String) :
    Ends (notify g (.openFile (b.servicePath f) c)) b'
      (fun _ => Telling names b g (records.set f c)) fun _ => Leaves names b b.records :=
  h.ends_notify _ _
    (fun hb => ⟨within_set (h.sound hb).1 hf c,
      Table.nodup_keys_set records (h.sound hb).2 f c⟩)
    (fun _ hb hm => shows_openFile hb.apart (h.sound hb).1 hm hf c)

/-- The instance is told to close a file. -/
theorem ends_notify_closeFile (h : Telling names b g records b') {f : String}
    (hf : Faithful names b → f ∈ names) :
    Ends (notify g (.closeFile (b.servicePath f))) b'
      (fun _ => Telling names b g (records.erase f)) fun _ => Leaves names b b.records :=
  h.ends_notify _ _
    (fun hb => ⟨within_erase (h.sound hb).1 f, Table.nodup_keys_erase records (h.sound hb).2 f⟩)
    (fun _ hb hm => shows_closeFile hb.apart (h.sound hb).1 hm (hf hb))

/-- The instance is told something that is not about its memory. -/
theorem ends_notify_other (h : Telling names b g records b') {c : Command}
    (hc : ∀ m, c.remember m = m) :
    Ends (notify g c) b' (fun _ => Telling names b g records)
      fun _ => Leaves names b b.records :=
  h.ends_notify c records h.sound (fun m _ hm => (hc m).symm ▸ hm)

/-- The talk ends when the records have caught up. -/
theorem leaves {b'' : Bridge} (h : Telling names b g records b')
    (hrecords : b''.records = records) (hdir : b''.projectDir = b'.projectDir)
    (hattached : b''.attached = b'.attached) (htrace : b''.trace = b'.trace)
    (hinstances : b''.instances = b'.instances) : Leaves names b records b'' := by
  refine Leaves.of_shows hrecords (hdir.trans h.files.projectDir) h.sound ?_
  intro hb g' hg' hworks
  rw [hattached, h.attached] at hg'
  obtain rfl := Option.some.inj hg'
  have hworks' : b'.works g = true := by
    simp only [works, hinstances] at hworks ⊢
    exact hworks
  rw [htrace]
  exact h.shows hb hworks'

/-- A talk about the records as they are leaves them so. -/
theorem keeps (h : Telling names b g b.records b') : Leaves names b b.records b' :=
  h.leaves h.files.records rfl rfl rfl rfl

end Telling

/-- With a working instance a talk can begin. -/
theorem ends_ensure_telling (b : Bridge) :
    Ends ensure b (fun g => Telling names b g b.records)
      fun _ => Leaves names b b.records := by
  refine (ends_ensure b).mono ?_ ?_
  · rintro g b' ⟨hfiles, hattached, htold⟩
    refine ⟨hfiles, hattached, fun hb => ⟨hb.within, hb.single⟩, ?_⟩
    intro hb hworks
    rcases htold with rfl | htold
    · exact hb.current g hattached hworks
    · rw [htold]
      exact hb.shows_relaunch
  · rintro _ b' ⟨hfiles, hnone⟩
    refine Leaves.of_stopped hfiles ?_
    intro g hg
    rw [hnone] at hg
    cases hg

/-- The attached instance has been told the records, whether it still works or not. -/
theorem ends_ensure_shown {b : Bridge} (hb : Faithful names b) :
    Ends ensure b
      (fun g b' => SameFiles b b' ∧
        Memory.Shows (told b'.trace g) b.servicePath b.records)
      fun _ _ => True := by
  refine ((ends_ensure b).and (ends_ensure_count b)).mono ?_ (fun _ _ _ => trivial)
  rintro g b' ⟨⟨hfiles, _, htold⟩, hcount, hkept⟩
  refine ⟨hfiles, ?_⟩
  cases hrunning : b.isRunning with
  | true =>
      obtain ⟨rfl, hattached, hworks⟩ := hkept hrunning
      exact hb.current g hattached hworks
  | false =>
      rcases htold with rfl | htold
      · simp [hrunning] at hcount
      · rw [htold]
        exact hb.shows_relaunch

/-! ## Calls that keep the records -/

theorem ends_start (b : Bridge) :
    Ends start b (fun _ => Leaves names b b.records) fun _ => Leaves names b b.records := by
  simp only [start, ends_bind, ends_pure]
  exact (ends_ensure_telling b).mono (fun _ _ h => h.keeps) (fun _ _ h => h)

theorem ends_reload (b : Bridge) :
    Ends reload b (fun _ => Leaves names b b.records) fun _ => Leaves names b b.records := by
  simp only [reload, ends_bind, ends_pause]
  refine (ends_ensure_telling b).mono ?_ (fun _ _ h => h)
  intro g b₁ h₁
  exact (h₁.elapse.ends_notify_other fun _ => rfl).mono (fun _ _ h => h.keeps)
    (fun _ _ h => h)

theorem ends_requestDiagnostics (b : Bridge) (filenames : List String) (delay : Nat) :
    Ends (requestDiagnostics filenames delay) b (fun _ => Leaves names b b.records)
      fun _ => Leaves names b b.records := by
  simp only [requestDiagnostics, ends_bind, ends_get]
  split
  · exact Leaves.of_later (Later.refl b) rfl
  · simp only [ends_bind, ends_pause]
    refine (ends_ensure_telling b).mono ?_ (fun _ _ h => h)
    intro g b₁ h₁
    exact (h₁.elapse.ends_notify_other fun _ => rfl).mono (fun _ _ h => h.keeps)
      (fun _ _ h => h)

theorem ends_navigate (b : Bridge) (navigation : Navigation) (filename : String)
    (offset : Nat) :
    Ends (navigate navigation filename offset) b (fun _ => Leaves names b b.records)
      fun _ => Leaves names b b.records := by
  simp only [navigate, ends_bind, ends_get]
  split
  · exact Leaves.of_later (Later.refl b) rfl
  · simp only [ends_bind, ends_pause]
    refine (ends_ensure_telling b).mono ?_ (fun _ _ h => h)
    intro g b₁ h₁
    refine (ends_request _ g _).mono ?_ ?_
    · rintro _ b' ⟨hlater, n, htrace⟩
      refine Telling.keeps (g := g) ⟨h₁.elapse.files.trans (SameFiles.of_later hlater),
        hlater.attached.trans h₁.elapse.attached, h₁.sound, ?_⟩
      intro hb hworks
      have htold : told b'.trace g = told b₁.elapse.trace g := by
        rw [htrace]
        exact if_pos rfl
      rw [htold]
      exact h₁.elapse.shows hb (hlater.works g hworks)
    · rintro _ b' ⟨hlater, hstopped, htrace⟩
      exact (h₁.elapse.later hlater htrace).keeps

theorem ends_shutdown (b : Bridge) :
    Ends shutdown b (fun _ => Leaves names b b.records) fun _ _ => False := by
  simp only [shutdown, ends_bind, ends_get]
  split
  · simp only [ends_bind, ends_set, ends_modify]
    refine (ends_release _ _).mono ?_ (fun _ _ h => h)
    rintro _ b' ⟨hlater, _, _⟩
    have hgone : Leaves names b b.records b' := by
      refine Leaves.of_stopped ⟨hlater.records, hlater.projectDir⟩ ?_
      intro g hg
      rw [hlater.attached] at hg
      cases hg
    exact hgone.findings .empty
  · exact (Leaves.of_later (Later.refl b) rfl).findings .empty

/-! ## Calls that change the records -/

theorem ends_update (b : Bridge) {filename : String} (hname : filename ∈ names)
    (content : String) :
    Ends (update filename content) b
      (fun _ => Leaves names b (b.records.set filename content))
      fun _ => Leaves names b b.records := by
  -- What the instance has been told before may lack the file already; opening it makes up
  -- for that, and the record follows.
  have hopen : ∀ b₁ g records, Telling names b g records b₁ →
      (∀ f, (records.set filename content).find? f =
        (b.records.set filename content).find? f) →
      Ends (notify g (.openFile (b.servicePath filename) content)) b₁
        (fun _ b₂ => Ends (record filename content) b₂.elapse
          (fun _ => Leaves names b (b.records.set filename content))
          fun _ => Leaves names b b.records)
        fun _ => Leaves names b b.records := by
    intro b₁ g records h₁ hset
    have hnotify := h₁.ends_notify (.openFile (b.servicePath filename) content)
      (b.records.set filename content)
      (fun hb => ⟨within_set hb.within hname content,
        Table.nodup_keys_set b.records hb.single filename content⟩)
      (fun m hb hm => Memory.Shows.congr
        (shows_openFile hb.apart (h₁.sound hb).1 hm hname content) hset)
    refine hnotify.mono ?_ (fun _ _ h => h)
    intro _ b₂ h₂
    simp only [record, ends_modify]
    have hrecords : b₂.elapse.records = b.records := h₂.elapse.files.records
    exact h₂.elapse.leaves (congrArg (·.set filename content) hrecords) rfl rfl rfl rfl
  simp only [update, ends_bind, ends_get, ends_pause]
  refine (ends_ensure_telling b).mono ?_ (fun _ _ h => h)
  intro g b₁ h₁
  split
  · simp only [ends_bind, ends_pause]
    refine (h₁.elapse.ends_notify_closeFile fun _ => hname).mono ?_ (fun _ _ h => h)
    intro _ b₂ h₂
    refine hopen _ g _ h₂.elapse fun f => ?_
    simp only [Table.find?_set, Table.find?_erase]
    split <;> rfl
  · simp only [ends_bind, ends_pause]
    exact hopen _ g _ h₁.elapse fun _ => rfl

theorem ends_openFile (b : Bridge) {filename : String} (hname : filename ∈ names)
    (content : String) :
    Ends (openFile filename content) b
      (fun _ => Leaves names b (b.records.set filename content))
      fun _ => Leaves names b b.records := by
  simp only [openFile, ends_bind, ends_get]
  split
  · exact ends_update b hname content
  · simp only [ends_bind, ends_pause, record, ends_modify]
    refine (ends_ensure_telling b).mono ?_ (fun _ _ h => h)
    intro g b₁ h₁
    refine (h₁.elapse.ends_notify_openFile hname content).mono ?_ (fun _ _ h => h)
    intro _ b₂ h₂
    have hrecords : b₂.elapse.records = b.records := h₂.elapse.files.records
    exact h₂.elapse.leaves (congrArg (·.set filename content) hrecords) rfl rfl rfl rfl

/-- A file is closed in any case, also if the service cannot be told. -/
theorem ends_closeFile (b : Bridge) (filename : String) :
    Ends (closeFile filename) b (fun _ => Leaves names b (b.records.erase filename))
      fun _ => Leaves names b (b.records.erase filename) := by
  simp only [closeFile, ends_bind, ends_get]
  split
  · next hopen =>
      have hname : Faithful names b → filename ∈ names := by
        intro hb
        obtain ⟨content, hfind⟩ := Option.isSome_iff_exists.mp hopen
        exact hb.within filename content hfind
      have hsound : Faithful names b → Within names (b.records.erase filename) ∧
          (b.records.erase filename).keys.Nodup := fun hb =>
        ⟨within_erase hb.within filename, Table.nodup_keys_erase _ hb.single filename⟩
      simp only [ends_bind, ends_set]
      -- The record is gone by now; a working instance has to be told.
      split
      · next g hattached =>
          split
          · refine (ends_notify_told _ g _).mono ?_ ?_
            · rintro _ b' ⟨hlater, htold⟩
              refine Leaves.of_shows hlater.records hlater.projectDir hsound ?_
              intro hb g' hg' hworks
              rw [hlater.attached, hattached] at hg'
              obtain rfl := Option.some.inj hg'
              rw [htold]
              exact shows_closeFile hb.apart hb.within
                (hb.current g hattached (hlater.works g hworks)) (hname hb)
            · rintro _ b' ⟨hlater, hstopped⟩
              refine Leaves.of_shows hlater.records hlater.projectDir hsound ?_
              intro _ g' hg' hworks
              rw [hlater.attached, hattached] at hg'
              obtain rfl := Option.some.inj hg'
              rw [hstopped] at hworks
              cases hworks
          · next hstopped =>
              refine Leaves.of_shows rfl rfl hsound ?_
              intro _ g' hg' hworks
              rw [hattached] at hg'
              obtain rfl := Option.some.inj hg'
              exact absurd hworks hstopped
      · next hnone =>
          refine Leaves.of_shows rfl rfl hsound ?_
          intro _ g hg _
          rw [hnone] at hg
          cases hg
  · next hclosed =>
      rw [Bool.not_eq_true, isOpen, Table.contains_eq_false_iff] at hclosed
      rw [Table.erase_of_find?_eq_none _ _ hclosed]
      exact Leaves.of_later (Later.refl b) rfl

/-- A renamed file is under its new name; if that fails, this may have been done already
or not. -/
theorem ends_rename (b : Bridge) (old : String) {new : String} (hnew : new ∈ names)
    (content : String) :
    Ends (rename old new content) b
      (fun _ => Leaves names b ((b.records.erase old).set new content))
      fun _ b' => Leaves names b b.records b' ∨
        Leaves names b ((b.records.erase old).set new content) b' := by
  -- From the moment when the instance knows the new file, the records have been moved.
  have hopen : ∀ b₁ g, Telling names b g (b.records.erase old) b₁ →
      Ends (do
        notify g (.openFile (b.servicePath new) content)
        pause
        modify fun b => { b with
          records := (b.records.erase old).set new content
          findings := b.findings.remove old }
        reload
        pause
        let b ← get
        requestDiagnostics b.openFiles b.settings.diagnosticsDelay.toNat) b₁
        (fun _ => Leaves names b ((b.records.erase old).set new content))
        fun _ b' => Leaves names b b.records b' ∨
          Leaves names b ((b.records.erase old).set new content) b' := by
    intro b₁ g h₁
    simp only [ends_bind, ends_modify, ends_pause, ends_get]
    refine (h₁.ends_notify_openFile hnew content).mono ?_ (fun _ _ h => Or.inl h)
    intro _ b₂ h₂
    have hrecords : b₂.elapse.records = b.records := h₂.elapse.files.records
    have h₃ : Leaves names b ((b.records.erase old).set new content) { b₂.elapse with
        records := (b₂.elapse.records.erase old).set new content
        findings := b₂.elapse.findings.remove old } :=
      h₂.elapse.leaves (congrArg (fun t => (t.erase old).set new content) hrecords)
        rfl rfl rfl rfl
    refine (ends_reload _).mono ?_ (fun _ _ h => Or.inr (h₃.keep h))
    intro _ b₄ h₄
    exact (ends_requestDiagnostics _ _ _).mono (fun _ _ h => (h₃.keep h₄).elapse.keep h)
      (fun _ _ h => Or.inr ((h₃.keep h₄).elapse.keep h))
  simp only [ends_bind, ends_modify, ends_pause, ends_get] at hopen
  simp only [rename, ends_bind, ends_get, ends_pause]
  refine (ends_ensure_telling b).mono ?_ (fun _ _ h => Or.inl h)
  intro g b₁ h₁
  split
  · next hold =>
      have hname : Faithful names b → old ∈ names := by
        intro hb
        obtain ⟨_, hfind⟩ := Option.isSome_iff_exists.mp hold
        exact hb.within old _ hfind
      simp only [ends_bind, ends_modify, ends_pause, ends_get]
      refine (h₁.elapse.ends_notify_closeFile hname).mono ?_ (fun _ _ h => Or.inl h)
      intro _ b₂ h₂
      exact hopen _ g h₂.elapse
  · next hclosed =>
      rw [Bool.not_eq_true, isOpen, Table.contains_eq_false_iff] at hclosed
      simp only [ends_bind, ends_modify, ends_pause, ends_get]
      refine hopen _ g ?_
      rw [Table.erase_of_find?_eq_none _ _ hclosed]
      exact h₁.elapse

/-! ## Calls made of calls -/

theorem ends_resync (b : Bridge) {filename : String} (hname : filename ∈ names)
    (content : String) (filenames : List String) :
    Ends (resync filename content filenames) b
      (fun _ => Leaves names b (b.records.set filename content))
      fun _ b' => ∃ records, Leaves names b records b' := by
  simp only [resync, ends_bind, ends_get]
  refine (ends_update b hname content).mono ?_ (fun _ _ h => ⟨_, h⟩)
  intro _ b₁ h₁
  exact (ends_requestDiagnostics _ _ _).mono (fun _ _ h => h₁.keep h)
    (fun _ _ h => ⟨_, h₁.keep h⟩)

/-- Closing several files takes out nothing but their records. -/
theorem ends_closeFiles (b : Bridge) (filenames : List String) :
    Ends (filenames.forM closeFile) b
      (fun _ b' => ∃ records, Leaves names b records b' ∧
        ∀ f c, records.find? f = some c → b.records.find? f = some c ∧ f ∉ filenames)
      fun _ b' => ∃ records, Leaves names b records b' := by
  -- Of the files that are to be closed, only the rest can still be open.
  let p (rest : List String) (b' : Bridge) : Prop :=
    ∃ records, Leaves names b records b' ∧ ∀ f c, records.find? f = some c →
      b.records.find? f = some c ∧ (f ∈ filenames → f ∈ rest)
  have hfirst : p filenames b :=
    ⟨b.records, Leaves.of_later (Later.refl b) rfl, fun f c h => ⟨h, id⟩⟩
  have hclose : ∀ filename rest b₁, p (filename :: rest) b₁ →
      Ends (closeFile filename) b₁ (fun _ => p rest)
        fun _ b' => ∃ records, Leaves names b records b' := by
    rintro filename rest b₁ ⟨records, h₁, hrest⟩
    refine (ends_closeFile b₁ filename).mono ?_ (fun _ _ h => ⟨_, h₁.trans h⟩)
    intro _ b₂ h₂
    refine ⟨_, h₁.trans h₂, ?_⟩
    intro f c hfind
    rw [Table.find?_erase, h₁.records] at hfind
    split at hfind
    · cases hfind
    · next hne =>
        obtain ⟨hold, hmem⟩ := hrest f c hfind
        refine ⟨hold, fun hf => ?_⟩
        rcases List.mem_cons.mp (hmem hf) with rfl | hmem
        · exact absurd rfl hne
        · exact hmem
  refine (ends_forM filenames hclose b hfirst).mono ?_ (fun _ _ h => h)
  rintro _ b' ⟨records, hleaves, hlast⟩
  refine ⟨records, hleaves, fun f c hfind => ?_⟩
  obtain ⟨hold, hmem⟩ := hlast f c hfind
  exact ⟨hold, fun hf => List.not_mem_nil (hmem hf)⟩

/-- Opening several files gives each its content. -/
theorem ends_openFiles (b : Bridge) (wanted : List (String × String))
    (hwanted : ∀ w ∈ wanted, w.1 ∈ names) (hkeys : (wanted.map (·.1)).Nodup) :
    Ends (wanted.forM fun w => openFile w.1 w.2) b
      (fun _ b' => ∃ records, Leaves names b records b' ∧
        ∀ f c, records.find? f = some c ↔
          (f, c) ∈ wanted ∨ f ∉ wanted.map (·.1) ∧ b.records.find? f = some c)
      fun _ b' => ∃ records, Leaves names b records b' := by
  -- The files before the rest have been opened one after the other.
  let p (rest : List (String × String)) (b' : Bridge) : Prop :=
    ∃ before, wanted = before ++ rest ∧
      Leaves names b (before.foldl (fun t w => t.set w.1 w.2) b.records) b'
  have hfirst : p wanted b := ⟨[], rfl, Leaves.of_later (Later.refl b) rfl⟩
  have hopen : ∀ w rest b₁, p (w :: rest) b₁ →
      Ends (openFile w.1 w.2) b₁ (fun _ => p rest)
        fun _ b' => ∃ records, Leaves names b records b' := by
    rintro w rest b₁ ⟨before, hsplit, h₁⟩
    have hname : w.1 ∈ names :=
      hwanted w (hsplit ▸ List.mem_append_right before List.mem_cons_self)
    refine (ends_openFile b₁ hname w.2).mono ?_ (fun _ _ h => ⟨_, h₁.keep h⟩)
    intro _ b₂ h₂
    refine ⟨before ++ [w], by rw [hsplit, List.append_assoc, List.singleton_append], ?_⟩
    rw [List.foldl_append, List.foldl_cons, List.foldl_nil]
    rw [h₁.records] at h₂
    exact h₁.trans h₂
  refine (ends_forM wanted hopen b hfirst).mono ?_ (fun _ _ h => h)
  rintro _ b' ⟨before, hsplit, hleaves⟩
  rw [List.append_nil] at hsplit
  subst hsplit
  exact ⟨_, hleaves, fun f c => Table.find?_foldl_set wanted hkeys b.records f c⟩

/-- The adopted files are the open files, each with its content. -/
theorem ends_adopt (b : Bridge) (wanted : List (String × String))
    (hwanted : ∀ w ∈ wanted, w.1 ∈ names) (hkeys : (wanted.map (·.1)).Nodup) :
    Ends (adopt wanted) b
      (fun _ b' => ∃ records, Leaves names b records b' ∧
        ∀ f c, records.find? f = some c ↔ (f, c) ∈ wanted)
      fun _ b' => ∃ records, Leaves names b records b' := by
  simp only [adopt, ends_bind, ends_get]
  refine (ends_closeFiles b _).mono ?_ (fun _ _ h => h)
  rintro _ b₁ ⟨records, h₁, hkept⟩
  have hlisted : ∀ f c, records.find? f = some c → f ∈ wanted.map (·.1) := by
    intro f c hfind
    obtain ⟨hold, hextra⟩ := hkept f c hfind
    have hopen : f ∈ b.openFiles := mem_openFiles_of_find? b hold
    rw [List.mem_filter, not_and, Bool.not_eq_true', Bool.not_eq_false] at hextra
    obtain ⟨w, hw, hwf⟩ := List.any_eq_true.mp (hextra hopen)
    exact List.mem_map.mpr ⟨w, hw, eq_of_beq hwf⟩
  refine (ends_openFiles b₁ wanted hwanted hkeys).mono ?_ ?_
  · rintro _ b₂ ⟨records', h₂, hfind⟩
    refine ⟨records', h₁.trans h₂, fun f c => ?_⟩
    rw [hfind, h₁.records]
    refine or_iff_left ?_
    rintro ⟨hother, hold⟩
    exact hother (hlisted f c hold)
  · rintro _ b₂ ⟨records', h₂⟩
    exact ⟨records', h₁.trans h₂⟩

end Bridge
end Notebook
