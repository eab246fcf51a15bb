import Mathlib
import Notebook.Proofs.Service.Utterances

/-!
# Renaming leaves no stale findings

An analysis service remembers which modules it could not resolve, so that it may report a
missing module that has come back meanwhile.  An `Analyzer` is any such service: what it
finds in a file depends on the open files and on the failed resolutions that it remembers,
these become more only while it looks for findings, and a reload drops them.
`Analyzer.served trace g` is the instance `g` after it has obeyed its requests.

Renaming a file reloads the projects before it asks for the findings of all open files.
Hence no failure of the past has a part in what is reported.

* `served_snoc_reload`: what is reported after a reload depends on the open files alone.
* `ends_launch_served`: what a launched instance reports first.
* `ends_rename_anew`: on one instance, a rename ends with a reload and a request for the
  findings of all open files.
* `rename_reports_afresh`: these are the findings of an instance launched for the same
  records.
* `rename_reports_stale`: two filenames with one service path spoil this.
-/

set_option autoImplicit false

namespace Notebook

/-- A service that looks for findings file by file. -/
structure Analyzer (Failure Finding : Type) where
  /-- The findings in the file of a path. -/
  findings : Memory → List Failure → String → List Finding
  /-- The failures that looking at the file of a path adds. -/
  failures : Memory → List Failure → String → List Failure

/-- An instance of such a service. -/
structure Analysis (Failure Finding : Type) where
  files : Memory
  /-- The failures that are remembered. -/
  failed : List Failure
  /-- What the latest look has found, by path. -/
  report : List (String × List Finding)

namespace Analyzer

variable {Failure Finding : Type} (A : Analyzer Failure Finding)

/-- An instance that has not been told anything. -/
def blank : Analysis Failure Finding :=
  ⟨fun _ => none, [], []⟩

/-- Looks at one file. -/
def look (s : Analysis Failure Finding) (path : String) : Analysis Failure Finding :=
  { s with
    failed := s.failed ++ A.failures s.files s.failed path
    report := s.report ++ [(path, A.findings s.files s.failed path)] }

/-- Looks at several files and reports what it finds there. -/
def check (s : Analysis Failure Finding) (paths : List String) : Analysis Failure Finding :=
  paths.foldl A.look { s with report := [] }

/-- What an instance makes of a command. -/
def obey (s : Analysis Failure Finding) : Command → Analysis Failure Finding
  | .reloadProjects => { s with failed := [] }
  | .findErrors paths _ => A.check s paths
  | command => { s with files := command.remember s.files }

/-- An instance after the requests queued to it since its launch.  The trace stands newest
first. -/
def served : List Deed → Nat → Analysis Failure Finding
  | [], _ => blank
  | .queued g' r :: earlier, g =>
    if g' = g then A.obey (served earlier g) r.command else served earlier g
  | .launched g' :: earlier, g => if g' = g then blank else served earlier g
  | .released _ :: earlier, g => served earlier g

theorem foldl_look (paths : List String) (s : Analysis Failure Finding) :
    (paths.foldl A.look s).files = s.files ∧
      (paths.foldl A.look s).report.map (·.1) = s.report.map (·.1) ++ paths := by
  induction paths generalizing s with
  | nil => exact ⟨rfl, (List.append_nil _).symm⟩
  | cons path rest ih =>
      obtain ⟨hfiles, hreport⟩ := ih (A.look s path)
      refine ⟨hfiles, ?_⟩
      rw [List.foldl_cons, hreport, look, List.map_append, List.append_assoc]
      rfl

@[simp]
theorem files_check (s : Analysis Failure Finding) (paths : List String) :
    (A.check s paths).files = s.files :=
  (A.foldl_look paths _).1

/-- What is reported covers the paths that were asked for. -/
@[simp]
theorem paths_check (s : Analysis Failure Finding) (paths : List String) :
    (A.check s paths).report.map (·.1) = paths :=
  (A.foldl_look paths _).2

theorem files_obey (s : Analysis Failure Finding) (c : Command) :
    (A.obey s c).files = c.remember s.files := by
  cases c with
  | findErrors paths delay => exact A.files_check s paths
  | openFile _ _ => rfl
  | closeFile _ => rfl
  | reloadProjects => rfl
  | navigate _ _ _ => rfl

/-- The files that an instance knows are those that it has been told of. -/
theorem files_served (trace : List Deed) (g : Nat) :
    (A.served trace g).files = told trace g := by
  induction trace with
  | nil => rfl
  | cons deed earlier ih =>
      cases deed with
      | queued g' r =>
          simp only [served, told]
          split
          · rw [files_obey, ih]
          · exact ih
      | launched g' =>
          simp only [served, told]
          split
          · rfl
          · exact ih
      | released g' => exact ih

/-- What is reported right after a reload depends on the files alone. -/
theorem served_snoc_reload (trace : List Deed) (g n m : Nat) (paths : List String)
    (delay : Nat) :
    A.served (.queued g ⟨n, .findErrors paths delay⟩ :: .queued g ⟨m, .reloadProjects⟩ :: trace)
        g =
      A.check ⟨told trace g, [], []⟩ paths := by
  simp only [served, if_true, obey]
  rw [check, check, files_served]

/-! ## A service that remembers missing modules -/

/-- The path that a file imports, if it begins with an import. -/
def imported? (content : String) : Option String :=
  if "import ".toList.isPrefixOf content.toList then some (String.ofList (content.toList.drop 7))
  else none

/-- A service that reports imports of files that are not open.  An import that has failed
once goes on failing. -/
def importing : Analyzer String String where
  findings files failed path :=
    match (files path).bind imported? with
    | some path' => if files path' = none ∨ path' ∈ failed then [path'] else []
    | none => []
  failures files _ path :=
    match (files path).bind imported? with
    | some path' => if files path' = none then [path'] else []
    | none => []

end Analyzer

namespace Bridge

open Call

variable {Failure Finding : Type} (A : Analyzer Failure Finding)

/-! ## A launched instance -/

/-- Opening files one by one is all that the instance notices. -/
theorem ends_openAll_served (g : Nat) (records : List (String × String)) (b : Bridge) :
    Ends (openAll g records) b
      (fun _ b' => Later b b' ∧ A.served b'.trace g =
        { A.served b.trace g with files := b.opened records (told b.trace g) })
      fun _ _ => True := by
  induction records generalizing b with
  | nil =>
      refine ⟨Later.refl b, ?_⟩
      change _ = { A.served b.trace g with files := told b.trace g }
      rw [← A.files_served]
  | cons r rest ih =>
      obtain ⟨filename, content⟩ := r
      simp only [openAll, ends_bind, ends_get, ends_pause]
      refine (ends_notify b g _).mono ?_ (fun _ _ _ => trivial)
      rintro _ b₁ ⟨hlater, n, htrace⟩
      have hpause := hlater.trans (later_elapse b₁)
      refine (ih b₁.elapse).mono ?_ (fun _ _ h => h)
      rintro _ b' ⟨hrest, hserved⟩
      refine ⟨hpause.trans hrest, ?_⟩
      rw [hserved, trace_elapse, htrace, (SameFiles.of_later hpause).opened]
      simp only [Analyzer.served, told, if_true, Analyzer.obey, opened, List.foldl_cons]

/-- A launched instance first reports what it finds in the records, without having failed
before. -/
theorem ends_launch_served (b : Bridge) (hrecords : b.sortedRecords ≠ []) :
    Ends launch b
      (fun _ b' => b'.attached = some b.nextGeneration ∧
        A.served b'.trace b.nextGeneration =
          A.check ⟨b.opened b.sortedRecords fun _ => none, [], []⟩
            (b.openFiles.map b.servicePath))
      fun _ _ => True := by
  simp only [launch, ends_bind]
  refine (ends_nextLaunch b).mono ?_ (fun _ _ h => h.elim)
  rintro problem _ ⟨launches, rfl⟩
  cases problem with
  | some problem => exact trivial
  | none =>
      simp only [ends_bind, ends_get, ends_set, ends_perform]
      -- Of the new instance only this matters: it has not been told anything.
      generalize hb₁ : ({ b with
        nextGeneration := b.nextGeneration + 1
        instances := b.instances.set b.nextGeneration ⟨1, true, true⟩
        findings := .empty
        launches
        trace := .launched b.nextGeneration :: b.trace } : Bridge) = b₁
      have hfiles : SameFiles b b₁ := by
        subst hb₁
        exact ⟨rfl, rfl⟩
      have htold : told b₁.trace b.nextGeneration = fun _ => none := by
        subst hb₁
        exact if_pos rfl
      have hserved : A.served b₁.trace b.nextGeneration = Analyzer.blank := by
        subst hb₁
        exact if_pos rfl
      clear hb₁
      change Ends (openAll b.nextGeneration b.sortedRecords) b₁ _ _
      refine (ends_openAll_served A _ _ b₁).mono ?_ (fun _ _ h => h)
      rintro _ b₂ ⟨_, hopened⟩
      rw [htold, hserved, hfiles.opened] at hopened
      split
      · next hempty => exact absurd (List.isEmpty_iff.mp hempty) hrecords
      · simp only [ends_bind, ends_pause, ends_modify]
        refine (ends_notify b₂ _ _).mono ?_ (fun _ _ _ => trivial)
        rintro _ b₃ ⟨_, n, htrace⟩
        refine ⟨trivial, ?_⟩
        have hpaths : b.sortedRecords.map (fun r => b.servicePath r.1) =
            b.openFiles.map b.servicePath := by
          rw [openFiles, List.map_map]
          rfl
        change A.served b₃.elapse.trace _ = _
        rw [trace_elapse, htrace]
        simp only [Analyzer.served, if_true, Analyzer.obey]
        rw [hopened]
        change A.check _ (b.sortedRecords.map fun r => b.servicePath r.1) = _
        rw [hpaths]
        rfl

/-! ## Renaming on one instance -/

/-- From `b` to `b'` one instance was at work: none was launched but the one that was
missing at first, if none was running. -/
def OnOneInstance (b b' : Bridge) : Prop :=
  b'.nextGeneration ≤ b.nextGeneration + if b.isRunning then 0 else 1

/-- Every open file is asked about. -/
theorem filter_isOpen_openFiles (b : Bridge) : b.openFiles.filter b.isOpen = b.openFiles :=
  List.filter_eq_self.mpr fun f hf => (mem_openFiles_iff b f).mp hf

/-- After `b`, only two things were said until `b'`: the instance `g`, which worked in `b`, was
told to reload and asked for the findings of all open files. -/
structure AskedAnew (b b' : Bridge) (g : Nat) : Prop where
  attached : b.attached = some g
  works : b.works g = true
  kept : b'.attached = some g
  trace : ∃ n m delay, b'.trace =
    .queued g ⟨n, .findErrors (b.openFiles.map b.servicePath) delay⟩ ::
      .queued g ⟨m, .reloadProjects⟩ :: b.trace

/-- Without a launch, reloading and asking for all findings queues these two requests to the
instance that was attached before. -/
theorem ends_checkAnew (b : Bridge) (hopen : b.openFiles ≠ []) :
    Ends (do
        reload
        pause
        let b ← get
        requestDiagnostics b.openFiles b.settings.diagnosticsDelay.toNat) b
      (fun _ b' => SameFiles b b' ∧ b.nextGeneration ≤ b'.nextGeneration ∧
        (b'.nextGeneration ≤ b.nextGeneration → ∃ g, AskedAnew b b' g))
      fun _ _ => True := by
  simp only [reload, requestDiagnostics, ends_bind, ends_pause, ends_get]
  refine ((ends_ensure_count b).and (ends_ensure b)).mono ?_ (fun _ _ _ => trivial)
  rintro g b₁ ⟨⟨hcount₁, hkept₁⟩, hfiles₁, hattached₁, _⟩
  refine (ends_notify b₁.elapse g _).mono ?_ (fun _ _ _ => trivial)
  rintro _ b₂ ⟨hlater₂, m, htrace₂⟩
  have hlater : Later b₁ b₂.elapse :=
    ((later_elapse b₁).trans hlater₂).trans (later_elapse b₂)
  have hfiles : SameFiles b b₂.elapse := hfiles₁.trans (SameFiles.of_later hlater)
  have hpaths : (b₂.elapse.openFiles.filter b₂.elapse.isOpen).map b₂.elapse.servicePath =
      b.openFiles.map b.servicePath := by
    rw [filter_isOpen_openFiles, hfiles.servicePath, openFiles, hfiles.sortedRecords, openFiles]
  rw [hpaths]
  split
  · next hempty =>
      rw [List.isEmpty_iff, List.map_eq_nil_iff] at hempty
      exact absurd hempty hopen
  · simp only [ends_bind, ends_pause]
    refine ((ends_ensure_count b₂.elapse).and (ends_ensure b₂.elapse)).mono ?_
      (fun _ _ _ => trivial)
    rintro g₃ b₃ ⟨⟨hcount₃, hkept₃⟩, hfiles₃, hattached₃, _⟩
    refine (ends_notify b₃.elapse g₃ _).mono ?_ (fun _ _ _ => trivial)
    rintro _ b' ⟨hlater', n, htrace'⟩
    have hafter : Later b₃ b' := (later_elapse b₃).trans hlater'
    have hcount : b'.nextGeneration = b.nextGeneration + (if b.isRunning then 0 else 1) +
        if b₂.elapse.isRunning then 0 else 1 := by
      rw [hafter.nextGeneration, hcount₃, hlater.nextGeneration, hcount₁]
    refine ⟨(hfiles.trans hfiles₃).trans (SameFiles.of_later hafter), by omega, fun hnone => ?_⟩
    -- Nothing was launched, so both times the instance that was there has been running.
    have hrunning : b.isRunning = true := by
      by_contra hstopped
      rw [hcount, if_neg hstopped] at hnone
      omega
    have hrunning₂ : b₂.elapse.isRunning = true := by
      by_contra hstopped
      rw [hcount, if_neg hstopped] at hnone
      omega
    obtain ⟨rfl, hattached, hworks⟩ := hkept₁ hrunning
    obtain ⟨rfl, hattached₂, _⟩ := hkept₃ hrunning₂
    have hsame : g₃ = g := by
      rw [hlater.attached, hattached] at hattached₂
      exact (Option.some.inj hattached₂).symm
    subst hsame
    refine ⟨g₃, hattached, hworks, hafter.attached.trans hattached₃,
      n, m, b₂.elapse.settings.diagnosticsDelay.toNat, ?_⟩
    rw [htrace', trace_elapse, trace_elapse, htrace₂, trace_elapse]

variable {names : Set String}

/-- The bridge `b'` that a rename made in `b` has left: the record was moved, and from then on
the instance was only asked anew. -/
structure Renamed (names : Set String) (b : Bridge) (records : Table String String)
    (b' : Bridge) : Prop where
  moved : ∃ b₁, Leaves names b records b₁ ∧ b.trace <:+ b₁.trace ∧ SameFiles b₁ b' ∧
    (OnOneInstance b b' → ∃ g, AskedAnew b₁ b' g)

/-- The second half of a rename: from the moment when the instance knows the new file, the
records have been moved, and all findings are asked for anew. -/
theorem ends_moveRecord (b : Bridge) (old : String) {new : String} (hnew : new ∈ names)
    (content : String) (b₁ : Bridge) (g : Nat)
    (h₁ : Telling names b g (b.records.erase old) b₁) (hpast : b.trace <:+ b₁.trace)
    (hcount : b₁.nextGeneration = b.nextGeneration + if b.isRunning then 0 else 1) :
    Ends (do
      notify g (.openFile (b.servicePath new) content)
      pause
      modify fun b => { b with
        records := (b.records.erase old).set new content
        findings := b.findings.remove old }
      reload
      pause
      let b ← get
      requestDiagnostics b.openFiles b.settings.diagnosticsDelay.toNat) b₁
      (fun _ => Renamed names b ((b.records.erase old).set new content))
      fun _ _ => True := by
  rw [ends_bind]
  refine ((h₁.ends_notify_openFile hnew content).and (ends_notify b₁ g _)).mono ?_
    (fun _ _ _ => trivial)
  rintro _ b₂ ⟨h₂, hlater₂, n, htrace₂⟩
  rw [ends_bind, ends_pause, ends_bind, ends_modify]
  have hlater : Later b₁ b₂.elapse := hlater₂.trans (later_elapse b₂)
  generalize hb₃ : ({ b₂.elapse with
      records := (b₂.elapse.records.erase old).set new content
      findings := b₂.elapse.findings.remove old } : Bridge) = b₃
  have h₃ : Leaves names b ((b.records.erase old).set new content) b₃ := by
    subst hb₃
    exact h₂.elapse.leaves
      (congrArg (fun t => (t.erase old).set new content) h₂.elapse.files.records)
      rfl rfl rfl rfl
  have htrace₃ : b.trace <:+ b₃.trace := by
    subst hb₃
    change b.trace <:+ b₂.elapse.trace
    rw [trace_elapse, htrace₂]
    exact hpast.trans (List.suffix_cons _ _)
  have hcount₃ : b₃.nextGeneration = b.nextGeneration + if b.isRunning then 0 else 1 := by
    subst hb₃
    exact hlater.nextGeneration.trans hcount
  have hnonempty : b₃.openFiles ≠ [] := by
    refine List.ne_nil_of_mem (a := new) (mem_openFiles_of_find? (c := content) _ ?_)
    rw [h₃.records, Table.find?_set, if_pos rfl]
  refine (ends_checkAnew b₃ hnonempty).mono ?_ (fun _ _ h => h)
  rintro _ b' ⟨hfiles, _, hasked⟩
  refine ⟨b₃, h₃, htrace₃, hfiles, fun hone => hasked ?_⟩
  rw [hcount₃]
  exact hone

/-- A rename moves the record, and then reloads and asks for the findings of all open
files. -/
theorem ends_rename_anew (b : Bridge) (old : String) {new : String} (hnew : new ∈ names)
    (content : String) :
    Ends (rename old new content) b
      (fun _ => Renamed names b ((b.records.erase old).set new content))
      fun _ _ => True := by
  have hopen := ends_moveRecord b old hnew content
  let t : Brief := ⟨fun _ => True, Set.univ, b.servicePath, b.trace⟩
  have ht : t.Covers := ⟨fun _ _ _ => trivial, fun _ _ => trivial, trivial,
    fun _ _ _ => trivial⟩
  have hb : t.Holds b := ⟨rfl, fun _ _ _ => trivial, [], rfl, nofun⟩
  simp only [ends_bind, ends_modify, ends_pause, ends_get] at hopen
  simp only [rename, ends_bind, ends_get, ends_pause]
  have htelling : Ends ensure b (fun g => Telling names b g b.records)
      fun _ => Leaves names b b.records := ends_ensure_telling b
  refine ((htelling.and (ends_ensure_count b)).and (Brief.Keeps.ensure ht hb)).mono ?_
    (fun _ _ _ => trivial)
  rintro g b₁ ⟨⟨h₁, hcount, _⟩, hheld⟩
  have hpast : b.trace <:+ b₁.elapse.trace := by
    obtain ⟨deeds, hsplit, _⟩ := hheld.trace
    rw [trace_elapse]
    exact ⟨deeds, hsplit.symm⟩
  have hcount₁ := (later_elapse b₁).nextGeneration.trans hcount
  split
  · next hold =>
      have hname : Faithful names b → old ∈ names := by
        intro hb
        obtain ⟨_, hfind⟩ := Option.isSome_iff_exists.mp hold
        exact hb.within old _ hfind
      simp only [ends_bind, ends_modify, ends_pause, ends_get]
      refine ((h₁.elapse.ends_notify_closeFile hname).and (ends_notify _ g _)).mono ?_
        (fun _ _ _ => trivial)
      rintro _ b₂ ⟨h₂, hlater₂, n, htrace₂⟩
      refine hopen _ g h₂.elapse ?_
        ((hlater₂.trans (later_elapse b₂)).nextGeneration.trans hcount₁)
      rw [trace_elapse, htrace₂]
      exact hpast.trans (List.suffix_cons _ _)
  · next hclosed =>
      rw [Bool.not_eq_true, isOpen, Table.contains_eq_false_iff] at hclosed
      simp only [ends_bind, ends_modify, ends_pause, ends_get]
      refine hopen _ g ?_ hpast hcount₁
      rw [Table.erase_of_find?_eq_none _ _ hclosed]
      exact h₁.elapse

/-- After every history of one bridge, a rename that succeeds on one instance ends with a
request for the findings of all open files.  What the instance reports then covers these
files, and is what an instance reports that is launched for the same records, whatever
failures the analyzer has come to remember before.  The filenames that are opened must have
different service paths. -/
theorem rename_reports_afresh (settings : ServiceSettings) (projectDir : String)
    (moves : List Move) (old new content : String)
    (hapart : ∀ m ∈ moves ++ [.rename old new content],
      ∀ m' ∈ moves ++ [.rename old new content], ∀ f ∈ m.opens, ∀ f' ∈ m'.opens,
      (Bridge.new settings projectDir).servicePath f =
        (Bridge.new settings projectDir).servicePath f' → f = f')
    (b' : Bridge) :
    let b := (Bridge.new settings projectDir).playAll moves
    ((rename old new content).run).run b = (.ok (), b') → OnOneInstance b b' →
    ∃ g n delay earlier, b'.attached = some g ∧ b.trace <:+ earlier ∧
      b'.trace =
        .queued g ⟨n, .findErrors (b'.openFiles.map b'.servicePath) delay⟩ :: earlier ∧
      (A.served b'.trace g).report.map (·.1) = b'.openFiles.map b'.servicePath ∧
      ∀ d d' : Bridge, d.projectDir = b'.projectDir → d.sortedRecords = b'.sortedRecords →
        (launch.run).run d = (.ok (), d') → ∃ g', d'.attached = some g' ∧
          (A.served d'.trace g').report = (A.served b'.trace g).report := by
  intro b hrename hone
  let names : Set String := {f | ∃ m ∈ moves ++ [.rename old new content], f ∈ m.opens}
  have hfaithful : Faithful names b := by
    refine faithful_playAll moves (faithful_new settings projectDir ?_)
      (fun m hm f hf => ⟨m, List.mem_append_left _ hm, hf⟩)
    rintro f ⟨m, hm, hf⟩ f' ⟨m', hm', hf'⟩
    exact hapart m hm m' hm' f hf f' hf'
  have hnew : new ∈ names :=
    ⟨_, List.mem_append_right _ List.mem_cons_self, List.mem_cons_self⟩
  obtain ⟨b₁, hleaves, hpast, hfiles, hasked⟩ :=
    ((ends_rename_anew b old hnew content).of_ok hrename).moved
  obtain ⟨g, hattached, hworks, hkept, n, m, delay, htrace⟩ := hasked hone
  have hfaithful₁ := hleaves.faithful hfaithful
  have hpaths : b'.openFiles.map b'.servicePath = b₁.openFiles.map b₁.servicePath := by
    rw [hfiles.servicePath, openFiles, hfiles.sortedRecords, openFiles]
  -- The memories of both instances show the records, so they are equal.
  have hmemory : told b₁.trace g = b₁.opened b₁.sortedRecords fun _ => none := by
    funext p
    refine Option.ext fun c => ?_
    rw [hfaithful₁.current g hattached hworks p c, hfaithful₁.shows_relaunch p c]
  have hserved : A.served b'.trace g =
      A.check ⟨b₁.opened b₁.sortedRecords fun _ => none, [], []⟩
        (b'.openFiles.map b'.servicePath) := by
    rw [htrace, A.served_snoc_reload, hmemory, hpaths]
  refine ⟨g, n, delay, .queued g ⟨m, .reloadProjects⟩ :: b₁.trace, hkept,
    hpast.trans (List.suffix_cons _ _), ?_, ?_, ?_⟩
  · rw [htrace, hpaths]
  · rw [hserved, A.paths_check]
  · intro d d' hdir hsorted hlaunch
    have hnonempty : d.sortedRecords ≠ [] := by
      have hmem : new ∈ b₁.openFiles := mem_openFiles_of_find? b₁ (c := content) (by
        rw [hleaves.records, Table.find?_set, if_pos rfl])
      rw [openFiles, ← hfiles.sortedRecords, ← hsorted] at hmem
      rintro hempty
      rw [hempty] at hmem
      cases hmem
    obtain ⟨hattached', hserved'⟩ := (ends_launch_served A d hnonempty).of_ok hlaunch
    refine ⟨_, hattached', ?_⟩
    have hpath : d.servicePath = b'.servicePath := by
      funext f
      simp only [servicePath, sourceDir, hdir]
    have hopened : d.opened = b₁.opened := by
      funext records m
      simp only [opened, hpath, hfiles.servicePath]
    rw [hserved', hserved, hopened, hsorted, hfiles.sortedRecords, openFiles, hsorted, hpath,
      openFiles]

/-- A bridge whose one instance works and has been given these commands, oldest first. -/
def withOneInstance (records : List (String × String)) (commands : List Command) : Bridge :=
  { Bridge.new .standard "/book" with
    attached := some 1
    nextGeneration := 2
    instances := ⟨[(1, ⟨commands.length + 1, true, true⟩)]⟩
    records := ⟨records⟩
    trace := ((commands.zipIdx 1).map fun (c, n) => .queued 1 ⟨n, c⟩).reverse ++ [.launched 1] }

/-- There and back: while a file was away, its import failed.  After it has come back, the
failure is reported no more. -/
theorem rename_reports_afresh_there_and_back :
    let moves : List Move := [.openFile "a.ts" "", .openFile "b.ts" "import /book/src/a.ts",
      .rename "a.ts" "c.ts" ""]
    let away : List Command := [.openFile "/book/src/a.ts" "",
      .openFile "/book/src/b.ts" "import /book/src/a.ts", .closeFile "/book/src/a.ts",
      .openFile "/book/src/c.ts" "", .reloadProjects,
      .findErrors ["/book/src/b.ts", "/book/src/c.ts"] 0]
    let back : List Command := [.closeFile "/book/src/c.ts", .openFile "/book/src/a.ts" "",
      .reloadProjects, .findErrors ["/book/src/a.ts", "/book/src/b.ts"] 0]
    let b := withOneInstance [("b.ts", "import /book/src/a.ts"), ("c.ts", "")] away
    let b' := withOneInstance [("b.ts", "import /book/src/a.ts"), ("a.ts", "")] (away ++ back)
    let d := { Bridge.new .standard "/book" with records := b'.records }
    let d' := withOneInstance [("b.ts", "import /book/src/a.ts"), ("a.ts", "")]
      [.openFile "/book/src/a.ts" "", .openFile "/book/src/b.ts" "import /book/src/a.ts",
        .findErrors ["/book/src/a.ts", "/book/src/b.ts"] 0]
    (∀ m ∈ moves ++ [.rename "c.ts" "a.ts" ""],
        ∀ m' ∈ moves ++ [.rename "c.ts" "a.ts" ""], ∀ f ∈ m.opens, ∀ f' ∈ m'.opens,
        (Bridge.new .standard "/book").servicePath f =
          (Bridge.new .standard "/book").servicePath f' → f = f') ∧
      (Bridge.new .standard "/book").playAll moves = b ∧
      (Analyzer.importing.served b.trace 1).report =
        [("/book/src/b.ts", ["/book/src/a.ts"]), ("/book/src/c.ts", [])] ∧
      ((rename "c.ts" "a.ts" "").run).run b = (.ok (), b') ∧ OnOneInstance b b' ∧
      (launch.run).run d = (.ok (), d') ∧
      ∃ g n delay earlier, b'.attached = some g ∧ b.trace <:+ earlier ∧
        b'.trace =
          .queued g ⟨n, .findErrors (b'.openFiles.map b'.servicePath) delay⟩ :: earlier ∧
        (Analyzer.importing.served b'.trace g).report.map (·.1) =
          b'.openFiles.map b'.servicePath ∧
        ∃ g', d'.attached = some g' ∧ (Analyzer.importing.served d'.trace g').report =
          (Analyzer.importing.served b'.trace g).report := by
  intro moves away back b b' d d'
  have hrelative : ∀ m ∈ moves ++ [.rename "c.ts" "a.ts" ""], ∀ f ∈ m.opens,
      f.toList.head? ≠ some '/' := by
    decide +kernel
  have hapart : ∀ m ∈ moves ++ [.rename "c.ts" "a.ts" ""],
      ∀ m' ∈ moves ++ [.rename "c.ts" "a.ts" ""], ∀ f ∈ m.opens, ∀ f' ∈ m'.opens,
      (Bridge.new .standard "/book").servicePath f =
        (Bridge.new .standard "/book").servicePath f' → f = f' :=
    fun m hm m' hm' f hf f' hf' =>
      servicePath_inj_of_relative _ (hrelative m hm f hf) (hrelative m' hm' f' hf')
  have hb : (Bridge.new .standard "/book").playAll moves = b := by
    unfold moves b away
    cbv
  have hb' : ((rename "c.ts" "a.ts" "").run).run b = (.ok (), b') := by
    unfold b b' away back
    cbv
  have hd' : (launch.run).run d = (.ok (), d') := by
    unfold d d' b' away back
    cbv
  have hone : OnOneInstance b b' := by
    unfold OnOneInstance
    decide +kernel
  obtain ⟨g, n, delay, earlier, hattached, hpast, htrace, hpaths, hfresh⟩ :=
    rename_reports_afresh Analyzer.importing .standard "/book" moves "c.ts" "a.ts" "" hapart b'
      (hb.symm ▸ hb') (hb.symm ▸ hone)
  rw [hb] at hpast
  exact ⟨hapart, hb, by decide +kernel, hb', hone, hd', g, n, delay, earlier, hattached, hpast,
    htrace, hpaths, hfresh d d' rfl rfl hd'⟩

/-- With one service path for two filenames, a file that is still open has been closed for
the instance, and after a rename its import is reported as missing. -/
theorem rename_reports_stale :
    let before : List Command := [.openFile "/book/src/a.ts" "", .openFile "/book/src/a.ts" "",
      .closeFile "/book/src/a.ts", .openFile "/book/src/b.ts" "import /book/src/a.ts"]
    let renamed : List Command := [.closeFile "/book/src/b.ts",
      .openFile "/book/src/c.ts" "import /book/src/a.ts", .reloadProjects,
      .findErrors ["/book/src/a.ts", "/book/src/c.ts"] 0]
    let b := withOneInstance [("/book/src/a.ts", ""), ("b.ts", "import /book/src/a.ts")] before
    let b' := withOneInstance [("/book/src/a.ts", ""), ("c.ts", "import /book/src/a.ts")]
      (before ++ renamed)
    let d := { Bridge.new .standard "/book" with records := b'.records }
    let d' := withOneInstance [("/book/src/a.ts", ""), ("c.ts", "import /book/src/a.ts")]
      [.openFile "/book/src/a.ts" "", .openFile "/book/src/c.ts" "import /book/src/a.ts",
        .findErrors ["/book/src/a.ts", "/book/src/c.ts"] 0]
    (Bridge.new .standard "/book").playAll [.openFile "a.ts" "",
        .openFile "/book/src/a.ts" "", .closeFile "a.ts",
        .openFile "b.ts" "import /book/src/a.ts"] = b ∧
      ((rename "b.ts" "c.ts" "import /book/src/a.ts").run).run b = (.ok (), b') ∧
      OnOneInstance b b' ∧ (launch.run).run d = (.ok (), d') ∧
      (Analyzer.importing.served b'.trace 1).report =
        [("/book/src/a.ts", []), ("/book/src/c.ts", ["/book/src/a.ts"])] ∧
      (Analyzer.importing.served d'.trace 1).report =
        [("/book/src/a.ts", []), ("/book/src/c.ts", [])] := by
  refine ⟨by cbv, by cbv, ?_, by cbv, by decide +kernel, by decide +kernel⟩
  unfold OnOneInstance
  decide +kernel

end Bridge
end Notebook
