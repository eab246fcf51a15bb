import Notebook.Proofs.Service.CallRecords

/-!
# Histories of a bridge

A `Move` is one thing that happens to a bridge: a call, a report or an answer that is
taken, an incident, or a change of what is to come at the pauses and launches of later
calls.  Since the incidents to come may be planned at will, a list of moves is an
arbitrary interleaving of calls with whatever the service does, also in the middle of a
call.

* `faithful_play`: every move keeps a bridge faithful.
* `told_shows_records`: whenever an instance is running, the requests queued to it since
  its launch amount to the open files, each under its service path.
* `told_misses_record`: two filenames with one service path spoil this.
-/

set_option autoImplicit false

namespace Notebook
namespace Bridge

open Call

/-- Something that happens to a bridge. -/
inductive Move where
  | start
  | openFile (filename content : String)
  | update (filename content : String)
  | closeFile (filename : String)
  | rename (old new content : String)
  | reload
  | requestDiagnostics (filenames : List String) (delay : Nat)
  | navigate (navigation : Navigation) (filename : String) (offset : Nat)
  | shutdown
  /-- The time of a request is up, or its answer is there. -/
  | collect (ticket : Ticket) (navigation : Navigation)
  /-- The first report that waits is taken. -/
  | hear
  | happens (incident : Incident)
  | plan (hindrance : Option LaunchProblem) (launches : List (Option LaunchProblem))
      (incidents : List (List Incident))

/-- The bridge that a call leaves. -/
def after {α : Type} (b : Bridge) (c : Call α) : Bridge :=
  ((c.run).run b).2

/-- The bridge after a move. -/
def play (b : Bridge) : Move → Bridge
  | .start => b.after Bridge.start
  | .openFile filename content => b.after (Bridge.openFile filename content)
  | .update filename content => b.after (Bridge.update filename content)
  | .closeFile filename => b.after (Bridge.closeFile filename)
  | .rename old new content => b.after (Bridge.rename old new content)
  | .reload => b.after Bridge.reload
  | .requestDiagnostics filenames delay => b.after (Bridge.requestDiagnostics filenames delay)
  | .navigate navigation filename offset =>
    b.after (Bridge.navigate navigation filename offset)
  | .shutdown => b.after Bridge.shutdown
  | .collect ticket navigation => (b.collect ticket navigation).2
  | .hear =>
    match b.reports with
    | [] => b
    | report :: rest => ({ b with reports := rest }.handle report).2
  | .happens incident => b.apply incident
  | .plan hindrance launches incidents => { b with hindrance, launches, incidents }

/-- Collecting an answer changes nothing, or it ends a waiting that takes too long. -/
theorem play_collect_cases (b : Bridge) (ticket : Ticket) (navigation : Navigation) :
    b.play (.collect ticket navigation) = b ∨
      b.play (.collect ticket navigation) = b.apply (.expires ticket) := by
  simp only [play, collect]
  split
  · exact Or.inl rfl
  · exact Or.inl rfl
  · exact Or.inl rfl
  · exact Or.inr rfl

/-- The bridge after several moves. -/
def playAll (b : Bridge) (moves : List Move) : Bridge :=
  moves.foldl play b

/-- The filenames that a move may give a record. -/
def Move.opens : Move → List String
  | .openFile filename _ => [filename]
  | .update filename _ => [filename]
  | .rename _ new _ => [new]
  | _ => []

/-! ## One move -/

variable {names : Set String}

/-- A call that leaves known records in both cases leaves a faithful bridge. -/
theorem faithful_after {α : Type} {b : Bridge} {c : Call α}
    {records records' : Table String String} (hb : Faithful names b)
    (h : Ends c b (fun _ => Leaves names b records) fun _ => Leaves names b records') :
    Faithful names (b.after c) :=
  Ends.always (h.mono (fun _ _ h => h.faithful hb) (fun _ _ h => h.faithful hb))

/-- Taking a report changes nothing but findings. -/
theorem handle_eq (b : Bridge) (report : Report) :
    ∃ findings, (b.handle report).2 = { b with findings } := by
  have hsame : ∃ findings, b = { b with findings } := ⟨b.findings, rfl⟩
  unfold handle
  split
  · split
    · exact ⟨.empty, rfl⟩
    · split
      · unfold takeFindings
        split
        · exact hsame
        · split
          · exact hsame
          · split
            · simp only
              split
              · exact hsame
              · exact ⟨_, rfl⟩
            · exact hsame
      · exact hsame
  · exact hsame

/-- A bridge stays faithful if only findings, reports or what is to come change. -/
theorem Faithful.of_same {b b' : Bridge} (hb : Faithful names b)
    (hrecords : b'.records = b.records) (hdir : b'.projectDir = b.projectDir)
    (hattached : b'.attached = b.attached) (hinstances : b'.instances = b.instances)
    (htrace : b'.trace = b.trace) : Faithful names b' := by
  refine (Leaves.of_shows hrecords hdir (fun hb => ⟨hb.within, hb.single⟩) ?_).faithful hb
  intro _ g hg hworks
  have hworks' : b.works g = true := by
    simp only [works, hinstances] at hworks ⊢
    exact hworks
  rw [htrace]
  exact hb.current g (hattached ▸ hg) hworks'

theorem faithful_apply {b : Bridge} (hb : Faithful names b) (incident : Incident) :
    Faithful names (b.apply incident) :=
  (Leaves.of_later (later_apply b incident) (trace_apply b incident)).faithful hb

/-- Every move keeps a bridge faithful. -/
theorem faithful_play {b : Bridge} (hb : Faithful names b) (m : Move)
    (hm : ∀ f ∈ m.opens, f ∈ names) : Faithful names (b.play m) := by
  cases m with
  | start => exact faithful_after hb (ends_start b)
  | openFile filename content =>
      exact faithful_after hb (ends_openFile b (hm filename List.mem_cons_self) content)
  | update filename content =>
      exact faithful_after hb (ends_update b (hm filename List.mem_cons_self) content)
  | closeFile filename => exact faithful_after hb (ends_closeFile b filename)
  | rename old new content =>
      have hrename := ends_rename b old (hm new List.mem_cons_self) content
      refine Ends.always (hrename.mono (fun _ _ h => h.faithful hb) ?_)
      rintro _ _ (h | h)
      · exact h.faithful hb
      · exact h.faithful hb
  | reload => exact faithful_after hb (ends_reload b)
  | requestDiagnostics filenames delay =>
      exact faithful_after hb (ends_requestDiagnostics b filenames delay)
  | navigate navigation filename offset =>
      exact faithful_after hb (ends_navigate b navigation filename offset)
  | shutdown =>
      exact Ends.always ((ends_shutdown b).mono (fun _ _ h => h.faithful hb)
        (fun _ _ h => h.elim))
  | collect ticket navigation =>
      rcases play_collect_cases b ticket navigation with heq | heq
      · rwa [heq]
      · rw [heq]
        exact faithful_apply hb (.expires ticket)
  | hear =>
      simp only [play]
      split
      · exact hb
      · next report rest _ =>
          obtain ⟨findings, heq⟩ := handle_eq { b with reports := rest } report
          rw [heq]
          exact hb.of_same rfl rfl rfl rfl rfl
  | happens incident => exact faithful_apply hb incident
  | plan hindrance launches incidents => exact hb.of_same rfl rfl rfl rfl rfl

/-! ## All moves -/

theorem faithful_new (settings : ServiceSettings) (projectDir : String)
    (hapart : Apart names (new settings projectDir).servicePath) :
    Faithful names (new settings projectDir) :=
  ⟨hapart, fun f c hfind => by simp [new] at hfind, List.nodup_nil, fun g hg => by cases hg⟩

theorem faithful_playAll (moves : List Move) {b : Bridge} (hb : Faithful names b)
    (hnames : ∀ m ∈ moves, ∀ f ∈ m.opens, f ∈ names) : Faithful names (b.playAll moves) := by
  induction moves generalizing b with
  | nil => exact hb
  | cons m rest ih =>
      have hm := faithful_play hb m (hnames m List.mem_cons_self)
      exact ih hm (fun m hm => hnames m (List.mem_cons_of_mem _ hm))

/-! ## Service paths -/

/-- A relative name is kept behind the directory. -/
theorem joined_of_relative (base name : List Char) (hname : name.head? ≠ some '/') :
    Path.joined base name =
      base ++ ((if base.getLast? = none ∨ base.getLast? = some '/' then [] else ['/']) ++
        name) := by
  unfold Path.joined
  split
  · exact absurd rfl hname
  · cases hlast : base.getLast? with
    | none =>
        rw [List.getLast?_eq_none_iff.mp hlast]
        rfl
    | some last =>
        by_cases hslash : last = '/'
        · simp [hslash]
        · simp [hslash]

/-- Relative filenames have different service paths. -/
theorem servicePath_inj_of_relative (b : Bridge) {f f' : String}
    (hf : f.toList.head? ≠ some '/') (hf' : f'.toList.head? ≠ some '/')
    (h : b.servicePath f = b.servicePath f') : f = f' := by
  have hjoined := String.ofList_injective h
  rw [joined_of_relative _ _ hf, joined_of_relative _ _ hf'] at hjoined
  exact String.toList_inj.mp (List.append_cancel_left (List.append_cancel_left hjoined))

/-- After every history, whenever an instance is running, what it has been told since its
launch is exactly the open files with their contents, each under its service path.  The
filenames that are opened must have different service paths. -/
theorem told_shows_records (settings : ServiceSettings) (projectDir : String)
    (moves : List Move)
    (hapart : ∀ m ∈ moves, ∀ m' ∈ moves, ∀ f ∈ m.opens, ∀ f' ∈ m'.opens,
      (new settings projectDir).servicePath f = (new settings projectDir).servicePath f' →
        f = f') :
    let b := (new settings projectDir).playAll moves
    b.isRunning = true → ∃ g, b.attached = some g ∧
      ∀ p c, told b.trace g p = some c ↔ ∃ f, b.servicePath f = p ∧ b.records.find? f = some c := by
  intro b hrunning
  have hnew : Faithful {f | ∃ m ∈ moves, f ∈ m.opens} (new settings projectDir) := by
    refine faithful_new settings projectDir ?_
    rintro f ⟨m, hm, hf⟩ f' ⟨m', hm', hf'⟩
    exact hapart m hm m' hm' f hf f' hf'
  have hb := faithful_playAll moves hnew (fun m hm f hf => ⟨m, hm, hf⟩)
  change b.isRunning = true at hrunning
  cases hattached : b.attached with
  | none => simp [isRunning, hattached] at hrunning
  | some g =>
      simp only [isRunning, hattached] at hrunning
      exact ⟨g, rfl, hb.current g hattached hrunning⟩

/-- A second instance is told what is left of the files of the first. -/
theorem told_shows_records_relaunched :
    let moves : List Move := [.openFile "a.ts" "1", .happens (.dies 1), .update "a.ts" "2",
      .openFile "b.ts" "3", .closeFile "a.ts"]
    let b := (new .standard "/book").playAll moves
    (∀ m ∈ moves, ∀ m' ∈ moves, ∀ f ∈ m.opens, ∀ f' ∈ m'.opens,
      (new .standard "/book").servicePath f = (new .standard "/book").servicePath f' →
        f = f') ∧
    b.isRunning = true ∧ ∃ g, b.attached = some g ∧
      ∀ p c, told b.trace g p = some c ↔
        ∃ f, b.servicePath f = p ∧ b.records.find? f = some c := by
  intro moves b
  have hrunning : b.isRunning = true := by decide +kernel
  have hrelative : ∀ m ∈ moves, ∀ f ∈ m.opens, f.toList.head? ≠ some '/' := by
    decide +kernel
  have hapart : ∀ m ∈ moves, ∀ m' ∈ moves, ∀ f ∈ m.opens, ∀ f' ∈ m'.opens,
      (new .standard "/book").servicePath f = (new .standard "/book").servicePath f' →
        f = f' :=
    fun m hm m' hm' f hf f' hf' =>
      servicePath_inj_of_relative _ (hrelative m hm f hf) (hrelative m' hm' f' hf')
  exact ⟨hapart, hrunning, told_shows_records .standard "/book" moves hapart hrunning⟩

/-- With one service path for two filenames, the service may miss an open file: closing
one of the two closes the other for it. -/
theorem told_misses_record :
    let b := (new .standard "/book").playAll [.openFile "a.ts" "1",
      .openFile "/book/src/a.ts" "2", .closeFile "a.ts"]
    b.isRunning = true ∧ b.attached = some 1 ∧ b.openFiles = ["/book/src/a.ts"] ∧
      told b.trace 1 = fun _ => none := by
  intro b
  have htrace : b.trace = [.queued 1 ⟨3, .closeFile "/book/src/a.ts"⟩,
      .queued 1 ⟨2, .openFile "/book/src/a.ts" "2"⟩,
      .queued 1 ⟨1, .openFile "/book/src/a.ts" "1"⟩, .launched 1] := by decide +kernel
  refine ⟨by decide +kernel, by decide +kernel, by decide +kernel, ?_⟩
  funext p
  rw [htrace]
  simp only [told, Command.remember, if_true]
  split
  · rfl
  · next hp => rfl

end Bridge
end Notebook
