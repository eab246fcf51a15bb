import Notebook.Proofs.Service.Rounds
import Notebook.Proofs.Trees

/-!
# Filenames and the paths of the service

A file is known to the service by the path that its name has in the source directory, and findings
come back under that path.  One side joins texts, the other compares components.  Whatever the
directory looks like, the two are inverse to each other on filenames that are in order, so that
findings reach the file that they were asked for.

* `Path.filenameIn?_join`: the path of a file leads back to its name.
* `Path.components_of_filenameIn?`: a path that leads to a name has that name as its last
  component and the directory before it.
* `Bridge.findings_return`: both, and what follows for reports of findings.
-/

set_option autoImplicit false

namespace Notebook

namespace Filename

/-- The filename is in order and has no blanks around it. -/
def IsAccepted (filename : String) : Prop :=
  Text.trim filename = filename ∧ ∃ language, check filename language = .ok ()

theorem IsAccepted.isName {filename : String} (h : IsAccepted filename) :
    Path.IsName filename.toList := by
  obtain ⟨htrimmed, language, hcheck⟩ := h
  have hordinary := ordinary_of_check_slash hcheck
  rw [htrimmed] at hordinary
  exact hordinary.isName List.mem_cons_self

end Filename

namespace Path

/-- The path of a file leads back to its name. -/
theorem filenameIn?_join (dir : String) {filename : String} (h : IsName filename.toList) :
    filenameIn? dir (join dir filename) = some filename := by
  rw [filenameIn?_eq_some_iff]
  refine ⟨.name filename.toList, congrArg some String.ofList_toList, ?_⟩
  rw [toList_join, components_joined dir.toList h]

/-- The component that a filename was read from is all there is in it. -/
theorem components_of_filename? {path : List Char} {c : Component} {filename : String}
    (hmem : c ∈ components path) (h : c.filename? = some filename) :
    components filename.toList = [c] := by
  cases c with
  | name chars =>
      obtain rfl := Option.some.inj h
      rw [String.toList_ofList, components_of_isName (isName_of_mem_components hmem)]
  | parent =>
      obtain rfl := Option.some.inj h
      decide
  | root => cases h
  | current => cases h

/-- A path that leads to a name has the components of the directory and behind them the one that
the name is. -/
theorem components_of_filenameIn? {dir path filename : String}
    (h : filenameIn? dir path = some filename) :
    components path.toList = components dir.toList ++ components filename.toList ∧
      (components filename.toList).length = 1 := by
  obtain ⟨c, hc, hpath⟩ := (filenameIn?_eq_some_iff dir path filename).mp h
  have hmem : c ∈ components path.toList := by
    rw [hpath]
    exact List.mem_append_right _ List.mem_cons_self
  rw [components_of_filename? hmem hc]
  exact ⟨hpath, rfl⟩

end Path

namespace Bridge

variable {b : Bridge} {report : Report} {pass : Pass} {raw : List RawFinding} {f : String}

theorem servicePath_playAll (b : Bridge) (moves : List Move) :
    (b.playAll moves).servicePath = b.servicePath := by
  have hdir : (b.playAll moves).projectDir = b.projectDir :=
    List.foldlRecOn (motive := fun b' => b'.projectDir = b.projectDir) moves play rfl
      fun b' hb m _ => (projectDir_play b' m).trans hb
  funext filename
  simp only [servicePath, sourceDir, hdir]

/-- Findings under the path of an open file are taken as a round of that file. -/
theorem taken_of_servicePath (hf : Path.IsName f.toList)
    (hfinds : report.findings? = some (pass, b.servicePath f, raw))
    (hattached : b.attached = some report.generation) (hopen : b.isOpen f = true) :
    b.taken report = some (.round f pass raw) := by
  have hfilename : Path.filenameIn? b.sourceDir (b.servicePath f) = some f :=
    Path.filenameIn?_join b.sourceDir hf
  unfold taken
  rw [if_pos hattached]
  cases hkind : report.kind with
  | stopped reason =>
      rw [Report.findings?_of_stopped hkind] at hfinds
      cases hfinds
  | event name body =>
      simp only [hfinds, Option.bind_eq_bind, Option.bind_some, hfilename, hopen, if_true]

/-- A round of a file is told of as one of that file, and changes the findings in no other. -/
theorem handle_of_round (htaken : b.taken report = some (.round f pass raw)) :
    (∃ items, (b.handle report).1 =
      some (if pass = .suggestion then .suggestions f items else .diagnostics f items)) ∧
    ∀ f', f' ≠ f → (b.handle report).2.findings.of f' = b.findings.of f' := by
  have htakes := b.takes_handle report
  rw [htaken] at htakes
  generalize b.handle report = result at htakes ⊢
  cases htakes with
  | suggested _ _ => exact ⟨⟨_, rfl⟩, fun _ _ => rfl⟩
  | found _ _ _ hpass =>
      refine ⟨⟨_, (congrArg some (if_neg hpass)).symm⟩, fun f' hf' => ?_⟩
      exact (Findings.of_update _ _ _ _ _).trans (if_neg hf'.symm)

/-- Whatever the directory of the project, a filename that is in order is found again from the
path by which the service knows the file, so that different files have different paths.  A path
from which a filename is found has the components of the source directory and behind them exactly
that name.  So findings that the attached instance reports under the path of an open file are
told of as findings in that file, also if the path was sent long before, and those in other files
stay as they are. -/
theorem findings_return (b : Bridge) :
    (∀ f, Filename.IsAccepted f → Path.filenameIn? b.sourceDir (b.servicePath f) = some f) ∧
    (∀ f f', Filename.IsAccepted f → Filename.IsAccepted f' →
      b.servicePath f = b.servicePath f' → f = f') ∧
    (∀ path f, Path.filenameIn? b.sourceDir path = some f →
      Path.components path.toList =
          Path.components b.sourceDir.toList ++ Path.components f.toList ∧
        (Path.components f.toList).length = 1) ∧
    ∀ moves report f pass raw, Filename.IsAccepted f →
      report.findings? = some (pass, b.servicePath f, raw) →
      (b.playAll moves).attached = some report.generation →
      (b.playAll moves).isOpen f = true →
      (∃ items, ((b.playAll moves).handle report).1 =
        some (if pass = .suggestion then .suggestions f items else .diagnostics f items)) ∧
      ∀ f', f' ≠ f → ((b.playAll moves).handle report).2.findings.of f' =
        (b.playAll moves).findings.of f' := by
  have hback : ∀ f, Filename.IsAccepted f →
      Path.filenameIn? b.sourceDir (b.servicePath f) = some f :=
    fun f hf => Path.filenameIn?_join b.sourceDir hf.isName
  refine ⟨hback, fun f f' hf hf' hpath => ?_, fun path f => Path.components_of_filenameIn?, ?_⟩
  · have hsame := hback f hf
    rw [hpath, hback f' hf'] at hsame
    exact (Option.some.inj hsame).symm
  · intro moves report f pass raw hf hfinds hattached hopen
    rw [← servicePath_playAll b moves] at hfinds
    exact handle_of_round (taken_of_servicePath hf.isName hfinds hattached hopen)

/-- The directory is a relative path with a dot and slashes that do not count.  The path was sent
to the first instance, and findings come from the second one. -/
theorem findings_return_relative :
    let b := new .standard "./book//."
    let moves : List Move := [.openFile "a.ts" "1", .happens (.dies 1), .update "a.ts" "2"]
    let report : Report := ⟨2, .event "semanticDiag" (some (.object [("diagnostics", .array []),
      ("file", .string "./book//./src/a.ts")]))⟩
    Filename.IsAccepted "a.ts" ∧ Filename.IsAccepted "b.ts" ∧
    Path.filenameIn? b.sourceDir (b.servicePath "a.ts") = some "a.ts" ∧
    b.servicePath "a.ts" ≠ b.servicePath "b.ts" ∧
    Path.filenameIn? b.sourceDir "./book/src//c.ts/" = some "c.ts" ∧
    Path.components "./book/src//c.ts/".toList =
      Path.components b.sourceDir.toList ++ Path.components "c.ts".toList ∧
    report.findings? = some (.semantic, b.servicePath "a.ts", []) ∧
    (b.playAll moves).attached = some report.generation ∧ (b.playAll moves).isOpen "a.ts" = true ∧
    ∃ items, ((b.playAll moves).handle report).1 = some (.diagnostics "a.ts" items) := by
  intro b moves report
  obtain ⟨hback, hapart, hcomponents, hfound⟩ := findings_return b
  have ha : Filename.IsAccepted "a.ts" := ⟨by decide +kernel, .typescript, by decide +kernel⟩
  have hb : Filename.IsAccepted "b.ts" := ⟨by decide +kernel, .typescript, by decide +kernel⟩
  have hc : Path.filenameIn? b.sourceDir "./book/src//c.ts/" = some "c.ts" := by decide +kernel
  have hne : "a.ts" ≠ "b.ts" := by decide
  have hfinds : report.findings? = some (.semantic, b.servicePath "a.ts", []) := by
    decide +kernel
  have hattached : (b.playAll moves).attached = some report.generation := by decide +kernel
  have hopen : (b.playAll moves).isOpen "a.ts" = true := by decide +kernel
  exact ⟨ha, hb, hback "a.ts" ha, fun heq => hne (hapart "a.ts" "b.ts" ha hb heq), hc,
    (hcomponents _ _ hc).1, hfinds, hattached, hopen,
    (hfound moves report "a.ts" .semantic [] ha hfinds hattached hopen).1⟩

end Bridge
end Notebook
