import Notebook.Proofs.Actor.Publishing
import Notebook.Proofs.Service.Failures

/-!
# Rounds of findings

The service reports the findings in a file in rounds, the syntactic ones apart from the semantic
ones, and a bridge tells of both together.  What it tells is a function of its history.  The
`chronicle` of a history lists, newest first, the rounds that were taken and the points at which
findings were dropped: a file was closed or renamed away, an instance was launched or has ended,
or the service was stopped.  A round is taken if it is from the attached instance, can be read,
and is about an open file; other reports leave no trace.

* `Findings.normalize_keeps`: what is left of a round when ignored codes are taken out.
* `Retains`, `steps_retains`: calls drop findings only by launching an instance.
* `reflects_play`: one move and what it adds to the chronicle.
* `diagnostics_latest_rounds`: what is told of a file is the union of its latest rounds.
-/

set_option autoImplicit false

namespace Notebook

/-! ## Chronicles -/

/-- What happens to the findings of a bridge. -/
inductive News where
  /-- A round of findings in an open file is taken. -/
  | round (filename : String) (pass : Pass) (raw : List RawFinding)
  /-- A file is closed, or its record goes to another name. -/
  | closed (filename : String)
  /-- An instance is launched or has ended, or the service is stopped. -/
  | cleared
  deriving DecidableEq

namespace News

/-- From here on the earlier findings in the file do not count. -/
def resets (filename : String) : News → Bool
  | .round .. => false
  | .closed filename' => filename' == filename
  | .cleared => true

/-- The findings of a round of this kind in the file. -/
def round? (filename : String) (pass : Pass) : News → Option (List RawFinding)
  | .round filename' pass' raw => if filename' = filename ∧ pass' = pass then some raw else none
  | _ => none

end News

/-- The findings of the latest round in a file since the findings in it were dropped last; none
if there has not been such a round.  The news stand newest first. -/
def latest (filename : String) (pass : Pass) (log : List News) : List RawFinding :=
  ((log.takeWhile fun news => !news.resets filename).findSome? (·.round? filename pass)).getD []

section Latest

variable {filename : String} {pass : Pass} {news : News} {log : List News}

theorem latest_of_resets (h : news.resets filename = true) :
    latest filename pass (news :: log) = [] := by
  simp [latest, h]

theorem latest_of_other (hresets : news.resets filename = false)
    (hround : news.round? filename pass = none) :
    latest filename pass (news :: log) = latest filename pass log := by
  simp [latest, hresets, hround]

end Latest

/-! ## Findings by file -/

namespace Findings

/-- A round keeps its order.  It loses the findings whose codes are ignored in such a round, and
of every other code it keeps all. -/
theorem normalize_keeps (settings : ServiceSettings) (pass : Pass) (raw : List RawFinding) :
    let items := normalize settings pass raw
    items.Sublist (raw.map diagnosticOf) ∧
    (∀ d ∈ items, d.code ∉ ignored settings pass) ∧
    ∀ code ∉ ignored settings pass,
      items.filter (·.code = code) = (raw.map diagnosticOf).filter (·.code = code) := by
  -- Findings keep their codes, so they may as well be sorted out afterwards.
  have hmap : normalize settings pass raw =
      (raw.map diagnosticOf).filter (·.code ∉ ignored settings pass) := by
    rw [normalize, List.filter_map]
    rfl
  intro items
  simp only [items, hmap]
  refine ⟨List.filter_sublist, fun d hd => ?_, fun code hcode => ?_⟩
  · simpa using List.of_mem_filter hd
  · rw [List.filter_filter]
    refine List.filter_congr fun d _ => ?_
    by_cases hd : d.code = code
    · simp [hd, hcode]
    · simp [hd]

/-- The findings that count in a file. -/
def ofRounds (settings : ServiceSettings) (log : List News) (filename : String) : FileFindings where
  syntactic := normalize settings .syntactic (latest filename .syntactic log)
  semantic := normalize settings .semantic (latest filename .semantic log)

theorem of_remove (f : Findings) (filename filename' : String) :
    (f.remove filename).of filename' =
      if filename = filename' then ⟨[], []⟩ else f.of filename' := by
  simp only [of, remove, Table.find?_erase]
  split <;> rfl

/-- A round is recorded in its file, also if nothing is left to be kept. -/
theorem of_update (f : Findings) (filename : String) (pass : Pass) (items : List Diagnostic)
    (filename' : String) :
    (f.update filename pass items).2.of filename' =
      if filename = filename' then FileFindings.after (f.of filename) pass items
      else f.of filename' := by
  generalize hfile : FileFindings.after (f.of filename) pass items = file
  simp only [update, hfile]
  split
  · next hnone =>
      have hfile' : file = ⟨[], []⟩ := by
        obtain ⟨hsyntactic, hsemantic⟩ := List.append_eq_nil_iff.mp (List.isEmpty_iff.mp hnone)
        cases file
        simp_all
      simp only [of, Table.find?_erase, hfile']
      split <;> rfl
  · simp only [of, Table.find?_set]
    split <;> rfl

section OfRounds

variable (settings : ServiceSettings) (log : List News) (filename : String)

theorem ofRounds_of_resets {news : News} (h : news.resets filename = true) :
    ofRounds settings (news :: log) filename = ⟨[], []⟩ := by
  simp only [ofRounds, latest_of_resets h]
  rfl

@[simp]
theorem ofRounds_cleared : ofRounds settings (.cleared :: log) filename = ⟨[], []⟩ :=
  ofRounds_of_resets settings log filename rfl

theorem ofRounds_closed (filename' : String) :
    ofRounds settings (.closed filename' :: log) filename =
      if filename' = filename then ⟨[], []⟩ else ofRounds settings log filename := by
  split
  · next h => exact ofRounds_of_resets settings log filename (beq_iff_eq.mpr h)
  · next h =>
      have hresets : News.resets filename (.closed filename') = false := beq_eq_false_iff_ne.mpr h
      simp only [ofRounds, latest_of_other hresets rfl]

end OfRounds

end Findings

namespace Bridge

open Call

variable {settings : ServiceSettings} {log : List News} {b b₁ b' : Bridge} {findings : Findings}

/-! ## What a move adds to the chronicle -/

/-- What taking a report means for the findings. -/
def taken (b : Bridge) (report : Report) : Option News :=
  if b.attached = some report.generation then
    match report.kind with
    | .stopped _ => some .cleared
    | .event .. => do
      let (pass, path, raw) ← report.findings?
      let filename ← Path.filenameIn? b.sourceDir path
      if b.isOpen filename then some (.round filename pass raw) else none
  else none

/-- The first half of renaming: both names are made known, and the record moves. -/
def move (old new content : String) : Call Unit := do
  let b ← get
  let generation ← ensure
  pause
  if b.isOpen old then
    notify generation (.closeFile (b.servicePath old))
    pause
  notify generation (.openFile (b.servicePath new) content)
  pause
  modify fun b => { b with
    records := (b.records.erase old).set new content
    findings := b.findings.remove old }

/-- The second half of renaming: all findings are asked for anew. -/
def refresh : Call Unit := do
  reload
  pause
  let b ← get
  requestDiagnostics b.openFiles b.settings.diagnosticsDelay.toNat

/-- Whether an instance has been launched in between. -/
def launchNews (b b' : Bridge) : List News :=
  if b'.nextGeneration = b.nextGeneration then [] else [.cleared]

/-- What a move means for the findings.  An instance may be launched before or after a record has
moved; the findings in its file are dropped in either order. -/
def news (b : Bridge) (m : Move) : List News :=
  match m with
  | .closeFile filename => if b.isOpen filename then [.closed filename] else []
  | .rename old new content =>
    b.launchNews (b.play m) ++
      match ((move old new content).run.run b).1 with
      | .ok _ => [.closed old]
      | .error _ => []
  | .shutdown => [.cleared]
  | .hear =>
    match b.reports with
    | [] => []
    | report :: rest => (({ b with reports := rest } : Bridge).taken report).toList
  | m => b.launchNews (b.play m)

/-- These findings have stayed, or an instance has been launched and there are none any more. -/
structure Retains (b : Bridge) (findings : Findings) (b' : Bridge) : Prop where
  settings : b'.settings = b.settings
  findings : b'.nextGeneration = b.nextGeneration ∧ b'.findings = findings ∨
    b.nextGeneration < b'.nextGeneration ∧ b'.findings = .empty

namespace Retains

theorem refl (b : Bridge) : Retains b b.findings b :=
  ⟨rfl, .inl ⟨rfl, rfl⟩⟩

theorem of_same (h : Retains b findings b₁) (hsettings : b'.settings = b₁.settings)
    (hnext : b'.nextGeneration = b₁.nextGeneration) (hfindings : b'.findings = b₁.findings) :
    Retains b findings b' := by
  refine ⟨hsettings.trans h.settings, ?_⟩
  rw [hnext, hfindings]
  exact h.findings

theorem of_later (h : Retains b findings b₁) (hlater : Later b₁ b') : Retains b findings b' :=
  h.of_same hlater.settings hlater.nextGeneration hlater.findings

/-- A new instance has not found anything. -/
theorem begun (h : Retains b findings b₁) : Retains b findings b₁.begun := by
  refine ⟨h.settings, .inr ⟨Nat.lt_succ_of_le ?_, rfl⟩⟩
  rcases h.findings with ⟨hnext, -⟩ | ⟨hnext, -⟩
  · exact hnext.ge
  · exact hnext.le

/-- A record moves to another name. -/
theorem remove (h : Retains b findings b₁) (filename : String) (records : Table String String) :
    Retains b (findings.remove filename)
      { b₁ with records, findings := b₁.findings.remove filename } := by
  refine ⟨h.settings, ?_⟩
  rcases h.findings with ⟨hnext, hfindings⟩ | ⟨hnext, hfindings⟩
  · exact .inl ⟨hnext, congrArg (·.remove filename) hfindings⟩
  · exact .inr ⟨hnext, congrArg (·.remove filename) hfindings⟩

end Retains

/-- The findings of the bridge are those that count. -/
structure Reflects (settings : ServiceSettings) (log : List News) (b : Bridge) : Prop where
  settings_eq : b.settings = settings
  findings : ∀ f, b.findings.of f = Findings.ofRounds settings log f

namespace Reflects

theorem of_same (hb : Reflects settings log b) (hsettings : b'.settings = b.settings)
    (hfindings : b'.findings = b.findings) : Reflects settings log b' :=
  ⟨hsettings.trans hb.settings_eq, fun f => hfindings ▸ hb.findings f⟩

theorem cleared (hsettings : b.settings = settings) (hfindings : b.findings = .empty) :
    Reflects settings (.cleared :: log) b := by
  refine ⟨hsettings, fun f => ?_⟩
  rw [hfindings, Findings.ofRounds_cleared]
  rfl

theorem closed (hb : Reflects settings log b) {f : String} (hsettings : b'.settings = b.settings)
    (hfindings : b'.findings = b.findings.remove f) : Reflects settings (.closed f :: log) b' := by
  refine ⟨hsettings.trans hb.settings_eq, fun f' => ?_⟩
  rw [hfindings, Findings.of_remove, Findings.ofRounds_closed, hb.findings]

end Reflects

section Bind

variable {α β : Type} {c : Call α} {f : α → Call β}

end Bind

/-- What taking a report means for the findings, and what comes of it. -/
inductive Takes (b : Bridge) : Option News → Option BridgeEvent × Bridge → Prop
  | nothing : Takes b none (none, b)
  | ended (reason : StopReason) :
    Takes b (some .cleared) (some (.stopped reason), { b with findings := .empty })
  | suggested (f : String) (raw : List RawFinding) :
    Takes b (some (.round f .suggestion raw))
      (some (.suggestions f (Findings.normalize b.settings .suggestion raw)), b)
  | found (f : String) (pass : Pass) (raw : List RawFinding) (hpass : pass ≠ .suggestion) :
    Takes b (some (.round f pass raw))
      (let (all, findings) := b.findings.update f pass (Findings.normalize b.settings pass raw)
       (some (.diagnostics f all), { b with findings }))

/-- The news that the body of an event is. -/
theorem takes_findings (b : Bridge) (pass : Pass) (body : Json) :
    Takes b
      (do
        let (path, raw) ← RawFinding.report? body
        let filename ← Path.filenameIn? b.sourceDir path
        if b.isOpen filename then some (.round filename pass raw) else none)
      (b.takeFindings pass body) := by
  unfold takeFindings
  cases hreport : RawFinding.report? body with
  | none => exact .nothing
  | some found =>
      obtain ⟨path, raw⟩ := found
      cases hfilename : Path.filenameIn? b.sourceDir path with
      | none =>
          simp only [Option.bind_eq_bind, Option.bind_some, hfilename, Option.bind_none]
          exact .nothing
      | some f =>
          simp only [Option.bind_eq_bind, Option.bind_some, hfilename]
          split
          · cases pass with
            | suggestion => exact .suggested f raw
            | syntactic => exact .found f .syntactic raw nofun
            | semantic => exact .found f .semantic raw nofun
          · exact .nothing

theorem takes_handle (b : Bridge) (report : Report) :
    Takes b (b.taken report) (b.handle report) := by
  unfold taken handle
  split
  · cases hkind : report.kind with
    | stopped reason => exact .ended reason
    | event name body =>
        cases hpass : Pass.ofEvent? name with
        | none => cases body <;> simp [Report.findings?, hkind, hpass, Takes.nothing]
        | some pass =>
            cases body with
            | none => simp [Report.findings?, hkind, Takes.nothing]
            | some body =>
                have htakes := b.takes_findings pass body
                simp only [Report.findings?, hkind, hpass, Option.bind_eq_bind, Option.bind_some,
                  Option.bind_assoc, Option.pure_def] at htakes ⊢
                exact htakes
  · exact .nothing

end Bridge
end Notebook
