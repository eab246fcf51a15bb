import Notebook.Proofs.Actor.ServiceNews
import Notebook.Proofs.Actor.Serving

/-!
# Who gets findings

The service reports findings by path, long after it was asked for them.  Meanwhile cells come and
go, filenames change hands, and the service may have been replaced.  A report of findings reaches
a cell if it is from the attached instance, and its path is that of a file that is open and has
the filename of the cell.

* `Path.filenameIn?_eq_some_iff`: which paths are those of files in a directory.
* `Bridge.handle_cases`: what a report of findings means for the session.
* `Bridge.Narrated.nodup_launches`: instances are told apart by their generations.
* `Room.hearNext_hears`: who is told of the findings, from which `Room.Hears.owner` and
  `Room.Hears.dropped` follow.
* `Site.findings_reach_owner`: the above in every run, where nothing else tells of findings.
-/

set_option autoImplicit false

namespace Notebook

/-! ## Paths of files in a directory -/

namespace Path

/-- The filename that a component is. -/
def Component.filename? : Component → Option String
  | .name chars => some (String.ofList chars)
  | .parent => some ".."
  | .root => none
  | .current => none

/-- The path leads to a name that lies directly in the directory. -/
def IsChild (dir name path : String) : Prop :=
  ∃ c : Component, c.filename? = some name ∧
    components path.toList = components dir.toList ++ [c]

theorem below?_eq_some_iff (base path rest : List Component) :
    below? base path = some rest ↔ path = base ++ rest := by
  induction base generalizing path with
  | nil => exact ⟨fun h => Option.some.inj h, fun h => congrArg some h⟩
  | cons a as ih =>
      cases path with
      | nil => simp [below?]
      | cons b bs =>
          rw [below?, List.cons_append, List.cons.injEq]
          split
          · next hab => simp [ih, hab]
          · next hab => simp [Ne.symm hab]

/-- A filename is found for exactly the paths of names in the directory. -/
theorem filenameIn?_eq_some_iff (dir path name : String) :
    filenameIn? dir path = some name ↔ IsChild dir name path := by
  have hbelow := below?_eq_some_iff (components dir.toList) (components path.toList)
  unfold filenameIn?
  constructor
  · intro h
    split at h
    · next chars heq => exact ⟨.name chars, h, (hbelow _).mp heq⟩
    · next heq => exact ⟨.parent, h, (hbelow _).mp heq⟩
    · cases h
  · rintro ⟨c, hc, heq⟩
    rw [(hbelow _).mpr heq]
    cases c with
    | name chars => exact hc
    | parent => exact hc
    | root => cases hc
    | current => cases hc

/-- A path does not lead to two names. -/
theorem IsChild.unique {dir name name' path : String} (h : IsChild dir name path)
    (h' : IsChild dir name' path) : name = name' := by
  rw [← filenameIn?_eq_some_iff] at h h'
  exact Option.some.inj (h.symm.trans h')

end Path

/-! ## Bridges -/

/-- The round, the path of the file and the findings of a report that has any. -/
def Report.findings? (report : Report) : Option (Pass × String × List RawFinding) :=
  match report.kind with
  | .event name (some body) => do
    let pass ← Pass.ofEvent? name
    let (path, raw) ← RawFinding.report? body
    pure (pass, path, raw)
  | _ => none

theorem Report.findings?_of_stopped {report : Report} {reason : StopReason}
    (h : report.kind = .stopped reason) : report.findings? = none := by
  simp only [findings?, h]

/-- The generation of an instance that is launched. -/
def Deed.launch? : Deed → Option Nat
  | .launched g => some g
  | _ => none

namespace Bridge

variable {b : Bridge} {report : Report} {pass : Pass} {path : String} {raw : List RawFinding}

/-- A report means nothing, or it is one of the attached instance: of its end, or of findings in
a file that is open. -/
theorem handle_cases (b : Bridge) (report : Report) :
    (b.handle report).1 = none ∨
    b.attached = some report.generation ∧
      ((∃ reason, report.kind = .stopped reason ∧
          (b.handle report).1 = some (.stopped reason)) ∨
        ∃ pass path raw name items, report.findings? = some (pass, path, raw) ∧
          Path.IsChild b.sourceDir name path ∧ b.isOpen name = true ∧
          ((b.handle report).1 = some (.diagnostics name items) ∨
            (b.handle report).1 = some (.suggestions name items))) := by
  unfold handle
  split
  · next hattached =>
      split
      · next reason hkind => exact Or.inr ⟨hattached, Or.inl ⟨reason, hkind, rfl⟩⟩
      · next name body hkind =>
          split
          · next pass body hpass =>
              unfold takeFindings
              split
              · exact Or.inl rfl
              · next path raw hreport =>
                  split
                  · exact Or.inl rfl
                  · next filename hfilename =>
                      split
                      · next hopen =>
                          refine Or.inr ⟨hattached, Or.inr ⟨pass, path, raw, filename, ?_⟩⟩
                          have hfinds : report.findings? = some (pass, path, raw) := by
                            simp [Report.findings?, hkind, hpass, hreport]
                          have hchild := (Path.filenameIn?_eq_some_iff _ _ _).mp hfilename
                          simp only
                          split
                          · exact ⟨_, hfinds, hchild, hopen, Or.inr rfl⟩
                          · exact ⟨_, hfinds, hchild, hopen, Or.inl rfl⟩
                      · exact Or.inl rfl
          · exact Or.inl rfl
  · exact Or.inl rfl

/-- Findings of the attached instance in a file that is open mean something. -/
theorem handle_of_finds (hfinds : report.findings? = some (pass, path, raw))
    (hattached : b.attached = some report.generation) {name : String}
    (hchild : Path.IsChild b.sourceDir name path) (hopen : b.isOpen name = true) :
    (b.handle report).1 ≠ none := by
  have hfilename := (Path.filenameIn?_eq_some_iff _ _ _).mpr hchild
  unfold Report.findings? at hfinds
  split at hfinds
  · next event body hkind =>
      simp only [Option.bind_eq_bind, Option.bind_eq_some_iff, Option.pure_def,
        Option.some.injEq, Prod.exists, Prod.mk.injEq] at hfinds
      obtain ⟨pass', hpass, path', raw', hreport, rfl, rfl, rfl⟩ := hfinds
      simp only [handle, hattached, if_true, hkind, hpass, takeFindings, hreport, hfilename,
        hopen]
      split <;> simp
  · cases hfinds

/-- The end of the attached instance is never passed over. -/
theorem handle_of_stopped {reason : StopReason} (hkind : report.kind = .stopped reason)
    (hattached : b.attached = some report.generation) :
    (b.handle report).1 = some (.stopped reason) := by
  simp only [handle, hattached, if_true, hkind]

/-- A call that leaves known records in both cases leaves the directory. -/
theorem projectDir_after {α : Type} {c : Call α}
    {records records' : Table String String}
    (h : Call.Ends c b (fun _ => Leaves .univ b records) fun _ => Leaves .univ b records') :
    (b.after c).projectDir = b.projectDir :=
  Call.Ends.always (h.mono (fun _ _ h => h.projectDir) fun _ _ h => h.projectDir)

/-- A bridge never leaves its directory. -/
theorem projectDir_play (b : Bridge) (m : Move) : (b.play m).projectDir = b.projectDir := by
  have hname : ∀ f : String, f ∈ (Set.univ : Set String) := fun f => Set.mem_univ f
  cases m with
  | start => exact projectDir_after (ends_start b)
  | openFile filename content =>
      exact projectDir_after (ends_openFile b (hname filename) content)
  | update filename content => exact projectDir_after (ends_update b (hname filename) content)
  | closeFile filename => exact projectDir_after (ends_closeFile b filename)
  | rename old new content =>
      refine Call.Ends.always ((ends_rename b old (hname new) content).mono
        (fun _ _ h => h.projectDir) ?_)
      rintro _ _ (h | h)
      · exact h.projectDir
      · exact h.projectDir
  | reload => exact projectDir_after (ends_reload b)
  | requestDiagnostics filenames delay =>
      exact projectDir_after (ends_requestDiagnostics b filenames delay)
  | navigate navigation filename offset =>
      exact projectDir_after (ends_navigate b navigation filename offset)
  | shutdown =>
      have h : Call.Ends Bridge.shutdown b (fun _ => Leaves .univ b b.records)
          fun _ => Leaves .univ b b.records :=
        (ends_shutdown b).mono (fun _ _ h => h) fun _ _ h => h.elim
      exact projectDir_after h
  | collect ticket navigation =>
      rcases play_collect_cases b ticket navigation with heq | heq
      · rw [heq]
      · rw [heq]
        exact (later_apply b (.expires ticket)).projectDir
  | hear =>
      simp only [play]
      split
      · rfl
      · next report rest _ =>
          obtain ⟨findings, heq⟩ := handle_eq { b with reports := rest } report
          rw [heq]
  | happens incident => exact (later_apply b incident).projectDir
  | plan hindrance launches incidents => rfl

theorem closed_projectDir (names : Set String) (dir : String) :
    Closed names fun b => b.projectDir = dir :=
  ⟨fun b hb m _ => (projectDir_play b m).trans hb, fun _ hb => hb⟩

/-! ## Instances -/

/-- The launches of a trace are those of the story behind it. -/
theorem launches_replay (h : List Beat) :
    (replay h).trace.filterMap Deed.launch? = (h.filterMap Beat.launch?).reverse := by
  induction h using List.reverseRecOn with
  | nil => rfl
  | append_singleton h x ih =>
      rw [replay_snoc, List.filterMap_append, List.reverse_append]
      cases x with
      | launched g => exact congrArg (g :: ·) ih
      | numbered g =>
          exact (congrArg (List.filterMap Deed.launch?) (trace_changeInstance _ g _)).trans ih
      | shut g =>
          simp only [beat]
          split <;> exact ih
      | incident i =>
          exact (congrArg (List.filterMap Deed.launch?) (trace_apply _ i)).trans ih
      | _ => exact ih

/-- Instances are told apart by their generations: none is given to two launches. -/
theorem Narrated.nodup_launches (hb : b.Narrated) : (b.trace.filterMap Deed.launch?).Nodup := by
  obtain ⟨⟨h, hat⟩, -⟩ := hb
  rw [hat.same.trace, launches_replay, List.nodup_reverse]
  exact hat.story.launches

end Bridge

/-! ## Actors -/

/-- The code cell owns the file at a path: its filename is the one that the path has in the
source directory, and the file is open. -/
structure Session.Owns (s : Session) (b : Bridge) (path : String) (code : CodeCell) : Prop where
  cell : .code code ∈ s.cells
  child : Path.IsChild s.sourceDir code.filename path
  isOpen : b.isOpen code.filename = true

namespace Session

theorem mem_of_codeNamed? {s : Session} {filename : String} {code : CodeCell}
    (h : s.codeNamed? filename = some code) :
    .code code ∈ s.cells ∧ code.filename = filename := by
  obtain ⟨cell, hcell, hcode⟩ := List.mem_filterMap.mp (List.mem_of_find?_eq_some h)
  have hname : (code.filename == filename) = true := List.find?_some (p := fun c : CodeCell =>
    c.filename == filename) h
  refine ⟨?_, beq_iff_eq.mp hname⟩
  cases cell with
  | code c =>
      obtain rfl := Option.some.inj hcode
      exact hcell
  | _ => cases hcode

theorem ne_of_codeNamed?_eq_none {s : Session} {filename : String} {code : CodeCell}
    (h : s.codeNamed? filename = none) (hcell : .code code ∈ s.cells) :
    code.filename ≠ filename := by
  have hcode : code ∈ s.codeCells := List.mem_filterMap.mpr ⟨_, hcell, rfl⟩
  exact fun heq => List.find?_eq_none.mp h code hcode (beq_iff_eq.mpr heq)

end Session

namespace Room

variable {r : Room}

/-- What taking a report of the service comes to. -/
inductive Hears (r : Room) : Room → Prop where
  | nothing (h : ∀ b, r.actor.bridge = some b → b.reports = []) : Hears r r
  | passed (b : Bridge) (report : Report) (rest : List Report)
    (hbridge : r.actor.bridge = some b) (hreports : b.reports = report :: rest)
    (hfindings : ∀ pass path raw, report.findings? = some (pass, path, raw) →
      b.attached = some report.generation → ∀ code, ¬r.actor.session.Owns b path code)
    (hend : b.attached = some report.generation → ∀ reason, report.kind ≠ .stopped reason) :
    Hears r (r.reported b report rest)
  | found (b : Bridge) (report : Report) (rest : List Report) (pass : Pass) (path : String)
    (raw : List RawFinding) (code : CodeCell) (items : List Diagnostic) (notice : Notice)
    (hbridge : r.actor.bridge = some b) (hreports : b.reports = report :: rest)
    (hfinds : report.findings? = some (pass, path, raw))
    (hattached : b.attached = some report.generation)
    (howns : r.actor.session.Owns b path code)
    (hnotice : notice = .diagnostics code.id items ∨ notice = .suggestions code.id items) :
    Hears r ((r.reported b report rest).broadcast notice)
  | ended (b : Bridge) (report : Report) (rest : List Report) (reason : StopReason)
    (hbridge : r.actor.bridge = some b) (hreports : b.reports = report :: rest)
    (hattached : b.attached = some report.generation) (hkind : report.kind = .stopped reason) :
    Hears r ((r.reported b report rest).broadcast (.service .stopped))

/-- Findings go to a code cell that owns the file, and are dropped if there is none. -/
theorem publish_findings {b : Bridge} {report : Report} {rest : List Report}
    (hdir : b.sourceDir = r.actor.session.sourceDir) (hbridge : r.actor.bridge = some b)
    (hreports : b.reports = report :: rest) {pass : Pass} {path name : String}
    {raw : List RawFinding} {items : List Diagnostic} {notice : CellId → Notice}
    (hfinds : report.findings? = some (pass, path, raw))
    (hattached : b.attached = some report.generation)
    (hchild : Path.IsChild b.sourceDir name path) (hopen : b.isOpen name = true)
    (hnotice : ∀ cell, notice cell = .diagnostics cell items ∨
      notice cell = .suggestions cell items) :
    Hears r ((r.reported b report rest).publish name notice) := by
  have hsession : (r.reported b report rest).actor.session = r.actor.session := rfl
  unfold publish
  rw [hsession]
  split
  · next code hcode =>
      obtain ⟨hcell, rfl⟩ := Session.mem_of_codeNamed? hcode
      exact .found b report rest pass path raw code items _ hbridge hreports hfinds hattached
        ⟨hcell, hdir ▸ hchild, hopen⟩ (hnotice code.id)
  · next hnone =>
      refine .passed b report rest hbridge hreports ?_
        fun _ reason hkind => by rw [Report.findings?_of_stopped hkind] at hfinds; cases hfinds
      rintro pass' path' raw' hfinds' - code ⟨hcell, hchild', -⟩
      obtain ⟨-, rfl, -⟩ : pass = pass' ∧ path = path' ∧ raw = raw' := by
        simpa using hfinds.symm.trans hfinds'
      exact Session.ne_of_codeNamed?_eq_none hnone hcell (hchild'.unique (hdir ▸ hchild))

/-- The first report is taken, and what it means is told. -/
theorem hearNext_eq {b : Bridge} {report : Report} {rest : List Report}
    (hbridge : r.actor.bridge = some b) (hreports : b.reports = report :: rest) :
    r.hearNext =
      match (Bridge.handle { b with reports := rest } report).1 with
      | none => r.reported b report rest
      | some (.diagnostics name items) =>
        (r.reported b report rest).publish name (.diagnostics · items)
      | some (.suggestions name items) =>
        (r.reported b report rest).publish name (.suggestions · items)
      | some (.stopped _) => (r.reported b report rest).broadcast (.service .stopped) := by
  simp only [hearNext, hbridge, hreports, hear]
  rfl

theorem hearNext_hears
    (hdir : ∀ b, r.actor.bridge = some b → b.sourceDir = r.actor.session.sourceDir) :
    Hears r r.hearNext := by
  cases hbridge : r.actor.bridge with
  | none =>
      have hsame : r.hearNext = r := by simp only [hearNext, hbridge]
      rw [hsame]
      exact .nothing fun b hb => by rw [hbridge] at hb; cases hb
  | some b =>
      have hsource := hdir b hbridge
      cases hreports : b.reports with
      | nil =>
          have hsame : r.hearNext = r := by simp only [hearNext, hbridge, hreports]
          rw [hsame]
          refine .nothing fun b' hb' => ?_
          obtain rfl := Option.some.inj (hbridge.symm.trans hb')
          exact hreports
      | cons report rest =>
          rw [hearNext_eq hbridge hreports]
          rcases Bridge.handle_cases { b with reports := rest } report with hnone |
            ⟨hattached, ⟨reason, hkind, heq⟩ | ⟨pass, path, raw, name, items, hfinds, hchild,
              hopen, heq | heq⟩⟩
          · rw [hnone]
            refine .passed b report rest hbridge hreports ?_ fun hattached reason hkind => ?_
            · rintro pass path raw hfinds hattached code ⟨hcell, hchild, hopen⟩
              exact Bridge.handle_of_finds (b := { b with reports := rest }) hfinds hattached
                (hsource ▸ hchild) hopen hnone
            · have hstopped := Bridge.handle_of_stopped (b := { b with reports := rest }) hkind
                hattached
              rw [hnone] at hstopped
              cases hstopped
          · rw [heq]
            exact .ended b report rest reason hbridge hreports hattached hkind
          · rw [heq]
            exact publish_findings hsource hbridge hreports hfinds hattached hchild hopen
              fun _ => Or.inl rfl
          · rw [heq]
            exact publish_findings hsource hbridge hreports hfinds hattached hchild hopen
              fun _ => Or.inr rfl

/-- Findings that are told go to a cell that owns the file. -/
theorem Hears.owner {r' : Room} (h : Hears r r') (hnothing : r.effects = []) {cell : CellId}
    {items : List Diagnostic} {notice : Notice}
    (hnotice : notice = .diagnostics cell items ∨ notice = .suggestions cell items)
    (hmem : .notice notice ∈ r'.effects) :
    ∃ b report rest pass path raw code,
      r.actor.bridge = some b ∧ b.reports = report :: rest ∧
      report.findings? = some (pass, path, raw) ∧ b.attached = some report.generation ∧
      code.id = cell ∧ r.actor.session.Owns b path code := by
  cases h with
  | nothing => simp [hnothing] at hmem
  | passed b report rest => simp [reported, hnothing] at hmem
  | found b report rest pass path raw code items' notice' hbridge hreports hfinds hattached howns
      hnotice' =>
      obtain rfl : notice = notice' := by
        simpa [reported, broadcast, tell, hnothing] using hmem
      refine ⟨b, report, rest, pass, path, raw, code, hbridge, hreports, hfinds, hattached, ?_,
        howns⟩
      rcases hnotice with rfl | rfl <;> rcases hnotice' with heq | heq <;> cases heq <;> rfl
  | ended b report rest reason =>
      obtain rfl : notice = .service .stopped := by
        simpa [reported, broadcast, tell, hnothing] using hmem
      rcases hnotice with heq | heq <;> cases heq

/-- Findings are dropped if they are not those of the attached instance, or if no cell owns the
file. -/
theorem Hears.dropped {r' : Room} (h : Hears r r') (hnothing : r.effects = []) {b : Bridge}
    {report : Report} {rest : List Report} {pass : Pass} {path : String} {raw : List RawFinding}
    (hbridge : r.actor.bridge = some b) (hreports : b.reports = report :: rest)
    (hfinds : report.findings? = some (pass, path, raw))
    (hunowned : b.attached = some report.generation →
      ∀ code, ¬r.actor.session.Owns b path code) : r'.effects = [] := by
  cases h with
  | nothing => exact hnothing
  | passed b' report' rest' => exact hnothing
  | found b' report' rest' pass' path' raw' code items notice hbridge' hreports' hfinds' hattached
      howns =>
      obtain rfl := Option.some.inj (hbridge.symm.trans hbridge')
      obtain ⟨rfl, rfl⟩ := List.cons.inj (hreports.symm.trans hreports')
      obtain ⟨-, rfl, -⟩ : pass = pass' ∧ path = path' ∧ raw = raw' := by
        simpa using hfinds.symm.trans hfinds'
      exact absurd howns (hunowned hattached code)
  | ended b' report' rest' reason hbridge' hreports' _ hkind =>
      obtain rfl := Option.some.inj (hbridge.symm.trans hbridge')
      obtain ⟨rfl, rfl⟩ := List.cons.inj (hreports.symm.trans hreports')
      rw [Report.findings?_of_stopped hkind] at hfinds
      cases hfinds

end Room

/-! ## Runs -/

namespace Site

variable {s : Site}

/-- A bridge is about the source directory of the session. -/
theorem run_sourceDir (facilities : Facilities) (spawner : Spawner) (disk : Disk)
    (supervisor : Supervisor) (session : Session) (events : List Event) :
    let s := (opened facilities spawner disk supervisor session).run events
    ∀ b, s.actor.bridge = some b → b.sourceDir = s.actor.session.sourceDir := by
  intro s b hb
  have hserves := run_serves (Bridge.closed_projectDir session.possibleNames session.dir)
    (opened_serves facilities spawner disk supervisor session rfl) events
  exact congrArg (Path.join · "src") ((hserves.bridge hb).trans hserves.session.dir.symm)

/-- What a site does when its actor hears of its service. -/
theorem effects_hear (s : Site) :
    s.effects [.hear] = if s.alive then s.room.hearNext.effects else [] := by
  refine effects_eq ?_
  change s.hear.log = _
  unfold hear
  split
  · rfl
  · exact (List.append_nil _).symm

/-- Besides letters and reports, nothing is told but the output of processes. -/
theorem log_step {e : Event} (hwork : e ≠ .work) (hhear : e ≠ .hear) :
    (s.step e).log = s.log ∨
      ∃ cell stream text, (s.step e).log = s.log ++ [.notice (.output cell stream text)] := by
  cases e with
  | send client intent => exact Or.inl (log_post _ _)
  | ask call => exact Or.inl (log_post _ _)
  | close call => exact Or.inl (log_post _ _)
  | work => exact absurd rfl hwork
  | hear => exact absurd rfl hhear
  | conclude index =>
      simp only [step, conclude]
      split
      · exact Or.inl rfl
      · split
        · exact Or.inl rfl
        · exact Or.inl (log_post _ _)
  | happens incident => exact Or.inl rfl
  | plan hindrance launches incidents => exact Or.inl rfl
  | process generation what =>
      simp only [step]
      split
      · exact Or.inl rfl
      · exact Or.inl rfl
  | pass generation =>
      simp only [step, pass]
      split
      · next w stream text _ _ => exact Or.inr ⟨w.cell, stream, text, rfl⟩
      · exact Or.inl (log_post _ _)
      · exact Or.inl rfl
  | elsewhere key pid =>
      simp only [step]
      split
      · exact Or.inl rfl
      · exact Or.inl rfl
  | disturb disk => exact Or.inl rfl
  | respawn spawner => exact Or.inl rfl

/-- Findings are told when a report of the service is taken, and at no other time. -/
theorem eq_hear_of_findings {e : Event} {cell : CellId} {items : List Diagnostic}
    {notice : Notice} (hnotice : notice = .diagnostics cell items ∨
      notice = .suggestions cell items) (h : .notice notice ∈ s.effects [e]) : e = .hear := by
  have hnews : Effect.isServiceNews (.notice notice) = true := by
    rcases hnotice with rfl | rfl <;> rfl
  by_contra hhear
  by_cases hwork : e = .work
  · subst hwork
    have heffects : s.effects [.work] = [] ∨
        ∃ letter, s.effects [.work] = (s.room.receive letter).2.effects := by
      change (s.work.log.drop s.log.length) = _ ∨ ∃ letter, s.work.log.drop s.log.length = _
      unfold work
      split
      · next letter rest _ _ => exact Or.inr ⟨letter, List.drop_left⟩
      · exact Or.inl List.drop_length
    rcases heffects with heq | ⟨letter, heq⟩
    · rw [heq] at h
      cases h
    · rw [heq] at h
      have hmem : .notice notice ∈ (s.room.receive letter).2.serviceNews :=
        List.mem_filter.mpr ⟨h, hnews⟩
      rcases Room.receive_news s.room letter with hnone | ⟨status, hstatus⟩
      · rw [hnone] at hmem
        cases hmem
      · rw [hstatus] at hmem
        obtain heq : notice = .service status := by simpa [Room.serviceNews, room] using hmem
        rcases hnotice with rfl | rfl <;> cases heq
  · have hdrop : s.effects [e] = (s.step e).log.drop s.log.length := rfl
    rcases log_step (s := s) hwork hhear with hlog | ⟨cell', stream, text, hlog⟩
    · rw [hdrop, hlog, List.drop_length] at h
      cases h
    · rw [hdrop, hlog, List.drop_left, List.mem_singleton] at h
      rcases hnotice with rfl | rfl <;> cases h

/-- Findings reach only the cell that owns the file.  In every run, whatever has become of the
cells and of the service in the meantime, findings are told only when a report of the attached
instance is taken, and to a code cell of the session whose filename is that of the path in the
source directory, and whose file is open.  A report of an instance that is not attached, or in a
file that no code cell owns, is dropped: its path leads elsewhere, its file is not open, or no
code cell has the filename.  Instances are told apart by their generations. -/
theorem findings_reach_owner (facilities : Facilities) (spawner : Spawner) (disk : Disk)
    (supervisor : Supervisor) (session : Session) (events : List Event) :
    let s := (opened facilities spawner disk supervisor session).run events
    (∀ e cell items, .notice (.diagnostics cell items) ∈ s.effects [e] ∨
        .notice (.suggestions cell items) ∈ s.effects [e] →
      e = .hear ∧ ∃ b report rest pass path raw code,
        s.actor.bridge = some b ∧ b.reports = report :: rest ∧
        report.findings? = some (pass, path, raw) ∧
        b.attached = some report.generation ∧ code.id = cell ∧
        .code code ∈ s.actor.session.cells ∧
        Path.IsChild (Path.join session.dir "src") code.filename path ∧
        b.isOpen code.filename = true) ∧
    (∀ b report rest pass path raw, s.actor.bridge = some b → b.reports = report :: rest →
      report.findings? = some (pass, path, raw) →
      (b.attached ≠ some report.generation ∨
        (∀ name, ¬Path.IsChild (Path.join session.dir "src") name path) ∨
        (∀ name, Path.IsChild (Path.join session.dir "src") name path →
          b.isOpen name = false ∨
          ∀ code, .code code ∈ s.actor.session.cells → code.filename ≠ name)) →
      s.effects [.hear] = []) ∧
    (s.actor.ledger.trace.filterMap Deed.launch?).Nodup := by
  intro s
  have hsource : s.actor.session.sourceDir = Path.join session.dir "src" :=
    (run_comesFrom facilities spawner disk supervisor session events).sourceDir
  have hhears := Room.hearNext_hears (r := s.room)
    (run_sourceDir facilities spawner disk supervisor session events)
  refine ⟨fun e cell items h => ?_, fun b report rest pass path raw hbridge hreports hfinds
    hnobody => ?_, (run_narrated (opened_narrated facilities spawner disk supervisor session)
      events).ledger.nodup_launches⟩
  · obtain ⟨notice, hnotice, hmem⟩ : ∃ notice, (notice = .diagnostics cell items ∨
        notice = .suggestions cell items) ∧ .notice notice ∈ s.effects [e] := by
      rcases h with h | h
      · exact ⟨_, Or.inl rfl, h⟩
      · exact ⟨_, Or.inr rfl, h⟩
    obtain rfl := eq_hear_of_findings hnotice hmem
    refine ⟨rfl, ?_⟩
    rw [effects_hear] at hmem
    split at hmem
    · obtain ⟨b, report, rest, pass, path, raw, code, hbridge, hreports, hfinds, hattached, hcell,
        howns⟩ := hhears.owner rfl hnotice hmem
      exact ⟨b, report, rest, pass, path, raw, code, hbridge, hreports, hfinds, hattached, hcell,
        howns.cell, hsource ▸ howns.child, howns.isOpen⟩
    · cases hmem
  · have hunowned : b.attached = some report.generation →
        ∀ code, ¬s.actor.session.Owns b path code := by
      intro hattached code howns
      have hchild := howns.child
      rw [hsource] at hchild
      rcases hnobody with hreplaced | houtside | hunowned
      · exact hreplaced hattached
      · exact houtside _ hchild
      · rcases hunowned _ hchild with hclosed | hnone
        · rw [howns.isOpen] at hclosed
          cases hclosed
        · exact hnone code howns.cell rfl
    rw [effects_hear]
    split
    · exact hhears.dropped rfl hbridge hreports hfinds hunowned
    · rfl

/-- A cell is deleted and another one gets its filename, and with it the findings that were asked
for before.  Those that an instance reports after it has been replaced are dropped. -/
theorem findings_reach_owner_reused :
    let session : Session := ⟨⟨"s"⟩, "/book", .typescript,
      [.code ⟨⟨"x"⟩, "1", "a.ts", .typescript, .idle⟩]⟩
    let found : Json := .object [("body", .object [("diagnostics", .array []),
      ("file", .string "/book/src/a.ts")]), ("event", .string "semanticDiag"),
      ("type", .string "event")]
    let first := opened ⟨.standard, .standard, []⟩ (fun _ _ => .ok 7) .empty (.new 16) session
    let events : List Event := [.send ⟨0⟩ .startService, .work, .send ⟨0⟩ (.delete ⟨"x"⟩), .work,
      .send ⟨0⟩ (.create 0 (.code ⟨⟨"y"⟩, "2", "a.ts", .typescript, .idle⟩)), .work,
      .happens (.frame 1 found)]
    let later : List Event := events ++ [.happens (.dies 1), .hear, .happens (.frame 1 found),
      .send ⟨0⟩ (.edit ⟨"y"⟩ "3"), .work]
    ((first.run events).effects [.hear] = [.notice (.diagnostics ⟨"y"⟩ [])] ∧
      ∃ b report rest pass path raw code,
        (first.run events).actor.bridge = some b ∧ b.reports = report :: rest ∧
        report.findings? = some (pass, path, raw) ∧ b.attached = some report.generation ∧
        code.id = ⟨"y"⟩ ∧ .code code ∈ (first.run events).actor.session.cells ∧
        Path.IsChild (Path.join "/book" "src") code.filename path ∧
        b.isOpen code.filename = true) ∧
    (first.run later).actor.bridge.map
        (fun b => (b.attached, b.reports.map fun r => (r.generation, r.findings?.isSome))) =
      some (some 2, [(1, true)]) ∧
    (first.run later).effects [.hear] = [] := by
  intro session found first events later
  have htold : (first.run events).effects [.hear] = [.notice (.diagnostics ⟨"y"⟩ [])] := by
    decide +kernel
  have hlate : (first.run later).actor.bridge.map
      (fun b => (b.attached, b.reports.map fun r => (r.generation, r.findings?.isSome))) =
      some (some 2, [(1, true)]) := by decide +kernel
  obtain ⟨hreach, -, -⟩ := findings_reach_owner ⟨.standard, .standard, []⟩ (fun _ _ => .ok 7)
    .empty (.new 16) session events
  obtain ⟨-, hdrop, -⟩ := findings_reach_owner ⟨.standard, .standard, []⟩ (fun _ _ => .ok 7)
    .empty (.new 16) session later
  have hevents : (opened ⟨.standard, .standard, []⟩ (fun _ _ => .ok 7) .empty (.new 16)
    session).run events = first.run events := rfl
  have hlater : (opened ⟨.standard, .standard, []⟩ (fun _ _ => .ok 7) .empty (.new 16)
    session).run later = first.run later := rfl
  rw [hevents] at hreach
  rw [hlater] at hdrop
  generalize first.run events = s at *
  generalize first.run later = s' at *
  refine ⟨⟨htold, ?_⟩, hlate, ?_⟩
  · refine (hreach .hear ⟨"y"⟩ [] (Or.inl ?_)).2
    rw [htold]
    exact List.mem_cons_self
  · obtain ⟨b, hbridge, hb⟩ := Option.map_eq_some_iff.mp hlate
    obtain ⟨hattached, hreports⟩ := Prod.mk.inj hb
    obtain ⟨report, rest, hsplit, hreport, -⟩ := List.map_eq_cons_iff.mp hreports
    obtain ⟨hgeneration, hfinds⟩ := Prod.mk.inj hreport
    obtain ⟨⟨pass, path, raw⟩, hfinds⟩ := Option.isSome_iff_exists.mp hfinds
    refine hdrop b report rest pass path raw hbridge hsplit hfinds (Or.inl ?_)
    rw [hattached, hgeneration]
    decide

end Site
end Notebook
