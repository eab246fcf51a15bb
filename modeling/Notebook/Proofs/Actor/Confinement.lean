import Notebook.Proofs.Actor.Filing
import Notebook.Proofs.Actor.Serving
import Notebook.Proofs.Paths

/-!
# Paths of an actor

Clients choose the filenames of code cells.  An actor checks a filename and takes the blanks off
before it uses it, so that a code cell's file is always one ordinary component below the source
directory, if this is so at the beginning.

The separators may be chosen: the slash, or the slash and the backslash.

* `Room.Filed.confined`: the deeds and the runs that a letter comes to.
* `Site.paths_stay_confined`: every path that is written, removed, run or told to the service.
-/

set_option autoImplicit false

namespace Notebook

/-- The paths in a command. -/
def Command.paths : Command → List String
  | .openFile path _ => [path]
  | .closeFile path => [path]
  | .findErrors paths _ => paths
  | .reloadProjects => []
  | .navigate _ path _ => [path]

/-- A deed that makes the source directory, or writes or removes a file of the session. -/
def FileDeed.Confined (s : Session) (separators : List Char) : FileDeed → Prop
  | .makeDirectory path => path = s.sourceDir
  | .write path _ => s.IsFilePath separators path
  | .remove path => s.IsFilePath separators path

/-- What is done to files stays with those of the session, and so does what is run.  An installer
gets the names of packages, which are no paths. -/
def Effect.Confined (s : Session) (separators : List Char) (runner : RunnerSettings) :
    Effect → Prop
  | .files deeds => ∀ deed ∈ deeds, deed.Confined s separators
  | .spawned _ _ request .cell => ∃ language args path, s.IsFilePath separators path ∧
      runner.command language = request.program :: args ∧ request.args = args ++ [path]
  | _ => True

theorem Effect.confined_of_not_isFiling {s : Session} {separators : List Char}
    {runner : RunnerSettings} {e : Effect} (h : e.isFiling = false) :
    e.Confined s separators runner := by
  cases e with
  | files deeds => cases h
  | spawned generation pid request purpose =>
      cases purpose with
      | cell => cases h
      | install packages => exact trivial
  | _ => exact trivial

section

variable {s₀ : Session} {separators : List Char}

/-! ## Deeds -/

namespace Session

variable {s : Session}

/-- An ordinary filename makes a path of the session. -/
theorem ComesFrom.isFilePath (h : s₀.ComesFrom s) {f : String}
    (hf : Filename.IsOrdinary separators f) : s₀.IsFilePath separators (s.pathFor f) :=
  Or.inr ⟨f, hf, h.pathFor f⟩

theorem ComesFrom.writing_confined (h : s₀.ComesFrom s) {cell : Cell}
    (hcell : ∀ code, cell.code? = some code → Filename.IsOrdinary separators code.filename) :
    ∀ deed ∈ s.writing cell, deed.Confined s₀ separators := by
  cases cell with
  | code code => 
      simpa [writing, FileDeed.Confined, h.sourceDir] using h.isFilePath (hcell code rfl)
  | manifest manifest =>
      rintro deed hdeed
      obtain rfl := List.mem_singleton.mp hdeed
      exact Or.inl h.manifestPath
  | title _ => exact List.forall_mem_nil _
  | markdown _ => exact List.forall_mem_nil _

theorem ComesFrom.removing_confined (h : s₀.ComesFrom s) {f : String}
    (hf : Filename.IsOrdinary separators f) :
    ∀ deed ∈ s.removing f, deed.Confined s₀ separators := by
  simpa [removing, FileDeed.Confined] using h.isFilePath hf

/-- So it is when the session is opened. -/
theorem preparing_confined (s : Session)
    (h : ∀ f ∈ s.filenames, Filename.IsOrdinary separators f) :
    ∀ deed ∈ s.preparing, deed.Confined s separators := by
  intro deed hdeed
  rcases List.mem_cons.mp hdeed with rfl | hdeed
  · exact rfl
  · obtain ⟨cell, hcell, hmem⟩ := List.mem_flatMap.mp hdeed
    refine (ComesFrom.refl s).writing_confined (fun code hcode => h _ ?_) deed hmem
    exact List.mem_map_of_mem (List.mem_filterMap.mpr ⟨cell, hcell, hcode⟩)

end Session

/-! ## Letters -/

namespace Room

open Session

variable {r r' : Room}

variable {runner : RunnerSettings}

/-- All that was done so far is confined. -/
def Confined (s₀ : Session) (separators : List Char) (runner : RunnerSettings) (r : Room) : Prop :=
  ∀ e ∈ r.filing.effects, e.Confined s₀ separators runner

theorem Confined.withSession (h : r.Confined s₀ separators runner) (session : Session) :
    (r.withSession session).Confined s₀ separators runner := h

theorem Confined.persist (h : r.Confined s₀ separators runner) {deeds : List FileDeed}
    (hdeeds : ∀ deed ∈ deeds, deed.Confined s₀ separators) :
    (r.persist deeds).Confined s₀ separators runner := by
  intro e he
  rw [filing_persist] at he
  rcases List.mem_append.mp he with he | he
  · exact h e he
  · obtain rfl := List.mem_singleton.mp he
    exact hdeeds

theorem Confined.of_filing (h : r.Confined s₀ separators runner) (heq : r'.filing = r.filing) :
    r'.Confined s₀ separators runner := by
  unfold Confined
  rwa [heq]

/-- What a letter does to files and runs is confined. -/
theorem Filed.confined (h : Filed r r') (hr : r.Confined s₀ separators r.facilities.runner)
    (hsession : s₀.ComesFrom r.actor.session)
    (hordinary : ∀ f ∈ s₀.possibleNames, Filename.IsOrdinary separators f) :
    r'.Confined s₀ separators r.facilities.runner := by
  have hnamed : ∀ cell ∈ r.actor.session.cells, ∀ code, cell.code? = some code →
      Filename.IsOrdinary separators code.filename := fun cell hcell code hcode =>
    hordinary _ (hsession.names _
      (List.mem_map_of_mem (List.mem_filterMap.mpr ⟨cell, hcell, hcode⟩)))
  cases h with
  | kept h => exact hr.of_filing h
  | wrote cell hcell h =>
      exact (hr.persist (hsession.writing_confined (hnamed cell hcell))).of_filing h
  | ran code program args generation pid hfind hcommand hwrote h =>
      have hcell := List.mem_of_find?_eq_some hfind
      have hcode := hnamed _ hcell code rfl
      intro e he
      rw [h, filing_persist_ran] at he
      simp only [List.mem_append, List.mem_cons, List.not_mem_nil, or_false] at he
      rcases he with he | rfl | rfl
      · exact hr e he
      · exact hsession.writing_confined (hnamed _ hcell)
      · exact ⟨code.language, args, _, hsession.isFilePath hcode, hcommand, rfl⟩
  | created given cell index session haccept hinsert h =>
      have hfits := fits_of_accept haccept
      have hnew := hsession.insert hinsert hfits
      refine ((hr.withSession session).persist
        (hnew.writing_confined fun code hcode => ?_)).of_filing h
      exact hordinary _ (hsession.possible (hfits code hcode).trimmed (hfits code hcode).checked)
  | renamed code given old session hcheck hfind hne hreplace h =>
      have htrimmed := Filename.trim_trim given
      have hchecked := (Filename.check_trim given _).mpr hcheck
      have hnew := hsession.rename htrimmed hchecked hreplace
      refine (((hr.withSession session).persist
        (hnew.writing_confined fun code' hcode => ?_)).persist
        (hnew.removing_confined ?_)).of_filing h
      · obtain rfl := Option.some.inj hcode
        exact hordinary _ (hsession.possible htrimmed hchecked)
      · exact hnamed _ (List.mem_of_find?_eq_some hfind) code rfl
  | deleted id code session hremove h =>
      obtain ⟨before, after, hsplit, -⟩ := of_remove_eq_ok hremove
      refine ((hr.withSession session).persist
        ((hsession.remove hremove).removing_confined ?_)).of_filing h
      exact hnamed _ (List.mem_of_find?_eq_some hsplit.cell?_eq) code rfl
  | dropped id cell session hcell hremove h => exact (hr.withSession session).of_filing h
  | edited id cell source hfind h =>
      refine ((hr.withSession _).persist
        ((hsession.withSource id source).writing_confined fun code hcode => ?_)).of_filing h
      cases cell with
      | code code₀ =>
          obtain rfl := Option.some.inj hcode
          exact hnamed _ (List.mem_of_find?_eq_some hfind) code₀ rfl
      | _ => cases hcode
  | refreshed manifest source hfind hread h => exact (hr.withSession _).of_filing h

end Room

/-! ## Runs -/

/-- What a bridge may say of a session whose filenames are ordinary. -/
def Bridge.Brief.confined (s₀ : Session) (separators : List Char) : Bridge.Brief where
  inOrder command := ∀ path ∈ command.paths, s₀.IsFilePath separators path
  names := s₀.possibleNames
  path := s₀.pathFor
  past := []

theorem Bridge.Brief.speaks_confined
    (hordinary : ∀ f ∈ s₀.possibleNames, Filename.IsOrdinary separators f) :
    (Bridge.Brief.confined s₀ separators).Speaks := by
  have hpath : ∀ f ∈ s₀.possibleNames, s₀.IsFilePath separators (s₀.pathFor f) :=
    fun f hf => Or.inr ⟨f, hordinary f hf, rfl⟩
  have hone : ∀ f ∈ s₀.possibleNames, ∀ path ∈ [s₀.pathFor f], s₀.IsFilePath separators path :=
    fun f hf path h => List.mem_singleton.mp h ▸ hpath f hf
  refine ⟨⟨fun f hf _ => hone f hf, hone, nofun, fun filenames hnames _ path hmem => ?_⟩,
    fun f hf _ _ => hone f hf⟩
  obtain ⟨f, hf, rfl⟩ := List.mem_map.mp hmem
  exact hpath f (hnames f hf)

end

namespace Site

/-- Clients cannot lead an actor out of the directory of its session.  If the filenames are
ordinary at the beginning, every path that is written, removed, given to a runner or told to the
service, in preparation or in any run, is that of the manifest or of a file with an ordinary
filename in the source directory; and no directory is made but this one. -/
theorem paths_stay_confined (facilities : Facilities) (spawner : Spawner) (disk : Disk)
    (supervisor : Supervisor) (session : Session) (separators : List Char)
    (hslash : '/' ∈ separators) (hseparators : ∀ c ∈ separators, c = '/' ∨ c = '\\')
    (hnames : ∀ f ∈ session.filenames, Filename.IsOrdinary separators f)
    (events : List Event) :
    let s := (opened facilities spawner disk supervisor session).run events
    (∀ deed ∈ session.preparing, deed.Confined session separators) ∧
    (∀ e ∈ s.log, e.Confined session separators facilities.runner) ∧
    (∀ g request, .queued g request ∈ s.actor.ledger.trace →
      ∀ path ∈ request.command.paths, session.IsFilePath separators path) ∧
    ∀ path, session.IsFilePath separators path →
      Path.components path.toList =
          Path.components session.dir.toList ++ [.name "package.json".toList] ∨
        ∃ f, Filename.IsOrdinary separators f ∧ Path.components path.toList =
          Path.components session.dir.toList ++ [.name "src".toList, .name f.toList] := by
  intro s
  have hordinary : ∀ f ∈ session.possibleNames, Filename.IsOrdinary separators f := by
    rintro f (hf | ⟨htrimmed, hchecked⟩)
    · exact hnames f hf
    · exact htrimmed ▸ Filename.ordinary_of_check hseparators hchecked
  let t := Bridge.Brief.confined session separators
  have hclosed := Bridge.Brief.closed (Bridge.Brief.speaks_confined hordinary)
  let P (s : Site) : Prop := s.facilities = facilities ∧ s.actor.Serves session t.Holds ∧
    ∀ e ∈ s.log, e.Confined session separators facilities.runner
  have hstep : ∀ s e, P s → P (s.step e) := by
    rintro s e ⟨hfacilities, hserves, hlog⟩
    have hserves' := (turn_step s e).serves hclosed hserves
    have htold : (s.step e).log = s.log ++ s.effects [e] := log_run s [e]
    by_cases hdisk : ∃ disk, e = .disturb disk
    · obtain ⟨disk, rfl⟩ := hdisk
      exact ⟨hfacilities, hserves', hlog⟩
    · have hfiled := step_filed s e fun disk he => hdisk ⟨disk, he⟩
      have hconfined := hfiled.confined (List.forall_mem_nil _) hserves.session hordinary
      refine ⟨hfiled.facilities.trans hfacilities, hserves', fun effect heffect => ?_⟩
      rw [htold, List.mem_append] at heffect
      rcases heffect with hold | hnew
      · exact hlog effect hold
      · cases hfiling : effect.isFiling with
        | false => exact Effect.confined_of_not_isFiling hfiling
        | true =>
            rw [← hfacilities]
            exact hconfined effect (List.mem_filter.mpr ⟨hnew, hfiling⟩)
  have hnew : t.Holds (.new facilities.service session.dir) :=
    ⟨rfl, fun f c hfind => by simp [Bridge.new] at hfind, [], rfl, by simp⟩
  obtain ⟨-, hserves, hlog⟩ : P s := run_preserves hstep events
    ⟨rfl, opened_serves facilities spawner disk supervisor session hnew, List.forall_mem_nil _⟩
  refine ⟨session.preparing_confined hnames, hlog, fun g request hqueued => ?_,
    fun path => session.components_of_isFilePath hslash⟩
  obtain ⟨deeds, hsplit, hall⟩ := hserves.ledger.trace
  refine hall g request ?_
  rw [hsplit] at hqueued
  simpa [t, Bridge.Brief.confined] using hqueued

/-- Filenames that lead elsewhere are refused, one with blanks around it is used without them,
and the cell is run and opened under its new path. -/
theorem paths_stay_confined_renamed :
    let session : Session := ⟨⟨"s"⟩, "/book", .typescript,
      [.code ⟨⟨"x"⟩, "1", "a.ts", .typescript, .idle⟩]⟩
    let s := (opened ⟨.standard, .standard, []⟩ (fun _ _ => .ok 7) .empty (.new 16)
      session).run [.send ⟨0⟩ (.rename ⟨"x"⟩ "../a.ts"), .work,
      .send ⟨0⟩ (.create 0 (.code ⟨⟨"y"⟩, "2", "/etc/a.ts", .typescript, .idle⟩)), .work,
      .send ⟨0⟩ (.create 0 (.code ⟨⟨"y"⟩, "2", "\u2003..\\a.ts", .typescript, .idle⟩)), .work,
      .send ⟨0⟩ (.rename ⟨"x"⟩ "\u2003b.ts\t"), .work, .send ⟨0⟩ (.execute ⟨"x"⟩), .work,
      .send ⟨0⟩ .startService, .work]
    ('/' ∈ ['/', '\\'] ∧ (∀ c ∈ ['/', '\\'], c = '/' ∨ c = '\\') ∧
      ∀ f ∈ session.filenames, Filename.IsOrdinary ['/', '\\'] f) ∧
    ((∀ deed ∈ session.preparing, deed.Confined session ['/', '\\']) ∧
      (∀ e ∈ s.log, e.Confined session ['/', '\\'] .standard) ∧
      (∀ g request, .queued g request ∈ s.actor.ledger.trace →
        ∀ path ∈ request.command.paths, session.IsFilePath ['/', '\\'] path) ∧
      ∀ path, session.IsFilePath ['/', '\\'] path →
        Path.components path.toList =
            Path.components session.dir.toList ++ [.name "package.json".toList] ∨
          ∃ f, Filename.IsOrdinary ['/', '\\'] f ∧ Path.components path.toList =
            Path.components session.dir.toList ++ [.name "src".toList, .name f.toList]) ∧
    s.log.filter Effect.isFiling =
      [.files [.makeDirectory "/book/src", .write "/book/src/b.ts" "1"],
        .files [.remove "/book/src/a.ts"],
        .files [.makeDirectory "/book/src", .write "/book/src/b.ts" "1"],
        .spawned 1 7 ⟨⟨⟨"s"⟩, ⟨"x"⟩⟩, "npx", ["tsx", "/book/src/b.ts"], "/book", []⟩ .cell] ∧
    s.actor.ledger.trace = [.queued 1 ⟨1, .openFile "/book/src/b.ts" "1"⟩, .launched 1] := by
  intro session s
  have hslash : '/' ∈ ['/', '\\'] := by decide
  have hseparators : ∀ c ∈ ['/', '\\'], c = '/' ∨ c = '\\' := by simp
  have hnames : ∀ f ∈ session.filenames, Filename.IsOrdinary ['/', '\\'] f := by
    decide +kernel
  exact ⟨⟨hslash, hseparators, hnames⟩,
    paths_stay_confined ⟨.standard, .standard, []⟩ (fun _ _ => .ok 7) .empty (.new 16) session
      ['/', '\\'] hslash hseparators hnames _,
    by decide +kernel, by decide +kernel⟩

end Site
end Notebook
