import Notebook.Coordinator
import Notebook.Proofs.Session.Copies
import Notebook.Proofs.Sources

/-!
# Opening what was discovered

A session that was discovered on disk is opened by writing the files of its cells.  Since the
cells have been read from these files, this changes nothing, unless there was no source file: then
an empty one is written, and the directories on the way to it are made.

* `Discovery.of_discover`: where the cells of a discovered session come from.
* `Discovery.rewriting_touches`: writing cells that have been read.
* `Discovery.no_source_of_names`: without a name in the list there is no source file.
* `Discovery.opening_spares`: what is on disk after a discovered session was opened.
-/

set_option autoImplicit false

namespace Notebook

open Disk

variable {d d' : Disk}

/-- The cell holds what is read from its file. -/
def Session.ReadFrom (s : Session) (d : Disk) (c : Cell) : Prop :=
  ∀ e ∈ s.copy? c, d.read [] e.1 = .ok e.2.toUTF8

namespace Discovery

open FileDeed (Succeed)

variable {s session : Session} {fresh : Nat → CellId} {id : SessionId} {dir : String}
  {language : Language}

/-! ## Cells -/

/-- What is read as a text are the bytes of the text. -/
theorem read_of_readSource {path text : String} (h : readSource d [] path = .ok text) :
    d.read [] path = .ok text.toUTF8 := by
  unfold readSource readText at h
  cases hread : d.read [] path with
  | error e => simp [hread, bind, Except.bind] at h
  | ok data =>
      cases hdecode : String.fromUTF8? data with
      | none => simp [hread, hdecode, bind, Except.bind] at h
      | some text' =>
          obtain rfl : text' = text := by simpa [hread, hdecode, bind, Except.bind] using h
          rw [Text.toUTF8_of_fromUTF8? hdecode]

/-- The manifest, if there is one, holds what is read from its file. -/
theorem of_manifest {cells : List Cell} (hdir : s.dir = dir)
    (h : manifest d [] fresh dir = .ok cells) : ∀ c ∈ cells, s.ReadFrom d c := by
  unfold manifest at h
  simp only at h
  split at h
  · cases hread : readSource d [] (Path.join dir "package.json") with
    | error problem =>
        rw [hread] at h
        cases h
    | ok source =>
        rw [hread] at h
        obtain rfl := Except.ok.inj h
        intro c hc e he
        obtain rfl := List.mem_singleton.mp hc
        obtain rfl := Option.some.inj he
        rw [← hdir] at hread
        exact read_of_readSource hread
  · obtain rfl := Except.ok.inj h
    nofun

/-- There is a code cell for each name, and it holds what is read from its file. -/
theorem of_codeCells {n : Nat} {names : List String} {cells : List Cell}
    (h : codeCells d [] fresh s.sourceDir language n names = .ok cells) :
    (∀ c ∈ cells, s.ReadFrom d c) ∧ cells.length = names.length := by
  induction names generalizing n cells with
  | nil =>
      obtain rfl := Except.ok.inj h
      exact ⟨nofun, rfl⟩
  | cons name rest ih =>
      cases hread : readSource d [] (Path.join s.sourceDir name) with
      | error problem =>
          rw [codeCells, hread] at h
          cases h
      | ok source =>
          rw [codeCells_cons hread] at h
          obtain ⟨others, hrest, rfl⟩ := Session.of_map_eq_ok h
          obtain ⟨hothers, hlength⟩ := ih hrest
          refine ⟨fun c hc => ?_, congrArg (· + 1) hlength⟩
          rcases List.mem_cons.mp hc with rfl | hc
          · intro e he
            obtain rfl := Option.some.inj he
            exact read_of_readSource hread
          · exact hothers c hc

/-- A discovered session has cells that have been read from their files.  If there is no source
file, there is an empty cell besides. -/
theorem of_discover (h : discover d [] fresh id dir language = .ok session) :
    session.dir = dir ∧ session.language = language ∧
      ∃ first code, session.cells = first ++ code ∧ (∀ c ∈ first, session.ReadFrom d c) ∧
        ((∀ c ∈ code, session.ReadFrom d c) ∨
          sourceNames d [] session.sourceDir language = .ok [] ∧ code = [.code ⟨fresh 1, "",
            "index." ++ language.fileExtension, language, .idle⟩]) := by
  unfold discover at h
  cases hmanifest : manifest d [] fresh dir with
  | error problem => simp [hmanifest, bind, Except.bind] at h
  | ok first =>
      cases hnames : sourceNames d [] (Path.join dir "src") language with
      | error problem => simp [hmanifest, hnames, bind, Except.bind] at h
      | ok names =>
          cases hcode : codeCells d [] fresh (Path.join dir "src") language 1 names with
          | error problem => simp [hmanifest, hnames, hcode, bind, Except.bind] at h
          | ok code =>
              simp only [hmanifest, hnames, hcode, bind, Except.bind] at h
              obtain rfl := Except.ok.inj h
              obtain ⟨hread, hlength⟩ := of_codeCells (s := ⟨id, dir, language, []⟩) hcode
              refine ⟨rfl, rfl, first, _, rfl, of_manifest rfl hmanifest, ?_⟩
              cases code with
              | cons c rest => exact Or.inl hread
              | nil =>
                  obtain rfl := List.eq_nil_of_length_eq_zero hlength.symm
                  exact Or.inr ⟨hnames, rfl⟩

/-! ## Writing -/

/-- Once the source directory is there, a code cell is written as its file. -/
theorem write_of_writing {code : CodeCell} (hsource : d.Leads s.sourceDir)
    (h : Succeed d (s.writing (.code code)) d') :
    d.write [] (s.pathFor code.filename) code.source.toByteArray = .ok d' := by
  obtain ⟨_, hmake, hthen⟩ := FileDeed.succeed_cons_iff.mp h
  obtain rfl := Except.ok.inj (hsource.makeDirectories.symm.trans hmake)
  obtain ⟨_, hwrite, hlast⟩ := FileDeed.succeed_cons_iff.mp hthen
  obtain rfl := FileDeed.succeed_nil_iff.mp hlast
  exact hwrite

/-- Where no file is, writing a code cell adds one. -/
theorem writing_adds {code : CodeCell} (hsource : d.Leads s.sourceDir)
    (hnone : ∀ data executable,
      d.node? (placeOf (s.pathFor code.filename)) ≠ some (.file data executable))
    (h : Succeed d (s.writing (.code code)) d') :
    d.node? (placeOf (s.pathFor code.filename)) = none ∧
      Touches {placeOf (s.pathFor code.filename)} d d' ∧
      ∃ executable, d'.node? (placeOf (s.pathFor code.filename)) =
        some (.file code.source.toByteArray executable) := by
  obtain ⟨executable, rfl, -, -, hnode⟩ := write_cases (write_of_writing hsource h)
  have hfree := hnode.resolve_right fun ⟨old, hold⟩ => hnone old executable hold
  have hdirectory : d.node? (placeOf (s.pathFor code.filename)) ≠ some .directory := by
    rw [hfree]
    nofun
  refine ⟨hfree, put_touches hdirectory _, executable, ?_⟩
  rw [node?_put _ (ne_nil_of_node? hdirectory), if_pos rfl]

/-- Writing cells that have been read changes nothing. -/
theorem rewriting_touches {cells : List Cell} (hsource : d.Leads s.sourceDir)
    (hread : ∀ c ∈ cells, s.ReadFrom d c) (h : Succeed d (cells.flatMap s.writing) d') :
    Touches ∅ d d' := by
  induction cells generalizing d with
  | nil =>
      obtain rfl := FileDeed.succeed_nil_iff.mp h
      exact .refl ∅ d
  | cons c rest ih =>
      rw [List.flatMap_cons, FileDeed.succeed_append_iff] at h
      obtain ⟨d₁, hfirst, hrest⟩ := h
      have hwrote : Touches ∅ d d₁ := by
        have hc := hread c List.mem_cons_self
        cases c with
        | code code =>
            exact write_back (hc _ rfl) (write_of_writing hsource hfirst)
        | manifest manifest =>
            obtain ⟨_, hwrite, hlast⟩ := FileDeed.succeed_cons_iff.mp hfirst
            obtain rfl := FileDeed.succeed_nil_iff.mp hlast
            exact write_back (hc _ rfl) hwrite
        | title _ =>
            obtain rfl := FileDeed.succeed_nil_iff.mp hfirst
            exact .refl ∅ d
        | markdown _ =>
            obtain rfl := FileDeed.succeed_nil_iff.mp hfirst
            exact .refl ∅ d
      refine hwrote.trans (ih (hwrote.leads hsource) (fun c hc e he => ?_) hrest)
      exact hwrote.read (Set.notMem_empty _) (hread c (List.mem_cons_of_mem _ hc) e he)

/-! ## Source files -/

/-- Where the list of source files is empty, there is none. -/
theorem no_source_of_names (hsound : d.Sound)
    (hleads : d.Leads s.sourceDir ∨ d.node? (placeOf s.sourceDir) = none)
    (hnames : sourceNames d [] s.sourceDir language = .ok []) {name : List Char}
    {data : ByteArray} {executable : Bool}
    (hfile : d.node? (placeOf s.sourceDir ++ [name]) = some (.file data executable)) :
    Language.ofFilename? (String.ofList name) ≠ some language := by
  intro hlanguage
  have hparent := hsound.parent _ (hfile ▸ Option.some_ne_none _)
  rw [List.dropLast_concat] at hparent
  have hway : d.Leads s.sourceDir := hleads.resolve_right (hparent ▸ Option.some_ne_none _)
  have hdir := (hway.parent s.components_sourceDir).fromRoot
  have hsource : HasSource d (placeOf s.dir ++ ["src".toList]) language (String.ofList name)
      data := by
    refine ⟨Language.ofFilename?_eq_some_iff.mp hlanguage, executable, ?_⟩
    rw [← s.placeOf_sourceDir, String.toList_ofList]
    exact hfile
  rcases sourceNames_cases language hsound hdir with ⟨names, hlist, hmem, -⟩ | ⟨_, herror, -⟩
  · obtain rfl := Except.ok.inj (hlist.symm.trans hnames)
    cases (hmem _).mpr ⟨data, hsource⟩
  · cases herror.symm.trans hnames

end Discovery

/-! ## Opening -/

namespace Coordinator

variable {c : Coordinator} {call : Nat} {session : Session}

/-- The call that opens a session, with nothing else happening meanwhile. -/
def opening (c : Coordinator) (session : Session) : Coordinator :=
  ((c.beginOpen session).2.advance c.errands.size).advance c.errands.size

theorem find?_put (c : Coordinator) (call : Nat) (errand : Errand) :
    (c.put call errand).errands.find? call = some errand := by
  rw [put, Table.find?_set, if_pos rfl]

theorem disk_enter (c : Coordinator) (call : Nat) (session : Session) :
    (c.enter call session).disk = c.disk := by
  unfold enter
  split <;> rfl

/-- A call that has failed comes to nothing any more. -/
theorem advance_of_error {e : CoordinatorError}
    (h : c.errands.find? call = some (.finished (.error e))) :
    c.advance call = c ∧ c.result? call ≠ some (.ok []) := by
  simp [advance, result?, h]

theorem beginOpen_cases (c : Coordinator) (session : Session) :
    (c.beginOpen session).2.disk = c.disk ∧
      ((c.beginOpen session).2.errands.find? c.errands.size = some (.prepare session) ∨
        ∃ e, (c.beginOpen session).2.errands.find? c.errands.size =
          some (.finished (.error e))) := by
  unfold beginOpen
  split
  · exact ⟨rfl, Or.inr ⟨_, find?_put c c.errands.size _⟩⟩
  · exact ⟨rfl, Or.inl (find?_put c c.errands.size _)⟩

theorem prepare_cases (c : Coordinator) (call : Nat) (session : Session) :
    (FileDeed.Succeed c.disk session.preparing (c.prepare call session).disk ∧
      (c.prepare call session).errands.find? call = some (.enter session)) ∨
    ∃ e, (c.prepare call session).errands.find? call = some (.finished (.error e)) := by
  unfold prepare FileDeed.Succeed
  rcases FileDeed.runAll c.disk session.preparing with ⟨problem, disk⟩
  cases problem with
  | none => exact Or.inl ⟨rfl, find?_put _ _ _⟩
  | some problem => exact Or.inr ⟨_, find?_put _ _ _⟩

/-- If a session has been opened, all its files have been written. -/
theorem of_opening (h : (c.opening session).result? c.errands.size = some (.ok [])) :
    FileDeed.Succeed c.disk session.preparing (c.opening session).disk := by
  obtain ⟨hdisk, hbegun | ⟨e, hfailed⟩⟩ := beginOpen_cases c session
  · have hopening : c.opening session =
        ((c.beginOpen session).2.prepare c.errands.size session).advance c.errands.size := by
      simp only [opening, advance, hbegun]
    rw [hopening] at h ⊢
    rcases prepare_cases (c.beginOpen session).2 c.errands.size session with
      ⟨hwritten, hentering⟩ | ⟨e, hfailed⟩
    · simp only [advance, hentering, disk_enter]
      exact hdisk ▸ hwritten
    · rw [(advance_of_error hfailed).1] at h
      exact absurd h (advance_of_error hfailed).2
  · rw [opening, (advance_of_error hfailed).1, (advance_of_error hfailed).1] at h
    exact absurd h (advance_of_error hfailed).2

end Coordinator

namespace Discovery

open FileDeed (Succeed)

variable {session : Session} {fresh : Nat → CellId} {id : SessionId} {dir : String}
  {language : Language}

/-- The empty cell has a name, and it is one of its language. -/
theorem index_name (language : Language) :
    Path.IsName ("index." ++ language.fileExtension).toList ∧
      Language.ofFilename? ("index." ++ language.fileExtension) = some language := by
  cases language <;> decide

/-- Besides new directories on the way to the source directory, the files of a discovered session
come to nothing new, or to an empty file where there was no source file. -/
theorem preparing_cases (hsound : d.Sound) (hstraight : d.Straight dir)
    (hdiscover : discover d [] fresh id dir language = .ok session)
    (h : Succeed d session.preparing d') :
    ∃ d₁, Grows (placeOf session.sourceDir) d d₁ ∧ (Touches ∅ d₁ d' ∨
      ∃ executable, let index := session.pathFor ("index." ++ language.fileExtension)
        Touches {placeOf index} d₁ d' ∧ d₁.node? (placeOf index) = none ∧
        d'.node? (placeOf index) = some (.file .empty executable) ∧
        ∀ name data executable,
          d.node? (placeOf session.sourceDir ++ [name]) = some (.file data executable) →
            Language.ofFilename? (String.ofList name) ≠ some language) := by
  obtain ⟨rfl, rfl, first, code, hcells, hfirst, hcode⟩ := of_discover hdiscover
  obtain ⟨d₁, hmake, hwrite⟩ := FileDeed.succeed_cons_iff.mp h
  obtain ⟨hgrows, hleads⟩ :=
    makeDirectories_grows hsound (hstraight.append session.components_sourceDir) hmake
  have hsource : d₁.Leads session.sourceDir := makeDirectories_leads hmake
  have hread : ∀ {c}, session.ReadFrom d c → session.ReadFrom d₁ c := fun hc e he => by
    obtain ⟨-, ⟨executable, hnode⟩, -⟩ := read_eq_ok_iff.mp (hc e he)
    refine hgrows.touches.read (fun hnone => ?_) (hc e he)
    have hnone : d.node? (placeOf e.1) = none := hnone
    rw [hnone] at hnode
    cases hnode
  rw [hcells, List.flatMap_append, FileDeed.succeed_append_iff] at hwrite
  obtain ⟨d₂, hwrite₁, hwrite₂⟩ := hwrite
  have hsame := rewriting_touches hsource (fun c hc => hread (hfirst c hc)) hwrite₁
  refine ⟨d₁, hgrows, ?_⟩
  rcases hcode with hcode | ⟨hnames, rfl⟩
  · have hread₂ : ∀ c ∈ code, session.ReadFrom d₂ c := fun c hc e he =>
      hsame.read (Set.notMem_empty _) (hread (hcode c hc) e he)
    exact Or.inl (hsame.trans (rewriting_touches (hsame.leads hsource) hread₂ hwrite₂))
  · obtain ⟨hname, hlanguage⟩ := index_name session.language
    have hnone : ∀ {name : List Char} {data : ByteArray} {executable : Bool},
        d.node? (placeOf session.sourceDir ++ [name]) = some (.file data executable) →
        Language.ofFilename? (String.ofList name) ≠ some session.language :=
      fun hfile => no_source_of_names hsound hleads hnames hfile
    generalize "index." ++ session.language.fileExtension = index at *
    have hindex := placeOf_eq_append (session.components_pathFor hname)
    have hnofile : ∀ data executable,
        d₁.node? (placeOf (session.pathFor index)) ≠ some (.file data executable) := by
      intro data executable hfile
      rcases hgrows (placeOf (session.pathFor index)) with hbefore | ⟨-, hnew, -⟩
      · rw [hbefore, hindex] at hfile
        exact hnone hfile (by rw [String.ofList_toList]; exact hlanguage)
      · rw [hfile] at hnew
        cases hnew
    rw [List.flatMap_singleton] at hwrite₂
    obtain ⟨hfree, htouches, executable, hfile⟩ := writing_adds (hsame.leads hsource)
      (fun data executable => hsame.nodes _ (Set.notMem_empty _) ▸ hnofile data executable) hwrite₂
    rw [hsame.nodes _ (Set.notMem_empty _)] at hfree
    exact Or.inr ⟨executable, (hsame.mono (Set.empty_subset _)).trans htouches, hfree, hfile,
      fun _ _ _ => hnone⟩

/-- Opening what was discovered destroys nothing.  If a session is discovered in a directory, by a
path with two dots behind directories alone that are there, and is opened: everything on the disk
is as before, files byte for byte.  Besides there may be new directories on the way to the source
directory, and an empty file, named for the language of the session, in the source directory, if
it did not hold a source file of this language. -/
theorem opening_spares (c : Coordinator) (fresh : Nat → CellId) (id : SessionId) (dir : String)
    (language : Language) (session : Session) (hsound : c.disk.Sound)
    (hstraight : c.disk.Straight dir)
    (hdiscover : discover c.disk [] fresh id dir language = .ok session)
    (hopened : (c.opening session).result? c.errands.size = some (.ok [])) :
    let d := c.disk
    let d' := (c.opening session).disk
    let src := Path.join dir "src"
    let index := Path.join src ("index." ++ language.fileExtension)
    (∀ place node, d.node? place = some node → d'.node? place = some node) ∧
    (∀ path data, d.read [] path = .ok data → d'.read [] path = .ok data) ∧
    ∀ place node, d.node? place = none → d'.node? place = some node →
      (node = .directory ∧ (place <+: placeOf dir ∨ place = placeOf src)) ∨
      place = placeOf index ∧ (∃ executable, node = .file .empty executable) ∧
        ∀ name data executable,
          d.node? (placeOf src ++ [name]) = some (.file data executable) →
            Language.ofFilename? (String.ofList name) ≠ some language := by
  intro d d' src index
  obtain ⟨rfl, rfl, -⟩ := of_discover hdiscover
  have hsrc : placeOf src = placeOf session.dir ++ ["src".toList] := session.placeOf_sourceDir
  obtain ⟨d₁, hgrows, hcases⟩ :=
    preparing_cases hsound hstraight hdiscover (Coordinator.of_opening hopened)
  have hmade : ∀ place node, d.node? place = none → d₁.node? place = some node →
      node = .directory ∧ (place <+: placeOf session.dir ∨ place = placeOf src) := by
    intro place node hnone hnode
    rcases hgrows place with hsame | ⟨-, hnew, hbegins⟩
    · rw [hsame, show d.node? place = none from hnone] at hnode
      cases hnode
    · refine ⟨Option.some.inj (hnode.symm.trans hnew), ?_⟩
      rw [show placeOf session.sourceDir = _ from hsrc] at hbegins
      rw [hsrc]
      exact (List.prefix_concat_iff.mp hbegins).symm
  have hkept : Touches {q | d.node? q = none} d d' := by
    rcases hcases with hsame | ⟨_, hwritten, hfree, -, -⟩
    · exact hgrows.touches.trans (hsame.mono (Set.empty_subset _))
    · refine hgrows.touches.trans (hwritten.mono fun q hq => ?_)
      obtain rfl : q = _ := hq
      rcases hgrows _ with hbefore | ⟨hnone, -⟩
      · exact hbefore.symm.trans hfree
      · exact hnone
  have hstays : ∀ {place node}, d.node? place = some node → d'.node? place = some node :=
    fun {place node} hnode => (hkept.nodes place fun (hnone : d.node? place = none) => by
      rw [hnode] at hnone; cases hnone).trans hnode
  refine ⟨fun _ _ => hstays, fun path data hread => ?_, fun place node hnone hnode => ?_⟩
  · obtain ⟨hlocate, ⟨executable, hfile⟩, hends⟩ := read_eq_ok_iff.mp hread
    exact read_eq_ok_iff.mpr ⟨hkept.locate hlocate, ⟨executable, hstays hfile⟩, hends⟩
  · rcases hcases with hsame | ⟨executable, hwritten, -, hfile, hsources⟩
    · exact Or.inl (hmade place node hnone (hsame.nodes place (Set.notMem_empty _) ▸ hnode))
    · by_cases hindex : place = placeOf index
      · subst hindex
        exact Or.inr ⟨rfl, ⟨executable, Option.some.inj (hnode.symm.trans hfile)⟩, hsources⟩
      · exact Or.inl (hmade place node hnone (hwritten.nodes place hindex ▸ hnode))

/-- A typed session in a directory with a manifest and a script. -/
theorem opening_spares_script :
    let d := (FileDeed.runAll .empty [.makeDirectory "/work/book/src",
      .write "/work/book/package.json" "null", .write "/work/book/src/b.js" "1"]).2
    let c : Coordinator := .new ⟨.standard, .standard, []⟩ (fun _ _ => .ok 7) d (.new 16)
    let session : Session := ⟨⟨"s"⟩, "/work/book", .typescript,
      [.manifest ⟨hexId 0, "null", .idle⟩, .code ⟨hexId 1, "", "index.ts", .typescript, .idle⟩]⟩
    let d' := (c.opening session).disk
    (d.Sound ∧ d.Straight "/work/book" ∧
      discover d [] hexId ⟨"s"⟩ "/work/book" .typescript = .ok session ∧
      (c.opening session).result? 0 = some (.ok [])) ∧
    (∀ place node, d.node? place = some node → d'.node? place = some node) ∧
    (∀ path data, d.read [] path = .ok data → d'.read [] path = .ok data) ∧
    ∀ place node, d.node? place = none → d'.node? place = some node →
      (node = .directory ∧
        (place <+: placeOf "/work/book" ∨ place = placeOf "/work/book/src")) ∨
      place = placeOf "/work/book/src/index.ts" ∧ (∃ executable, node = .file .empty executable) ∧
        ∀ name data executable,
          d.node? (placeOf "/work/book/src" ++ [name]) = some (.file data executable) →
            Language.ofFilename? (String.ofList name) ≠ some .typescript := by
  intro d c session d'
  have hsound : d.Sound := sound_empty.runAll _
  have hstraight : d.Straight "/work/book" := fun before after hsplit => by
    have hmem : Path.Component.parent ∈ Path.components "/work/book".toList := by
      rw [hsplit]
      simp
    exact absurd hmem (by decide)
  have hdiscover : discover d [] hexId ⟨"s"⟩ "/work/book" .typescript = .ok session := by
    decide +kernel
  have hopened : (c.opening session).result? 0 = some (.ok []) := by decide +kernel
  have hspares := opening_spares c hexId ⟨"s"⟩ "/work/book" .typescript session hsound hstraight
    hdiscover hopened
  have hsrc : Path.join "/work/book" "src" = "/work/book/src" := by decide +kernel
  have hindex : Path.join "/work/book/src" ("index." ++ Language.typescript.fileExtension) =
      "/work/book/src/index.ts" := by decide +kernel
  simp only [hsrc, hindex] at hspares
  exact ⟨⟨hsound, hstraight, hdiscover, hopened⟩, hspares⟩

/-- A path that leaves a missing directory leads nowhere when the session is discovered, but to
its files when it is opened.  And the directory need not be the only one that is missing. -/
theorem opening_overwrites :
    let code : Cell := .code ⟨hexId 1, "", "index.ts", .typescript, .idle⟩
    let d := (FileDeed.runAll .empty [.makeDirectory "/y/src", .write "/y/src/index.ts" "1"]).2
    let c : Coordinator := .new ⟨.standard, .standard, []⟩ (fun _ _ => .ok 7) d (.new 16)
    let around := c.opening ⟨⟨"s"⟩, "/x/../y", .typescript, [code]⟩
    let below := c.opening ⟨⟨"s"⟩, "/a/b", .typescript, [code]⟩
    (discover d [] hexId ⟨"s"⟩ "/x/../y" .typescript =
        .ok ⟨⟨"s"⟩, "/x/../y", .typescript, [code]⟩ ∧
      around.result? 0 = some (.ok []) ∧ d.readText [] "/y/src/index.ts" = .ok "1" ∧
      around.disk.readText [] "/y/src/index.ts" = .ok "" ∧
      d.isThere [] "/x" = false ∧ around.disk.isThere [] "/x" = true) ∧
    discover d [] hexId ⟨"s"⟩ "/a/b" .typescript =
        .ok ⟨⟨"s"⟩, "/a/b", .typescript, [code]⟩ ∧
      below.result? 0 = some (.ok []) ∧
      d.isThere [] "/a" = false ∧ below.disk.isThere [] "/a" = true := by
  decide +kernel

end Discovery
end Notebook
