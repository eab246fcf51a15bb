import Notebook.Proofs.Disk
import Notebook.Proofs.Paths
import Notebook.Proofs.Session.WellFormed
import Notebook.Session.Files

/-!
# Copies of cells on disk

Code cells and the manifest have a copy on disk: `Session.copies` lists the paths of a session
with their texts.  In a well-formed session different cells have different paths, and different
paths name different places, so that a deed for one copy leaves the others alone.

`Session.Stored` is the invariant of the disk beside a session that has changed over time: every
copy can be read, the files of former copies are gone, and nothing else has changed.

* `read_of_writing`, `writing_succeeds`, `removing_succeeds`: what the deeds for one cell come to.
* `Stored.change`: an edit that replaces one cell, if the disk follows.
* `stored_of_preparing`: the disk after the session was opened.
-/

set_option autoImplicit false

namespace Notebook

open Disk

variable {d d₁ d' left : Disk}

namespace FileDeed

/-- All deeds come off. -/
def Succeed (d : Disk) (deeds : List FileDeed) (d' : Disk) : Prop :=
  runAll d deeds = (none, d')

theorem succeed_nil_iff : Succeed d [] d' ↔ d = d' := by
  simp [Succeed, runAll]

theorem succeed_cons_iff {deed : FileDeed} {rest : List FileDeed} :
    Succeed d (deed :: rest) d' ↔ ∃ d₁, deed.run d = .ok d₁ ∧ Succeed d₁ rest d' := by
  unfold Succeed
  rw [runAll]
  cases hrun : deed.run d with
  | error problem => simp
  | ok d₁ => simp

theorem succeed_append_iff {deeds more : List FileDeed} :
    Succeed d (deeds ++ more) d' ↔ ∃ d₁, Succeed d deeds d₁ ∧ Succeed d₁ more d' := by
  induction deeds generalizing d with
  | nil => simp [succeed_nil_iff]
  | cons deed rest ih =>
      rw [List.cons_append, succeed_cons_iff]
      simp only [succeed_cons_iff, ih]
      constructor
      · rintro ⟨d₁, hrun, d₂, hrest, hmore⟩
        exact ⟨d₂, ⟨d₁, hrun, hrest⟩, hmore⟩
      · rintro ⟨d₂, ⟨d₁, hrun, hrest⟩, hmore⟩
        exact ⟨d₁, hrun, d₂, hrest, hmore⟩

end FileDeed

namespace Session

open FileDeed (Succeed)

variable {s : Session} {c : Cell}

/-! ## Paths and places -/

/-- The path and the text of a cell's copy, if it has one. -/
def copy? (s : Session) : Cell → Option (String × String)
  | .code c => some (s.pathFor c.filename, c.source)
  | .manifest c => some (s.manifestPath, c.source)
  | .title _ => none
  | .markdown _ => none

/-- The paths and the texts of all copies. -/
def copies (s : Session) : List (String × String) :=
  s.cells.filterMap s.copy?

/-- The paths of all copies. -/
def paths (s : Session) : List String :=
  s.copies.map Prod.fst

theorem copy_of_code {code : CodeCell} (h : code ∈ s.codeCells) :
    (s.pathFor code.filename, code.source) ∈ s.copies := by
  obtain ⟨c, hc, hcell⟩ := List.mem_filterMap.mp h
  refine List.mem_filterMap.mpr ⟨c, hc, ?_⟩
  cases c with
  | code code' =>
      obtain rfl := Option.some.inj hcell
      rfl
  | _ => cases hcell

theorem copy_of_manifest {manifest : ManifestCell} (h : .manifest manifest ∈ s.cells) :
    (s.manifestPath, manifest.source) ∈ s.copies :=
  List.mem_filterMap.mpr ⟨_, h, rfl⟩

theorem placeOf_sourceDir (s : Session) : placeOf s.sourceDir = placeOf s.dir ++ ["src".toList] :=
  placeOf_eq_append s.components_sourceDir

theorem placeOf_manifestPath (s : Session) :
    placeOf s.manifestPath = placeOf s.dir ++ ["package.json".toList] :=
  placeOf_eq_append s.components_manifestPath

theorem placeOf_pathFor (s : Session) {f : String} (h : Filename.IsOrdinary ['/'] f) :
    placeOf (s.pathFor f) = placeOf s.dir ++ ["src".toList, f.toList] := by
  have hname := h.isName List.mem_cons_self
  rw [placeOf_eq_append (s.components_pathFor hname), placeOf_sourceDir, List.append_assoc]
  rfl

theorem filename_inj {f f' : String} (hf : Filename.IsOrdinary ['/'] f)
    (hf' : Filename.IsOrdinary ['/'] f')
    (heq : placeOf (s.pathFor f) = placeOf (s.pathFor f')) : f = f' := by
  rw [placeOf_pathFor s hf, placeOf_pathFor s hf'] at heq
  have hnames := List.append_cancel_left heq
  simpa only [List.cons.injEq, String.toList_inj, and_true, true_and] using hnames

theorem placeOf_pathFor_ne {f : String} (hf : Filename.IsOrdinary ['/'] f) :
    placeOf (s.pathFor f) ≠ placeOf s.manifestPath := by
  rw [placeOf_pathFor s hf, placeOf_manifestPath]
  intro heq
  cases List.append_cancel_left heq

/-- Different paths of a session name different places. -/
theorem placeOf_inj {path path' : String} (h : s.IsFilePath ['/'] path)
    (h' : s.IsFilePath ['/'] path') (heq : placeOf path = placeOf path') : path = path' := by
  rcases h with rfl | ⟨f, hf, rfl⟩ <;> rcases h' with rfl | ⟨f', hf', rfl⟩
  · rfl
  · exact absurd heq.symm (placeOf_pathFor_ne hf')
  · exact absurd heq (placeOf_pathFor_ne hf)
  · rw [filename_inj hf hf' heq]

/-- The source directory is not the place of a file. -/
theorem placeOf_ne_sourceDir {path : String} (h : s.IsFilePath ['/'] path) :
    placeOf path ≠ placeOf s.sourceDir := by
  intro heq
  rcases h with rfl | ⟨f, hf, rfl⟩
  · rw [placeOf_manifestPath, placeOf_sourceDir] at heq
    exact absurd (List.append_cancel_left heq) (by decide)
  · rw [placeOf_pathFor s hf, placeOf_sourceDir] at heq
    cases List.append_cancel_left heq

/-! ## Copies of different cells -/

theorem mem_copies_middle (s : Session) (before after : List Cell) (o : Option Cell)
    (e : String × String) :
    e ∈ ({ s with cells := before ++ (o.toList ++ after) } : Session).copies ↔
      o.bind s.copy? = some e ∨
        e ∈ ({ s with cells := before ++ after } : Session).copies := by
  have hsame : ∀ cells, ({ s with cells } : Session).copies = cells.filterMap s.copy? :=
    fun _ => rfl
  rw [hsame, hsame]
  cases o with
  | none => simp
  | some c =>
      simp only [List.filterMap_append, List.mem_append, Option.toList_some,
        List.filterMap_cons, List.filterMap_nil, Option.bind_some]
      cases s.copy? c <;> simp [or_left_comm, eq_comm]

theorem ordinary_of_fits {l : Language} {code : CodeCell} (h : code.Fits l) :
    Filename.IsOrdinary ['/'] code.filename :=
  h.trimmed ▸ Filename.ordinary_of_check_slash h.checked

theorem WellFormed.ordinary (hs : s.WellFormed) {f : String} (hf : f ∈ s.filenames) :
    Filename.IsOrdinary ['/'] f := by
  obtain ⟨code, hcode, rfl⟩ := List.mem_map.mp hf
  exact ordinary_of_fits (hs.fits code hcode)

/-- What has a copy is a code cell or the manifest. -/
theorem copy?_cases {e : String × String} (h : s.copy? c = some e) :
    (∃ code, c = .code code ∧ e = (s.pathFor code.filename, code.source)) ∨
      ∃ manifest, c = .manifest manifest ∧ e = (s.manifestPath, manifest.source) := by
  cases c with
  | code code => exact Or.inl ⟨code, rfl, (Option.some.inj h).symm⟩
  | manifest manifest => exact Or.inr ⟨manifest, rfl, (Option.some.inj h).symm⟩
  | title _ => cases h
  | markdown _ => cases h

theorem isFilePath_of_copy? {l : Language} (hfits : ∀ code, c.code? = some code → code.Fits l)
    {e : String × String} (h : s.copy? c = some e) : s.IsFilePath ['/'] e.1 := by
  rcases copy?_cases h with ⟨code, rfl, rfl⟩ | ⟨manifest, rfl, rfl⟩
  · exact Or.inr ⟨code.filename, ordinary_of_fits (hfits code rfl), rfl⟩
  · exact Or.inl rfl

theorem WellFormed.isFilePath (hs : s.WellFormed) {path : String} (h : path ∈ s.paths) :
    s.IsFilePath ['/'] path := by
  obtain ⟨e, he, rfl⟩ := List.mem_map.mp h
  obtain ⟨c, hc, hcopy⟩ := List.mem_filterMap.mp he
  exact isFilePath_of_copy? (fun code hcode =>
    hs.fits code (List.mem_filterMap.mpr ⟨c, hc, hcode⟩)) hcopy

/-- A code cell's path is that of its filename. -/
theorem WellFormed.pathFor_mem_paths_iff (hs : s.WellFormed) {f : String}
    (hf : Filename.IsOrdinary ['/'] f) : s.pathFor f ∈ s.paths ↔ f ∈ s.filenames := by
  constructor
  · intro hpath
    obtain ⟨e, he, hsame⟩ := List.mem_map.mp hpath
    obtain ⟨c, hc, hcopy⟩ := List.mem_filterMap.mp he
    rcases copy?_cases hcopy with ⟨code, rfl, rfl⟩ | ⟨manifest, rfl, rfl⟩
    · have hmem : code.filename ∈ s.filenames :=
        List.mem_map_of_mem (List.mem_filterMap.mpr ⟨_, hc, rfl⟩)
      rwa [← filename_inj (hs.ordinary hmem) hf (congrArg placeOf hsame)]
    · exact absurd (congrArg placeOf hsame).symm (placeOf_pathFor_ne hf)
  · intro hmem
    obtain ⟨code, hcode, rfl⟩ := List.mem_map.mp hmem
    exact List.mem_map.mpr ⟨_, copy_of_code hcode, rfl⟩

/-- A cell that may stand among others has another path than they. -/
theorem Admits.apart (hs : s.WellFormed) (h : s.Admits c) {e : String × String}
    (he : s.copy? c = some e) : e.1 ∉ s.paths := by
  intro hmem
  obtain ⟨e', he', hsame⟩ := List.mem_map.mp hmem
  obtain ⟨c', hc', hcopy⟩ := List.mem_filterMap.mp he'
  rcases copy?_cases he with ⟨code, rfl, rfl⟩ | ⟨manifest, rfl, rfl⟩ <;>
    rcases copy?_cases hcopy with ⟨code', rfl, rfl⟩ | ⟨manifest', rfl, rfl⟩
  · have hcode' : code' ∈ s.codeCells := List.mem_filterMap.mpr ⟨_, hc', rfl⟩
    have hnames : code'.filename = code.filename :=
      filename_inj (ordinary_of_fits (hs.fits code' hcode')) (ordinary_of_fits (h.fits code rfl))
        (congrArg placeOf hsame)
    exact h.filename code rfl (hnames ▸ List.mem_map_of_mem hcode')
  · exact placeOf_pathFor_ne (ordinary_of_fits (h.fits code rfl)) (congrArg placeOf hsame).symm
  · have hcode' : code' ∈ s.codeCells := List.mem_filterMap.mpr ⟨_, hc', rfl⟩
    exact placeOf_pathFor_ne (ordinary_of_fits (hs.fits code' hcode')) (congrArg placeOf hsame)
  · cases h.manifest rfl _ hc'

/-- One of the cells, if any, and the others. -/
theorem WellFormed.around {before after : List Cell} {o : Option Cell}
    (h : ({ s with cells := before ++ (o.toList ++ after) } : Session).WellFormed) :
    ({ s with cells := before ++ after } : Session).WellFormed ∧
      ∀ c, o = some c → ({ s with cells := before ++ after } : Session).Admits c := by
  cases o with
  | none => exact ⟨h, nofun⟩
  | some c =>
      obtain ⟨hrest, hadmits⟩ := (wellFormed_middle s before after c).mp h
      exact ⟨hrest, fun _ hc => Option.some.inj hc ▸ hadmits⟩

/-! ## Deeds for one cell -/

/-- The places that have to do with the copy of a cell. -/
def footprint (s : Session) (o : Option Cell) : Set Place :=
  {place | place = placeOf s.sourceDir ∨ ∃ e, o.bind s.copy? = some e ∧ placeOf e.1 = place}

/-- The copy of a cell that may stand among others is apart from theirs. -/
theorem footprint_apart {o : Option Cell} (hs : s.WellFormed)
    (hadmits : ∀ c, o = some c → s.Admits c) {path : String} (hpath : path ∈ s.paths) :
    placeOf path ∉ s.footprint o := by
  rintro (hplace | ⟨e, he, hplace⟩)
  · exact placeOf_ne_sourceDir (hs.isFilePath hpath) hplace
  · obtain ⟨c, rfl, hcopy⟩ := Option.bind_eq_some_iff.mp he
    have hc := hadmits c rfl
    have hsame := placeOf_inj (isFilePath_of_copy? hc.fits hcopy) (hs.isFilePath hpath) hplace
    exact hc.apart hs hcopy (hsame ▸ hpath)

/-- What was written can be read. -/
theorem read_of_writing {e : String × String} (he : s.copy? c = some e)
    (h : Succeed d (s.writing c) d') : d'.read [] e.1 = .ok e.2.toUTF8 := by
  rcases copy?_cases he with ⟨code, rfl, rfl⟩ | ⟨manifest, rfl, rfl⟩
  · obtain ⟨d₁, -, hrest⟩ := FileDeed.succeed_cons_iff.mp h
    obtain ⟨d₂, hwrite, hlast⟩ := FileDeed.succeed_cons_iff.mp hrest
    obtain rfl := FileDeed.succeed_nil_iff.mp hlast
    exact (write_touches hwrite).2
  · obtain ⟨d₁, hwrite, hlast⟩ := FileDeed.succeed_cons_iff.mp h
    obtain rfl := FileDeed.succeed_nil_iff.mp hlast
    exact (write_touches hwrite).2

/-- Writing touches nothing but the copy. -/
theorem writing_succeeds (hdir : d.Leads s.dir) (h : Succeed d (s.writing c) d') :
    Touches (s.footprint (some c)) d d' ∧
      (c.code?.isSome = true → d'.Leads s.sourceDir) := by
  cases c with
  | code code =>
      obtain ⟨d₁, hmake, hrest⟩ := FileDeed.succeed_cons_iff.mp h
      obtain ⟨d₂, hwrite, hlast⟩ := FileDeed.succeed_cons_iff.mp hrest
      obtain rfl := FileDeed.succeed_nil_iff.mp hlast
      have hmade := (makeDirectories_touches hdir s.components_sourceDir hmake).1
      have hwritten := (write_touches hwrite).1
      refine ⟨?_, fun _ => hwritten.leads (makeDirectories_leads hmake)⟩
      refine (hmade.mono fun place hplace => Or.inl hplace).trans (hwritten.mono ?_)
      exact fun place hplace => Or.inr ⟨_, rfl, hplace.symm⟩
  | manifest manifest =>
      obtain ⟨d₁, hwrite, hlast⟩ := FileDeed.succeed_cons_iff.mp h
      obtain rfl := FileDeed.succeed_nil_iff.mp hlast
      have hwritten := (write_touches hwrite).1
      exact ⟨hwritten.mono fun place hplace => Or.inr ⟨_, rfl, hplace.symm⟩, nofun⟩
  | title _ =>
      obtain rfl := FileDeed.succeed_nil_iff.mp h
      exact ⟨Touches.refl _ d, nofun⟩
  | markdown _ =>
      obtain rfl := FileDeed.succeed_nil_iff.mp h
      exact ⟨Touches.refl _ d, nofun⟩

/-- Removing touches nothing but the file, which is gone then. -/
theorem removing_succeeds {f : String} (hdir : d.Leads s.sourceDir)
    (hf : Filename.IsOrdinary ['/'] f) (h : Succeed d (s.removing f) d') :
    Touches {placeOf (s.pathFor f)} d d' ∧ d'.node? (placeOf (s.pathFor f)) = none := by
  obtain ⟨d₁, hremove, hlast⟩ := FileDeed.succeed_cons_iff.mp h
  obtain rfl := FileDeed.succeed_nil_iff.mp hlast
  unfold FileDeed.run at hremove
  simp only at hremove
  split at hremove
  · next hnotFound =>
      obtain rfl := Except.ok.inj hremove
      have hname := s.components_pathFor (hf.isName List.mem_cons_self)
      exact ⟨Touches.refl _ d, node?_of_removeFile_notFound hdir hname hnotFound⟩
  · exact removeFile_touches hremove

/-! ## The disk beside a session -/

theorem filenames_eq_nil_iff (s : Session) :
    s.filenames = [] ↔ ∀ c ∈ s.cells, c.code? = none := by
  simp [filenames, codeCells]

/-- The disk keeps the copies of the session and those of the paths that it has had before.
Every copy can be read, former files of code cells are gone, and everywhere else the disk is as
it was left. -/
structure Stored (d : Disk) (s : Session) (had : Set String) (left : Disk) : Prop where
  dir : d.Leads s.dir
  sourceDir : s.filenames ≠ [] → d.Leads s.sourceDir
  read : ∀ e ∈ s.copies, d.read [] e.1 = .ok e.2.toUTF8
  /-- A manifest is left on disk when its cell is taken out. -/
  gone : ∀ path ∈ had, path ≠ s.manifestPath → path ∉ s.paths → d.node? (placeOf path) = none
  others : ∀ place, place ≠ placeOf s.sourceDir → (∀ path ∈ had, placeOf path ≠ place) →
    d.node? place = left.node? place
  current : ∀ path ∈ s.paths, path ∈ had
  proper : ∀ path ∈ had, s.IsFilePath ['/'] path

/-- A filename that no cell has any more has no file. -/
theorem Stored.isThere_eq_false {had : Set String} (h : s.Stored d had left) (hs : s.WellFormed)
    {f : String} (hf : Filename.IsOrdinary ['/'] f) (hhad : s.pathFor f ∈ had)
    (hnot : f ∉ s.filenames) : d.isThere [] (s.pathFor f) = false := by
  refine Disk.isThere_eq_false (h.gone _ hhad ?_ ?_)
  · exact fun hsame => placeOf_pathFor_ne hf (congrArg placeOf hsame)
  · rwa [hs.pathFor_mem_paths_iff hf]

/-- A cell may take the place of another one, if the disk follows: nothing is touched but the
old and the new copy, the new one can be read, and an old file that is not that of the new copy
is gone. -/
theorem Stored.change {had : Set String} {before after : List Cell} (old new : Option Cell)
    (h : s.Stored d had left) (hs : s.WellFormed)
    (hcells : s.cells = before ++ (old.toList ++ after))
    (hs' : ({ s with cells := before ++ (new.toList ++ after) } : Session).WellFormed)
    (htouches : Touches (s.footprint old ∪ s.footprint new) d d')
    (hsource : (∃ code, new.bind Cell.code? = some code) → d'.Leads s.sourceDir)
    (hread : ∀ e, new.bind s.copy? = some e → d'.read [] e.1 = .ok e.2.toUTF8)
    (hgone : ∀ e, old.bind s.copy? = some e → e.1 ≠ s.manifestPath →
      (∀ e', new.bind s.copy? = some e' → e'.1 ≠ e.1) → d'.node? (placeOf e.1) = none) :
    ({ s with cells := before ++ (new.toList ++ after) } : Session).Stored d'
      (had ∪ {path | path ∈
        ({ s with cells := before ++ (new.toList ++ after) } : Session).paths}) left := by
  let s' : Session := { s with cells := before ++ (new.toList ++ after) }
  let rest : Session := { s with cells := before ++ after }
  have hself : ({ s with cells := before ++ (old.toList ++ after) } : Session) = s := by
    rw [← hcells]
  obtain ⟨hrest, hadmits⟩ := WellFormed.around (hself.symm ▸ hs)
  obtain ⟨-, hadmits'⟩ := hs'.around
  have hmem : ∀ e, e ∈ s.copies ↔ old.bind s.copy? = some e ∨ e ∈ rest.copies := by
    intro e
    have hiff := mem_copies_middle s before after old e
    rwa [hself] at hiff
  have hmem' : ∀ e, e ∈ s'.copies ↔ new.bind s.copy? = some e ∨ e ∈ rest.copies :=
    mem_copies_middle s before after new
  have hkept : ∀ path, path ∈ rest.paths → path ∈ s'.paths := by
    rintro path hpath
    obtain ⟨e, he, rfl⟩ := List.mem_map.mp hpath
    exact List.mem_map_of_mem ((hmem' e).mpr (Or.inr he))
  -- whatever is touched has to do with the source directory, the old copy or the new one
  have htouched : ∀ place ∈ s.footprint old ∪ s.footprint new, place ≠ placeOf s.sourceDir →
      ∃ path, (path ∈ s.paths ∨ path ∈ s'.paths) ∧ placeOf path = place := by
    rintro place ((hplace | ⟨e, he, hplace⟩) | hplace | ⟨e, he, hplace⟩) hne
    · exact absurd hplace hne
    · exact ⟨e.1, Or.inl (List.mem_map_of_mem ((hmem e).mpr (Or.inl he))), hplace⟩
    · exact absurd hplace hne
    · exact ⟨e.1, Or.inr (List.mem_map_of_mem ((hmem' e).mpr (Or.inl he))), hplace⟩
  refine ⟨htouches.leads h.dir, fun hne => ?_, fun e he => ?_, fun path hpath hmanifest hnot => ?_,
    fun place hplace hothers => ?_, fun path hpath => Or.inr hpath, ?_⟩
  · by_cases hcode : ∃ code, new.bind Cell.code? = some code
    · exact hsource hcode
    · refine htouches.leads (h.sourceDir fun hnone => hne ?_)
      rw [filenames_eq_nil_iff, hcells] at hnone
      rw [filenames_eq_nil_iff]
      intro c hc
      simp only [List.mem_append, Option.mem_toList] at hnone hc
      rcases hc with hc | hc | hc
      · exact hnone c (Or.inl hc)
      · exact Option.eq_none_iff_forall_not_mem.mpr fun code hmem =>
          hcode ⟨code, Option.bind_eq_some_iff.mpr ⟨c, hc, hmem⟩⟩
      · exact hnone c (Or.inr (Or.inr hc))
  · rcases (hmem' e).mp he with he | he
    · exact hread e he
    · refine htouches.read ?_ (h.read e ((hmem e).mpr (Or.inr he)))
      have hpath : e.1 ∈ rest.paths := List.mem_map_of_mem he
      rintro (hplace | hplace)
      · exact footprint_apart hrest hadmits hpath hplace
      · exact footprint_apart hrest hadmits' hpath hplace
  · obtain hpath : path ∈ had := hpath.resolve_right hnot
    by_cases hcurrent : path ∈ s.paths
    · obtain ⟨e, he, rfl⟩ := List.mem_map.mp hcurrent
      rcases (hmem e).mp he with he | he
      · refine hgone e he hmanifest fun e' he' hsame => hnot ?_
        exact hsame ▸ List.mem_map_of_mem ((hmem' e').mpr (Or.inl he'))
      · exact absurd (hkept _ (List.mem_map_of_mem he)) hnot
    · rw [htouches.nodes _ fun hplace => ?_]
      · exact h.gone path hpath hmanifest hcurrent
      · have hproper := h.proper path hpath
        obtain ⟨path', hpath', hsame⟩ := htouched _ hplace (placeOf_ne_sourceDir hproper)
        rcases hpath' with hpath' | hpath'
        · exact hcurrent (placeOf_inj (hs.isFilePath hpath') hproper hsame ▸ hpath')
        · exact hnot (placeOf_inj (hs'.isFilePath hpath') hproper hsame ▸ hpath')
  · rw [htouches.nodes _ fun hmem => ?_]
    · exact h.others place hplace fun path hpath => hothers path (Or.inl hpath)
    · obtain ⟨path, hpath, hsame⟩ := htouched _ hmem hplace
      exact hothers path (hpath.imp_left (h.current path)) hsame
  · rintro path (hpath | hpath)
    · exact h.proper path hpath
    · exact hs'.isFilePath hpath

/-! ## Edits -/

section Edits

variable {had : Set String} {before after : List Cell}

/-- A cell is written in the place of nothing, or of one with the same path. -/
theorem Stored.write (old : Option Cell) (h : s.Stored d had left) (hs : s.WellFormed)
    (hcells : s.cells = before ++ (old.toList ++ after))
    (hs' : ({ s with cells := before ++ c :: after } : Session).WellFormed)
    (hsame : ∀ e, old.bind s.copy? = some e → ∃ e', s.copy? c = some e' ∧ e'.1 = e.1)
    (hdeeds : Succeed d (s.writing c) d') :
    ({ s with cells := before ++ c :: after } : Session).Stored d'
      (had ∪ {path | path ∈ ({ s with cells := before ++ c :: after } : Session).paths}) left := by
  obtain ⟨htouches, hsource⟩ := writing_succeeds h.dir hdeeds
  refine h.change old (some c) hs hcells hs' (htouches.mono Set.subset_union_right) ?_
    (fun e he => read_of_writing he hdeeds) ?_
  · rintro ⟨code, hcode⟩
    exact hsource (Option.isSome_iff_exists.mpr ⟨code, hcode⟩)
  · intro e he _ hother
    obtain ⟨e', he', hpath⟩ := hsame e he
    exact absurd hpath (hother e' he')

/-- A cell is written as it is. -/
theorem Stored.rewrite (h : s.Stored d had left) (hs : s.WellFormed) (hcell : c ∈ s.cells)
    (hdeeds : Succeed d (s.writing c) d') :
    s.Stored d' (had ∪ {path | path ∈ s.paths}) left := by
  obtain ⟨before, after, hcells⟩ := List.append_of_mem hcell
  have hself : ({ s with cells := before ++ c :: after } : Session) = s := by
    rw [← hcells]
  have hstored := h.write (some c) hs hcells (hself.symm ▸ hs) (fun e he => ⟨e, he, rfl⟩) hdeeds
  rwa [hself] at hstored

/-- A code cell is written under another filename, and its old file is removed. -/
theorem Stored.rename {code : CodeCell} {filename : String} (h : s.Stored d had left)
    (hs : s.WellFormed) (hcells : s.cells = before ++ .code code :: after)
    (hs' : ({ s with cells := before ++ .code { code with filename } :: after } :
      Session).WellFormed)
    (hne : code.filename ≠ filename)
    (hwrite : Succeed d (s.writing (.code { code with filename })) d₁)
    (hremove : Succeed d₁ (s.removing code.filename) d') :
    ({ s with cells := before ++ .code { code with filename } :: after } : Session).Stored d'
      (had ∪ {path | path ∈ ({ s with
        cells := before ++ .code { code with filename } :: after } : Session).paths}) left := by
  obtain ⟨hwritten, hsource⟩ := writing_succeeds h.dir hwrite
  have hordinary : Filename.IsOrdinary ['/'] code.filename :=
    ordinary_of_fits (hs.fits code (List.mem_filterMap.mpr
      ⟨.code code, hcells ▸ List.mem_append_right before List.mem_cons_self, rfl⟩))
  have hordinary' : Filename.IsOrdinary ['/'] filename :=
    ordinary_of_fits (hs'.fits { code with filename } (List.mem_filterMap.mpr
      ⟨.code { code with filename }, List.mem_append_right before List.mem_cons_self, rfl⟩))
  obtain ⟨hremoved, hgone⟩ := removing_succeeds (hsource rfl) hordinary hremove
  refine h.change (some (.code code)) (some (.code { code with filename })) hs hcells hs' ?_
    (fun _ => hremoved.leads (hsource rfl)) ?_ ?_
  · refine (hwritten.mono Set.subset_union_right).trans (hremoved.mono fun place hplace => ?_)
    exact Or.inl (Or.inr ⟨_, rfl, hplace.symm⟩)
  · intro e he
    have hcopy : s.copy? (.code { code with filename }) = some e := he
    refine hremoved.read ?_ (read_of_writing hcopy hwrite)
    obtain rfl := Option.some.inj he
    exact fun hplace => hne (filename_inj hordinary' hordinary hplace).symm
  · intro e he _ _
    obtain rfl := Option.some.inj he
    exact hgone

/-- A code cell is taken out, and its file is removed. -/
theorem Stored.remove {code : CodeCell} (h : s.Stored d had left) (hs : s.WellFormed)
    (hcells : s.cells = before ++ .code code :: after)
    (hs' : ({ s with cells := before ++ after } : Session).WellFormed)
    (hremove : Succeed d (s.removing code.filename) d') :
    ({ s with cells := before ++ after } : Session).Stored d'
      (had ∪ {path | path ∈ ({ s with cells := before ++ after } : Session).paths}) left := by
  have hcode : code ∈ s.codeCells := List.mem_filterMap.mpr
    ⟨.code code, hcells ▸ List.mem_append_right before List.mem_cons_self, rfl⟩
  have hsource := h.sourceDir (List.ne_nil_of_mem (List.mem_map_of_mem hcode))
  obtain ⟨hremoved, hgone⟩ := removing_succeeds hsource (ordinary_of_fits (hs.fits code hcode))
    hremove
  refine h.change (some (.code code)) none hs hcells hs' ?_ nofun nofun ?_
  · exact hremoved.mono fun place hplace => Or.inl (Or.inr ⟨_, rfl, hplace.symm⟩)
  · intro e he _ _
    obtain rfl := Option.some.inj he
    exact hgone

/-- A cell without code is taken out.  The manifest stays on disk. -/
theorem Stored.drop (h : s.Stored d had left) (hs : s.WellFormed)
    (hcells : s.cells = before ++ c :: after) (hcode : c.code? = none)
    (hs' : ({ s with cells := before ++ after } : Session).WellFormed) :
    ({ s with cells := before ++ after } : Session).Stored d
      (had ∪ {path | path ∈ ({ s with cells := before ++ after } : Session).paths}) left := by
  refine h.change (some c) none hs hcells hs' (Touches.refl _ d) nofun nofun ?_
  intro e he hmanifest _
  rcases copy?_cases he with ⟨code, rfl, rfl⟩ | ⟨manifest, rfl, rfl⟩
  · cases hcode
  · exact absurd rfl hmanifest

/-- The manifest is taken over from the disk. -/
theorem Stored.refresh {manifest : ManifestCell} {source : String} (h : s.Stored d had left)
    (hs : s.WellFormed) (hcells : s.cells = before ++ .manifest manifest :: after)
    (hs' : ({ s with cells := before ++ .manifest { manifest with source } :: after } :
      Session).WellFormed)
    (hread : d.read [] s.manifestPath = .ok source.toUTF8) :
    ({ s with cells := before ++ .manifest { manifest with source } :: after } : Session).Stored
      d (had ∪ {path | path ∈ ({ s with
        cells := before ++ .manifest { manifest with source } :: after } : Session).paths})
      left := by
  refine h.change (some (.manifest manifest)) (some (.manifest { manifest with source })) hs
    hcells hs' (Touches.refl _ d) nofun ?_ ?_
  · intro e he
    obtain rfl := Option.some.inj he
    exact hread
  · intro e he hmanifest _
    obtain rfl := Option.some.inj he
    exact absurd rfl hmanifest

/-- Only the directory, the copies and the filenames matter. -/
theorem Stored.congr {s' : Session} (h : s.Stored d had left) (hdir : s'.dir = s.dir)
    (hcopies : s'.copies = s.copies) (hfilenames : s'.filenames = s.filenames) :
    s'.Stored d had left := by
  have hsource : s'.sourceDir = s.sourceDir := congrArg (Path.join · "src") hdir
  have hmanifest : s'.manifestPath = s.manifestPath :=
    congrArg (Path.join · "package.json") hdir
  have hpaths : s'.paths = s.paths := congrArg (List.map Prod.fst) hcopies
  have hfile : ∀ path, s'.IsFilePath ['/'] path ↔ s.IsFilePath ['/'] path := by
    intro path
    simp only [IsFilePath, pathFor, hsource, hmanifest]
  refine ⟨hdir ▸ h.dir, ?_, ?_, ?_, ?_, ?_, ?_⟩
  · rw [hfilenames, hsource]
    exact h.sourceDir
  · rw [hcopies]
    exact h.read
  · rw [hmanifest, hpaths]
    exact h.gone
  · rw [hsource]
    exact h.others
  · rw [hpaths]
    exact h.current
  · exact fun path hpath => (hfile path).mpr (h.proper path hpath)

/-- What the session has already had adds nothing. -/
theorem Stored.self (h : s.Stored d had left) :
    s.Stored d (had ∪ {path | path ∈ s.paths}) left := by
  have hunion : had ∪ {path | path ∈ s.paths} = had :=
    Set.union_eq_self_of_subset_right h.current
  rwa [hunion]

end Edits

/-! ## The beginning -/

/-- When all cells have been written, all copies can be read. -/
theorem writing_all_succeeds {cells : List Cell}
    (hs : ({ s with cells } : Session).WellFormed) (hsource : d.Leads s.sourceDir)
    (h : Succeed d (cells.flatMap s.writing) d') :
    Touches {place | place = placeOf s.sourceDir ∨
        ∃ path ∈ ({ s with cells } : Session).paths, placeOf path = place} d d' ∧
      ∀ e ∈ ({ s with cells } : Session).copies, d'.read [] e.1 = .ok e.2.toUTF8 := by
  induction cells generalizing d with
  | nil =>
      obtain rfl := FileDeed.succeed_nil_iff.mp h
      exact ⟨Touches.refl _ d, nofun⟩
  | cons c rest ih =>
      rw [List.flatMap_cons, FileDeed.succeed_append_iff] at h
      obtain ⟨d₁, hfirst, hrest⟩ := h
      obtain ⟨hwf, hadmits⟩ := (wellFormed_cons s c rest).mp hs
      have hdir := hsource.parent s.components_sourceDir
      obtain ⟨htouches, -⟩ := writing_succeeds hdir hfirst
      obtain ⟨hlater, hothers⟩ := ih hwf (htouches.leads hsource) hrest
      have hmem := mem_copies_middle s [] rest (some c)
      refine ⟨(htouches.mono ?_).trans (hlater.mono ?_), fun e he => ?_⟩
      · rintro place (hplace | ⟨e, he, hplace⟩)
        · exact Or.inl hplace
        · exact Or.inr ⟨e.1, List.mem_map_of_mem ((hmem e).mpr (Or.inl he)), hplace⟩
      · rintro place (hplace | ⟨path, hpath, hplace⟩)
        · exact Or.inl hplace
        · obtain ⟨e, he, rfl⟩ := List.mem_map.mp hpath
          exact Or.inr ⟨e.1, List.mem_map_of_mem ((hmem e).mpr (Or.inr he)), hplace⟩
      · rcases (hmem e).mp he with he | he
        · have hproper := isFilePath_of_copy? hadmits.fits he
          refine hlater.read ?_ (read_of_writing he hfirst)
          rintro (hplace | ⟨path, hpath, hplace⟩)
          · exact placeOf_ne_sourceDir hproper hplace
          · have hsame := placeOf_inj (hwf.isFilePath hpath) hproper hplace
            exact hadmits.apart hwf he (hsame ▸ hpath)
        · exact hothers e he

/-- A disk on which a session was prepared keeps its copies. -/
theorem stored_of_preparing (hs : s.WellFormed) (h : Succeed d s.preparing d') :
    s.Stored d' {path | path ∈ s.paths} d' := by
  obtain ⟨d₁, hmake, hrest⟩ := FileDeed.succeed_cons_iff.mp h
  have hsource := makeDirectories_leads hmake
  obtain ⟨htouches, hread⟩ := writing_all_succeeds hs hsource hrest
  exact ⟨htouches.leads (hsource.parent s.components_sourceDir),
    fun _ => htouches.leads hsource, hread, fun path hpath _ hnot => absurd hpath hnot,
    fun _ _ _ => rfl, fun _ hpath => hpath, fun _ hpath => hs.isFilePath hpath⟩

end Session
end Notebook
