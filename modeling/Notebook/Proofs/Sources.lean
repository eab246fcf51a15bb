import Notebook.Discovery
import Notebook.Proofs.Directories
import Notebook.Proofs.Session.Keys
import Notebook.Proofs.Text.Order

/-!
# What a directory shows as a session

A directory is discovered by what lies at three kinds of places in it: the package manifest, the
source directory, and the files of the language in the source directory.  `Blocked` lists what can
keep it from being read.  `Shows` says of a manifest and code cells that they are what lies there.

* `Language.ofFilename?_eq_some_iff`: the filenames of a language.
* `manifest_cases`, `sourceNames_cases`, `codeCells_cases`: each part is read, or there is a cause
  why it is not.
* `discover_reads_directory`: a directory shows its session, unless something blocks it.
-/

set_option autoImplicit false

namespace Notebook

open Disk

namespace Language

variable {language : Language}

/-- The extensions of a language's files. -/
def extensions : Language → List String
  | .javascript => ["js", "mjs", "cjs"]
  | .typescript => ["ts", "mts", "cts"]

/-- The filename ends with a dot and an extension of the language. -/
def Names (language : Language) (filename : String) : Prop :=
  ∃ stem, ∃ ext ∈ language.extensions, filename = stem ++ "." ++ ext

theorem ofExtension?_eq_some_iff {ext : String} :
    ofExtension? ext = some language ↔ ext ∈ language.extensions := by
  constructor
  · intro h
    unfold ofExtension? at h
    split at h
    · next hext =>
        obtain rfl := Option.some.inj h
        simpa [extensions] using hext
    · split at h
      · next hext =>
          obtain rfl := Option.some.inj h
          simpa [extensions] using hext
      · cases h
  · intro h
    cases language with
    | javascript =>
        have hext : ext = "js" ∨ ext = "mjs" ∨ ext = "cjs" := by simpa [extensions] using h
        rcases hext with rfl | rfl | rfl <;> decide
    | typescript =>
        have hext : ext = "ts" ∨ ext = "mts" ∨ ext = "cts" := by simpa [extensions] using h
        rcases hext with rfl | rfl | rfl <;> decide

/-- What follows a dot, if no other dot does. -/
theorem extension?_append (stem : List Char) {ext : List Char} (h : '.' ∉ ext) :
    extension? (stem ++ '.' :: ext) = some ext := by
  have hall : ∀ c ∈ ext.reverse, (c != '.') = true := fun c hc => by
    rw [bne_iff_ne]
    rintro rfl
    exact h (List.mem_reverse.mp hc)
  rw [extension?, if_pos (by simp), List.reverse_append, List.reverse_cons, List.append_assoc,
    List.takeWhile_append_of_pos hall]
  simp

theorem extension?_eq_some_iff {filename ext : List Char} :
    extension? filename = some ext ↔ '.' ∉ ext ∧ ∃ stem, filename = stem ++ '.' :: ext := by
  constructor
  · intro h
    have hdot : '.' ∈ filename.reverse := by
      unfold extension? at h
      split at h
      · next hcontains => exact List.mem_reverse.mpr (List.contains_iff_mem.mp hcontains)
      · cases h
    -- The first dot of the reversed filename is the last one of the filename.
    obtain ⟨behind, before, hsplit, hbehind⟩ := List.eq_append_cons_of_mem hdot
    have hfilename : filename = before.reverse ++ '.' :: behind.reverse := by
      rw [← List.reverse_reverse filename, hsplit]
      simp
    have hlast : '.' ∉ behind.reverse := fun hmem => hbehind (List.mem_reverse.mp hmem)
    rw [hfilename, extension?_append _ hlast] at h
    obtain rfl := Option.some.inj h
    exact ⟨hlast, _, hfilename⟩
  · rintro ⟨hlast, stem, rfl⟩
    exact extension?_append stem hlast

/-- A filename is one of a language if it ends with one of its extensions. -/
theorem ofFilename?_eq_some_iff {filename : String} :
    ofFilename? filename = some language ↔ language.Names filename := by
  unfold ofFilename?
  rw [Option.bind_eq_some_iff]
  constructor
  · rintro ⟨ext, hext, hlanguage⟩
    obtain ⟨-, stem, hfilename⟩ := extension?_eq_some_iff.mp hext
    refine ⟨String.ofList stem, _, ofExtension?_eq_some_iff.mp hlanguage, ?_⟩
    rw [← String.toList_inj, hfilename]
    simp
  · rintro ⟨stem, ext, hext, rfl⟩
    have hdot : '.' ∉ ext.toList := by
      cases language <;> simp only [extensions, List.mem_cons, List.not_mem_nil, or_false] at hext <;>
        rcases hext with rfl | rfl | rfl <;> decide
    refine ⟨ext.toList, extension?_eq_some_iff.mpr ⟨hdot, stem.toList, by simp⟩, ?_⟩
    rw [String.ofList_toList]
    exact ofExtension?_eq_some_iff.mpr hext

end Language

namespace Discovery

variable {d : Disk} {cwd place : Place} {fresh : Nat → CellId} {id : SessionId}
  {dir name : String} {language : Language} {data : ByteArray}

/-- In the directory there is a file of the language. -/
structure HasSource (d : Disk) (place : Place) (language : Language) (name : String)
    (data : ByteArray) : Prop where
  named : language.Names name
  file : d.HasFile (place ++ [name.toList]) data

/-- What can keep a directory from being read as a session. -/
inductive Blocked (d : Disk) (dir : String) (place : Place) (language : Language) : Problem → Prop
  | manifest {data : ByteArray} (file : d.HasFile (place ++ ["package.json".toList]) data)
      (flaw : ∀ text : String, text.toUTF8 ≠ data) :
      Blocked d dir place language (.reading (Path.join dir "package.json"))
  | listing {data : ByteArray} (file : d.HasFile (place ++ ["src".toList]) data) :
      Blocked d dir place language (.listing (Path.join dir "src"))
  | source {name : String} {data : ByteArray}
      (source : HasSource d (place ++ ["src".toList]) language name data)
      (flaw : ∀ text : String, text.toUTF8 ≠ data) :
      Blocked d dir place language (.reading (Path.join (Path.join dir "src") name))

/-- A manifest and code cells are what lies in a directory.  Without a source file there is an
empty cell. -/
structure Shows (d : Disk) (place : Place) (language : Language) (first : Option ManifestCell)
    (code : List CodeCell) : Prop where
  manifest : ∀ data, d.HasFile (place ++ ["package.json".toList]) data ↔
    ∃ m ∈ first, m.source.toUTF8 = data
  sources : (∃ name data, HasSource d (place ++ ["src".toList]) language name data) →
    ∀ name data, HasSource d (place ++ ["src".toList]) language name data ↔
      ∃ c ∈ code, c.filename = name ∧ c.source.toUTF8 = data
  index : (¬ ∃ name data, HasSource d (place ++ ["src".toList]) language name data) →
    ∃ id, code = [⟨id, "", "index." ++ language.fileExtension, language, .idle⟩]
  ascending : code.Pairwise fun c c' => Text.bytes c.filename < Text.bytes c'.filename
  manifestIdle : ∀ m ∈ first, m.status = .idle
  idle : ∀ c ∈ code, c.status = .idle
  language : ∀ c ∈ code, c.language = language

/-! ## Files -/

theorem hasFile_unique {data' : ByteArray} (h : d.HasFile place data)
    (h' : d.HasFile place data') : data = data' := by
  obtain ⟨executable, hnode⟩ := h
  obtain ⟨executable', hnode'⟩ := h'
  rw [hnode] at hnode'
  cases hnode'
  rfl

/-- A file is read as the text that has its bytes, if there is one. -/
theorem readSource_cases (hdir : d.LeadsFrom cwd dir place) (hname : IsEntry name.toList)
    (hfile : d.HasFile (place ++ [name.toList]) data) :
    (∃ text, readSource d cwd (Path.join dir name) = .ok text ∧ text.toUTF8 = data) ∨
      readSource d cwd (Path.join dir name) = .error (.reading (Path.join dir name)) ∧
        ∀ text : String, text.toUTF8 ≠ data := by
  rw [readSource, hdir.readText_join hname hfile]
  cases hdecode : String.fromUTF8? data with
  | some text => exact Or.inl ⟨text, rfl, Text.toUTF8_of_fromUTF8? hdecode⟩
  | none =>
      refine Or.inr ⟨rfl, fun text htext => ?_⟩
      rw [← htext, Text.fromUTF8?_toUTF8] at hdecode
      cases hdecode

theorem isEntry_manifest : IsEntry "package.json".toList :=
  ⟨by decide, by decide, by decide⟩

theorem isEntry_src : IsEntry "src".toList :=
  ⟨by decide, by decide, by decide⟩

/-- The manifest is read, or there is a cause why it is not. -/
theorem manifest_cases (fresh : Nat → CellId) (language : Language)
    (hdir : d.LeadsFrom cwd dir place) :
    (∃ first : Option ManifestCell,
      manifest d cwd fresh dir = .ok (first.toList.map .manifest) ∧
      (∀ data, d.HasFile (place ++ ["package.json".toList]) data ↔
        ∃ m ∈ first, m.source.toUTF8 = data) ∧ ∀ m ∈ first, m.status = .idle) ∨
    ∃ problem, manifest d cwd fresh dir = .error problem ∧
      Blocked d dir place language problem := by
  unfold manifest
  simp only
  split
  · next hisFile =>
      obtain ⟨data, hfile⟩ := (hdir.isFile_join isEntry_manifest).mp hisFile
      rcases readSource_cases hdir isEntry_manifest hfile with ⟨text, hread, hdata⟩ | ⟨hread, hflaw⟩
      · refine Or.inl ⟨some ⟨fresh 0, text, .idle⟩, by rw [hread]; rfl, fun data' => ?_, ?_⟩
        · constructor
          · exact fun hfile' => ⟨_, rfl, hdata.trans (hasFile_unique hfile hfile')⟩
          · rintro ⟨m, hm, rfl⟩
            obtain rfl := Option.some.inj hm
            exact hdata ▸ hfile
        · intro m hm
          obtain rfl := Option.some.inj hm
          rfl
      · exact Or.inr ⟨_, by rw [hread]; rfl, .manifest hfile hflaw⟩
  · next hisFile =>
      refine Or.inl ⟨none, rfl, fun data => ⟨fun hfile => ?_, nofun⟩, nofun⟩
      exact absurd ((hdir.isFile_join isEntry_manifest).mpr ⟨data, hfile⟩) hisFile

/-! ## Source files -/

/-- What lies in the source directory makes it one that the path leads to. -/
theorem leadsFrom_src (hsound : d.Sound) (hdir : d.LeadsFrom cwd dir place) {below : List Char}
    (hfile : d.HasFile (place ++ ["src".toList] ++ [below]) data) :
    d.LeadsFrom cwd (Path.join dir "src") (place ++ ["src".toList]) := by
  obtain ⟨executable, hnode⟩ := hfile
  have hparent := hsound.parent _ (hnode ▸ Option.some_ne_none _)
  rw [List.dropLast_concat] at hparent
  exact hdir.below isEntry_src hparent

theorem isSource_iff {src : String} (hsrc : d.LeadsFrom cwd src place)
    (hname : IsEntry name.toList) :
    isSource d cwd src language name = true ↔ ∃ data, HasSource d place language name data := by
  rw [isSource, Bool.and_eq_true, hsrc.isFile_join hname, beq_iff_eq,
    Language.ofFilename?_eq_some_iff]
  exact ⟨fun ⟨⟨data, hfile⟩, hnamed⟩ => ⟨data, hnamed, hfile⟩,
    fun ⟨data, hsource⟩ => ⟨⟨data, hsource.file⟩, hsource.named⟩⟩

/-- The names that are picked from a directory are those of its source files. -/
theorem mem_filter_isSource {src : String} (hsound : d.Sound) (hsrc : d.LeadsFrom cwd src place) :
    name ∈ ((d.namesIn place).map String.ofList).filter (isSource d cwd src language) ↔
      ∃ data, HasSource d place language name data := by
  rw [List.mem_filter]
  constructor
  · rintro ⟨hmem, hisSource⟩
    obtain ⟨chars, hchars, rfl⟩ := List.mem_map.mp hmem
    have hentry := hsound.entry _ _ (mem_namesIn_iff.mp hchars)
    exact (isSource_iff hsrc (by rwa [String.toList_ofList])).mp hisSource
  · rintro ⟨data, hsource⟩
    obtain ⟨executable, hnode⟩ := hsource.file
    refine ⟨List.mem_map.mpr ⟨name.toList, mem_namesIn_iff.mpr ?_, String.ofList_toList⟩, ?_⟩
    · exact hnode ▸ Option.some_ne_none _
    · exact (isSource_iff hsrc (hsound.isEntry hnode)).mpr ⟨data, hsource⟩

/-- Sorting a list without duplicates gives one that ascends. -/
theorem pairwise_sort {names : List String} (h : names.Nodup) :
    (names.mergeSort fun a b => !decide (b < a)).Pairwise (· < ·) := by
  have hsorted : (names.mergeSort fun a b => !decide (b < a)).Pairwise (· ≤ ·) := by
    have hle : ∀ {a b : String}, (!decide (b < a)) = true ↔ a ≤ b := fun {a b} => by
      rw [Bool.not_eq_true', decide_eq_false_iff_not, String.not_lt]
    have htrans : ∀ a b c : String, (!decide (b < a)) = true → (!decide (c < b)) = true →
        (!decide (c < a)) = true := fun a b c hab hbc =>
      hle.mpr (String.le_trans (hle.mp hab) (hle.mp hbc))
    have htotal : ∀ a b : String, (!decide (b < a) || !decide (a < b)) = true := fun a b =>
      Bool.or_eq_true_iff.mpr ((String.le_total a b).imp hle.mpr hle.mpr)
    exact (List.pairwise_mergeSort htrans htotal names).imp hle.mp
  have hnodup := (List.mergeSort_perm names fun a b => !decide (b < a)).nodup_iff.mpr h
  exact (hsorted.and hnodup).imp fun ⟨hle, hne⟩ =>
    String.not_le.mp fun hge => hne (String.le_antisymm hle hge)

/-- The source files are listed, or there is a cause why they are not. -/
theorem sourceNames_cases (language : Language) (hsound : d.Sound)
    (hdir : d.LeadsFrom cwd dir place) :
    (∃ names, sourceNames d cwd (Path.join dir "src") language = .ok names ∧
      (∀ name, name ∈ names ↔
        ∃ data, HasSource d (place ++ ["src".toList]) language name data) ∧
      (d.nodes.keys.Nodup → names.Pairwise (· < ·)) ∧
      ∀ data, ¬ d.HasFile (place ++ ["src".toList]) data) ∨
    ∃ problem, sourceNames d cwd (Path.join dir "src") language = .error problem ∧
      Blocked d dir place language problem := by
  -- What is listed depends on what lies at the place of the source directory.
  have hlist := hdir.list_join isEntry_src
  unfold sourceNames
  cases hnode : d.node? (place ++ ["src".toList]) with
  | none =>
      rw [hnode] at hlist
      refine Or.inl ⟨[], by rw [hlist], fun name => ⟨nofun, ?_⟩, fun _ => .nil, ?_⟩
      · rintro ⟨data, hsource⟩
        have hthere := (leadsFrom_src hsound hdir hsource.file).there
        rw [hnode] at hthere
        cases hthere
      · rintro data ⟨executable, hfile⟩
        rw [hnode] at hfile
        cases hfile
  | some node =>
      rw [hnode] at hlist
      cases node with
      | file data executable =>
          exact Or.inr ⟨_, by rw [hlist], .listing ⟨executable, hnode⟩⟩
      | directory =>
          have hsrc := hdir.below isEntry_src hnode
          refine Or.inl ⟨_, by rw [hlist], fun name => ?_, fun hkeys => pairwise_sort ?_, ?_⟩
          · rw [(List.mergeSort_perm _ _).mem_iff, mem_filter_isSource hsound hsrc]
          · refine ((nodup_namesIn hkeys _).map fun chars chars' heq => ?_).filter _
            exact String.ofList_injective heq
          · rintro data ⟨executable, hfile⟩
            rw [hnode] at hfile
            cases hfile

/-- A file that is read gives the first cell. -/
theorem codeCells_cons {src source : String} {n : Nat} {rest : List String}
    (hread : readSource d cwd (Path.join src name) = .ok source) :
    codeCells d cwd fresh src language n (name :: rest) =
      (codeCells d cwd fresh src language (n + 1) rest).map
        (.code ⟨fresh n, source, name, language, .idle⟩ :: ·) := by
  rw [codeCells, hread]
  cases codeCells d cwd fresh src language (n + 1) rest <;> rfl

/-- All source files are read, or there is a cause why one of them is not. -/
theorem codeCells_cases (fresh : Nat → CellId) (hsound : d.Sound)
    (hdir : d.LeadsFrom cwd dir place) {names : List String}
    (hnames : ∀ name ∈ names, ∃ data, HasSource d (place ++ ["src".toList]) language name data)
    (n : Nat) :
    (∃ code : List CodeCell,
      codeCells d cwd fresh (Path.join dir "src") language n names = .ok (code.map .code) ∧
      code.map CodeCell.filename = names ∧ ∀ c ∈ code,
        HasSource d (place ++ ["src".toList]) language c.filename c.source.toUTF8 ∧
        c.language = language ∧ c.status = .idle) ∨
    ∃ problem, codeCells d cwd fresh (Path.join dir "src") language n names = .error problem ∧
      Blocked d dir place language problem := by
  induction names generalizing n with
  | nil => exact Or.inl ⟨[], rfl, rfl, nofun⟩
  | cons name rest ih =>
      obtain ⟨data, hsource⟩ := hnames name List.mem_cons_self
      obtain ⟨executable, hnode⟩ := hsource.file
      -- Only now it is known that there is a source directory: this file lies in it.
      have hsrc := leadsFrom_src hsound hdir hsource.file
      rcases readSource_cases hsrc (hsound.isEntry hnode) hsource.file with
        ⟨text, hread, rfl⟩ | ⟨hread, hflaw⟩
      · rw [codeCells_cons hread]
        rcases ih (fun name hmem => hnames name (List.mem_cons_of_mem _ hmem)) (n + 1) with
          ⟨code, hcode, hfilenames, hcells⟩ | ⟨problem, herror, hblocked⟩
        · refine Or.inl ⟨⟨fresh n, text, name, language, .idle⟩ :: code, by rw [hcode]; rfl,
            congrArg (name :: ·) hfilenames, fun c hc => ?_⟩
          rcases List.mem_cons.mp hc with rfl | hc
          · exact ⟨hsource, rfl, rfl⟩
          · exact hcells c hc
        · exact Or.inr ⟨problem, by rw [herror]; rfl, hblocked⟩
      · exact Or.inr ⟨_, by rw [codeCells, hread]; rfl, .source hsource hflaw⟩

/-! ## Sessions -/

/-- Code cells for all source files, or an empty cell without any, are what a directory shows. -/
theorem shows_of_parts {first : Option ManifestCell} {code : List CodeCell} {names : List String}
    (hmanifest : ∀ data, d.HasFile (place ++ ["package.json".toList]) data ↔
      ∃ m ∈ first, m.source.toUTF8 = data)
    (hmanifestIdle : ∀ m ∈ first, m.status = .idle)
    (hnames : ∀ name, name ∈ names ↔
      ∃ data, HasSource d (place ++ ["src".toList]) language name data)
    (hascending : names.Pairwise (· < ·)) (hfilenames : code.map CodeCell.filename = names)
    (hcode : ∀ c ∈ code,
      HasSource d (place ++ ["src".toList]) language c.filename c.source.toUTF8 ∧
      c.language = language ∧ c.status = .idle) (id : CellId) :
    Shows d place language first (if code.isEmpty then
      [⟨id, "", "index." ++ language.fileExtension, language, .idle⟩] else code) := by
  have hnone : code = [] ↔ ¬ ∃ name data,
      HasSource d (place ++ ["src".toList]) language name data := by
    rw [← List.map_eq_nil_iff, hfilenames, List.eq_nil_iff_forall_not_mem, not_exists]
    exact forall_congr' fun name => not_congr (hnames name)
  cases code with
  | nil =>
      refine ⟨hmanifest, fun hsome => absurd hsome (hnone.mp rfl), fun _ => ⟨id, rfl⟩, ?_,
        hmanifestIdle, ?_, ?_⟩
      · exact List.pairwise_singleton _ _
      · exact List.forall_mem_singleton.mpr rfl
      · exact List.forall_mem_singleton.mpr rfl
  | cons c rest =>
      refine ⟨hmanifest, fun _ name data => ?_, fun hno => absurd (hnone.mpr hno) nofun, ?_,
        hmanifestIdle, fun c hc => (hcode c hc).2.2, fun c hc => (hcode c hc).2.1⟩
      · constructor
        · intro hsource
          -- The name is listed, and the cell with it holds what lies at the same place.
          have hmem := (hnames name).mpr ⟨data, hsource⟩
          rw [← hfilenames] at hmem
          obtain ⟨c, hc, rfl⟩ := List.mem_map.mp hmem
          exact ⟨c, hc, rfl, hasFile_unique (hcode c hc).1.file hsource.file⟩
        · rintro ⟨c, hc, rfl, rfl⟩
          exact (hcode c hc).1
      · rw [← hfilenames, List.pairwise_map] at hascending
        exact hascending.imp Text.bytes_lt

/-- A directory that shows its cells, and whose sources are listed, is not blocked. -/
theorem Shows.not_blocked {first : Option ManifestCell} {code : List CodeCell}
    (h : Shows d place language first code)
    (hlisted : ∀ data, ¬ d.HasFile (place ++ ["src".toList]) data) (problem : Problem) :
    ¬ Blocked d dir place language problem := by
  intro hblocked
  cases hblocked with
  | manifest hfile hflaw =>
      obtain ⟨m, -, hsource⟩ := (h.manifest _).mp hfile
      exact hflaw m.source hsource
  | listing hfile => exact hlisted _ hfile
  | source hsource hflaw =>
      obtain ⟨c, -, -, hdata⟩ := (h.sources ⟨_, _, hsource⟩ _ _).mp hsource
      exact hflaw c.source hdata

/-- A directory shows the session that is discovered, or something blocks it. -/
theorem discover_cases (fresh : Nat → CellId) (id : SessionId) (language : Language)
    (hsound : d.Sound) (hkeys : d.nodes.keys.Nodup) (hdir : d.LeadsFrom cwd dir place) :
    (∃ first code, discover d cwd fresh id dir language =
        .ok ⟨id, dir, language, first.toList.map .manifest ++ code.map .code⟩ ∧
      Shows d place language first code ∧ ∀ problem, ¬ Blocked d dir place language problem) ∨
    ∃ problem, discover d cwd fresh id dir language = .error problem ∧
      Blocked d dir place language problem := by
  unfold discover
  rcases manifest_cases fresh language hdir with
    ⟨first, hfirst, hmanifest, hmanifestIdle⟩ | ⟨problem, herror, hblocked⟩
  · rcases sourceNames_cases language hsound hdir with
      ⟨names, hlist, hnames, hascending, hlisted⟩ | ⟨problem, herror, hblocked⟩
    · rcases codeCells_cases fresh hsound hdir (fun name => (hnames name).mp) 1 with
        ⟨code, hcells, hfilenames, hcode⟩ | ⟨problem, herror, hblocked⟩
      · have hshows := shows_of_parts hmanifest hmanifestIdle hnames (hascending hkeys)
          hfilenames hcode (fresh 1)
        refine Or.inl ⟨first, _, ?_, hshows, hshows.not_blocked hlisted⟩
        simp only [hfirst, hlist, hcells, bind, Except.bind]
        cases code <;> rfl
      · refine Or.inr ⟨problem, ?_, hblocked⟩
        simp only [hfirst, hlist, herror, bind, Except.bind]
    · refine Or.inr ⟨problem, ?_, hblocked⟩
      simp only [hfirst, herror, bind, Except.bind]
  · refine Or.inr ⟨problem, ?_, hblocked⟩
    simp only [herror, bind, Except.bind]

/-! ## What follows of the cells -/

section Cells

variable {session : Session} {first : Option ManifestCell} {code : List CodeCell}

theorem codeCells_eq (hcells : session.cells = first.toList.map .manifest ++ code.map .code) :
    session.codeCells = code := by
  rw [Session.codeCells, hcells, List.filterMap_append, List.filterMap_map, List.filterMap_map]
  cases first <;> simp [Function.comp_def, Cell.code?]

theorem length_manifests_le
    (hcells : session.cells = first.toList.map .manifest ++ code.map .code) :
    (session.cells.filter Cell.isManifest).length ≤ 1 := by
  have hcode : (code.map Cell.code).filter Cell.isManifest = [] :=
    List.filter_eq_nil_iff.mpr fun c hc => by
      obtain ⟨code, -, rfl⟩ := List.mem_map.mp hc
      nofun
  rw [hcells, List.filter_append, hcode, List.append_nil]
  refine Nat.le_trans (List.length_filter_le _ _) ?_
  cases first <;> simp

theorem Shows.nodup_filenames
    (hcells : session.cells = first.toList.map .manifest ++ code.map .code)
    (h : Shows d place language first code) : session.filenames.Nodup := by
  rw [Session.filenames, codeCells_eq hcells]
  refine List.Pairwise.map _ (fun c c' hlt heq => ?_) h.ascending
  exact List.lt_irrefl _ (heq ▸ hlt)

theorem Shows.status?_eq
    (hcells : session.cells = first.toList.map .manifest ++ code.map .code)
    (h : Shows d place language first code) : ∀ c ∈ session.cells, c.status? = some .idle := by
  intro c hc
  rw [hcells, List.mem_append, List.mem_map, List.mem_map] at hc
  rcases hc with ⟨m, hm, rfl⟩ | ⟨code, hcode, rfl⟩
  · exact congrArg some (h.manifestIdle m (Option.mem_toList.mp hm))
  · exact congrArg some (h.idle code hcode)

end Cells

/-- What a directory shows as a session.  On a disk where everything lies in a directory, has a
name that a file may have, and is stored once, let a path lead to a directory.  It is discovered
if and only if nothing blocks it, and an error names something that does.  The cells are the
manifest, if there is a file of this name, and a code cell for each file of the language directly
in the source directory, by the bytes of their names; or one empty cell if there is none.  Texts
are those of the files.  So filenames are distinct, there is one manifest at most, no cell runs,
and all code is in the language of the session. -/
theorem discover_reads_directory (d : Disk) (cwd : Place) (fresh : Nat → CellId) (id : SessionId)
    (dir : String) (language : Language) (place : Place) (hsound : d.Sound)
    (hkeys : d.nodes.keys.Nodup) (hdir : d.LeadsFrom cwd dir place) :
    ((∃ session, discover d cwd fresh id dir language = .ok session) ↔
      ∀ problem, ¬ Blocked d dir place language problem) ∧
    (∀ problem, discover d cwd fresh id dir language = .error problem →
      Blocked d dir place language problem) ∧
    ∀ session, discover d cwd fresh id dir language = .ok session →
      session.id = id ∧ session.dir = dir ∧ session.language = language ∧
      (∃ first code, session.cells = first.toList.map .manifest ++ code.map .code ∧
        Shows d place language first code) ∧
      session.filenames.Nodup ∧ (session.cells.filter Cell.isManifest).length ≤ 1 ∧
      (∀ c ∈ session.cells, c.status? = some .idle) ∧
      ∀ c ∈ session.codeCells, c.language = language := by
  rcases discover_cases fresh id language hsound hkeys hdir with
    ⟨first, code, hdiscover, hshows, hfree⟩ | ⟨problem, hdiscover, hblocked⟩
  · refine ⟨⟨fun _ => hfree, fun _ => ⟨_, hdiscover⟩⟩, fun problem herror => ?_,
      fun session hsession => ?_⟩
    · rw [hdiscover] at herror
      cases herror
    · obtain rfl := Except.ok.inj (hdiscover.symm.trans hsession)
      refine ⟨rfl, rfl, rfl, ⟨first, code, rfl, hshows⟩, hshows.nodup_filenames rfl,
        length_manifests_le rfl, hshows.status?_eq rfl, ?_⟩
      rw [codeCells_eq rfl]
      exact hshows.language
  · refine ⟨⟨?_, fun hfree => absurd hblocked (hfree problem)⟩, fun problem' herror => ?_,
      fun session hsession => ?_⟩
    · rintro ⟨session, hsession⟩
      rw [hdiscover] at hsession
      cases hsession
    · obtain rfl := Except.error.inj (hdiscover.symm.trans herror)
      exact hblocked
    · rw [hdiscover] at hsession
      cases hsession

/-- A directory among the sources, a file of the other language, one without a dot and one that
begins with it. -/
theorem discover_reads_directory_mixed :
    let d := (FileDeed.runAll .empty [.makeDirectory "/book/src/old.ts",
      .write "/book/src/b.ts" "2", .write "/book/package.json" "null",
      .write "/book/src/a.js" "3", .write "/book/src/ts" "4", .write "/book/src/.ts" "1"]).2
    let session : Session := ⟨⟨"s"⟩, "/book", .typescript, [.manifest ⟨hexId 0, "null", .idle⟩,
      .code ⟨hexId 1, "1", ".ts", .typescript, .idle⟩,
      .code ⟨hexId 2, "2", "b.ts", .typescript, .idle⟩]⟩
    (d.Sound ∧ d.nodes.keys.Nodup ∧ d.LeadsFrom [] "/book" ["book".toList]) ∧
    discover d [] hexId ⟨"s"⟩ "/book" .typescript = .ok session ∧
    (∀ problem, ¬ Blocked d "/book" ["book".toList] .typescript problem) ∧
    ∃ first code, session.cells = first.toList.map .manifest ++ code.map .code ∧
      Shows d ["book".toList] .typescript first code := by
  intro d session
  have hsound : d.Sound := sound_empty.runAll _
  have hkeys : d.nodes.keys.Nodup := nodup_keys_runAll (d := .empty) List.nodup_nil _
  have hdir : d.LeadsFrom [] "/book" ["book".toList] := by
    refine ⟨by decide +kernel, ?_⟩
    have hholds : d.holdsDirectory ["book".toList] = true := by decide +kernel
    unfold holdsDirectory at hholds
    split at hholds
    · next hnode => exact hnode
    · cases hholds
  have hsorted : [".ts", "b.ts"] = ["b.ts", ".ts"].mergeSort fun a b => !decide (b < a) :=
    List.Perm.eq_of_pairwise (fun _ _ _ _ hlt hgt => absurd hgt (String.lt_asymm hlt))
      (by decide : [".ts", "b.ts"].Pairwise (· < ·)) (pairwise_sort (by decide))
      ((List.Perm.swap _ _ _).trans (List.mergeSort_perm _ _).symm)
  have hnames : sourceNames d [] (Path.join "/book" "src") .typescript =
      .ok [".ts", "b.ts"] := by
    have hlist : d.list [] (Path.join "/book" "src") = .ok ["old.ts".toList, "b.ts".toList,
        "a.js".toList, "ts".toList, ".ts".toList] := by decide +kernel
    have hpicked : (["old.ts".toList, "b.ts".toList, "a.js".toList, "ts".toList,
        ".ts".toList].map String.ofList).filter (isSource d [] (Path.join "/book" "src")
          .typescript) = ["b.ts", ".ts"] := by decide +kernel
    rw [sourceNames, hlist, hsorted, ← hpicked]
  have hmanifest : manifest d [] hexId "/book" = .ok [.manifest ⟨hexId 0, "null", .idle⟩] := by
    decide +kernel
  have hcode : codeCells d [] hexId (Path.join "/book" "src") .typescript 1 [".ts", "b.ts"] =
      .ok [.code ⟨hexId 1, "1", ".ts", .typescript, .idle⟩,
        .code ⟨hexId 2, "2", "b.ts", .typescript, .idle⟩] := by decide +kernel
  have hdiscover : discover d [] hexId ⟨"s"⟩ "/book" .typescript = .ok session := by
    simp only [discover, hmanifest, hnames, hcode, bind, Except.bind]
    rfl
  obtain ⟨hiff, -, hshows⟩ := discover_reads_directory d [] hexId ⟨"s"⟩ "/book" .typescript
    ["book".toList] hsound hkeys hdir
  exact ⟨⟨hsound, hkeys, hdir⟩, hdiscover, hiff.mp ⟨_, hdiscover⟩,
    (hshows session hdiscover).2.2.2.1⟩

end Discovery
end Notebook
