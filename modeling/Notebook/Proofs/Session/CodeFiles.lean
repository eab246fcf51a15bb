import Notebook.Proofs.Session.Edits
import Notebook.Proofs.Table
import Notebook.Session.Files

/-!
# The files of the code cells

Of a code cell, its name, its filename and its source matter for the files.
`Session.codeFiles` lists them, and `Matches t files` says that a table has exactly the
listed filenames, each with its source.

* `Matches.insert`, `Matches.remove`, `Matches.replace`: one file comes, or goes, or both.
* `codeFiles_insert`, `codeFiles_remove`, `codeFiles_replace`, `codeFiles_withSource`: the
  files after an edit.
* `mem_sources_iff`: with distinct filenames, the sources are those of the code cells.
-/

set_option autoImplicit false

namespace Notebook

/-- What matters of a code cell for the files. -/
structure CodeFile where
  id : CellId
  filename : String
  source : String
  deriving DecidableEq, Repr

/-- What matters of a code cell for the files. -/
def CodeCell.file (c : CodeCell) : CodeFile :=
  ⟨c.id, c.filename, c.source⟩

/-- What matters of a cell for the files, if it has code. -/
def Cell.file? (c : Cell) : Option CodeFile :=
  c.code?.map CodeCell.file

@[simp]
theorem Cell.file?_withStatus (status : CellStatus) (c : Cell) :
    (c.withStatus status).file? = c.file? := by
  cases c <;> rfl

theorem Cell.id_of_file? {c : Cell} {file : CodeFile} (h : c.file? = some file) :
    file.id = c.id := by
  cases c with
  | code code =>
      obtain rfl := Option.some.inj h
      rfl
  | title _ => cases h
  | markdown _ => cases h
  | manifest _ => cases h

namespace Session

/-- What matters of the code cells for the files, in order. -/
def codeFiles (s : Session) : List CodeFile :=
  s.cells.filterMap Cell.file?

/-- The names of the code cells are distinct, and so are their filenames. -/
structure DistinctFiles (files : List CodeFile) : Prop where
  names : (files.map CodeFile.id).Nodup
  filenames : (files.map CodeFile.filename).Nodup

/-- The table has exactly the listed filenames, each with its source. -/
def Matches (t : Table String String) (files : List CodeFile) : Prop :=
  ∀ f c, t.find? f = some c ↔ ∃ id, ⟨id, f, c⟩ ∈ files

theorem codeFiles_eq (s : Session) : s.codeFiles = s.codeCells.map CodeCell.file := by
  unfold codeFiles codeCells
  rw [List.map_filterMap]
  rfl

/-! ## One file comes or goes -/

variable {t : Table String String} {before after : List CodeFile} {file : CodeFile}

/-- Only the values by key matter. -/
theorem Matches.congr {t' : Table String String} {files : List CodeFile}
    (h : Matches t files) (hfind : ∀ f, t'.find? f = t.find? f) : Matches t' files := by
  intro f c
  rw [hfind, h f c]

theorem Matches.insert (h : Matches t (before ++ after))
    (hnew : file.filename ∉ (before ++ after).map CodeFile.filename) :
    Matches (t.set file.filename file.source) (before ++ file :: after) := by
  intro f c
  rw [Table.find?_set]
  have hmem : ∀ x : CodeFile, x ∈ before ++ file :: after ↔ x = file ∨ x ∈ before ++ after := by
    intro x
    rw [List.perm_middle.mem_iff, List.mem_cons]
  by_cases hf : file.filename = f
  · rw [if_pos hf, Option.some.injEq]
    constructor
    · rintro rfl
      exact ⟨file.id, (hmem _).mpr (Or.inl (by rw [← hf]))⟩
    · rintro ⟨id, hid⟩
      rcases (hmem _).mp hid with heq | hold
      · rw [← heq]
      · exact absurd (List.mem_map_of_mem (f := CodeFile.filename) hold) (hf ▸ hnew)
  · rw [if_neg hf, h f c]
    refine exists_congr fun id => ?_
    rw [hmem]
    refine (or_iff_right ?_).symm
    rintro rfl
    exact hf rfl

theorem Matches.remove (h : Matches t (before ++ file :: after))
    (hnew : file.filename ∉ (before ++ after).map CodeFile.filename) :
    Matches (t.erase file.filename) (before ++ after) := by
  intro f c
  rw [Table.find?_erase]
  by_cases hf : file.filename = f
  · rw [if_pos hf]
    constructor
    · intro hc
      cases hc
    · rintro ⟨id, hid⟩
      exact absurd (List.mem_map_of_mem (f := CodeFile.filename) hid) (hf ▸ hnew)
  · rw [if_neg hf, h f c]
    refine exists_congr fun id => ?_
    rw [List.perm_middle.mem_iff, List.mem_cons]
    refine or_iff_right ?_
    rintro rfl
    exact hf rfl

theorem DistinctFiles.insert (h : DistinctFiles (before ++ after))
    (hid : file.id ∉ (before ++ after).map CodeFile.id)
    (hnew : file.filename ∉ (before ++ after).map CodeFile.filename) :
    DistinctFiles (before ++ file :: after) := by
  constructor
  · rw [(List.perm_middle.map CodeFile.id).nodup_iff, List.map_cons, List.nodup_cons]
    exact ⟨hid, h.names⟩
  · rw [(List.perm_middle.map CodeFile.filename).nodup_iff, List.map_cons, List.nodup_cons]
    exact ⟨hnew, h.filenames⟩

/-- Without one of the files, its name and its filename are free. -/
theorem DistinctFiles.remove (h : DistinctFiles (before ++ file :: after)) :
    DistinctFiles (before ++ after) ∧ file.id ∉ (before ++ after).map CodeFile.id ∧
      file.filename ∉ (before ++ after).map CodeFile.filename := by
  have hnames := h.names
  have hfilenames := h.filenames
  rw [(List.perm_middle.map CodeFile.id).nodup_iff, List.map_cons, List.nodup_cons] at hnames
  rw [(List.perm_middle.map CodeFile.filename).nodup_iff, List.map_cons,
    List.nodup_cons] at hfilenames
  exact ⟨⟨hnames.2, hfilenames.2⟩, hnames.1, hfilenames.1⟩

/-- A file that takes the place of another, under the same name of the cell. -/
theorem DistinctFiles.replace (h : DistinctFiles (before ++ file :: after)) (file' : CodeFile)
    (hid : file'.id = file.id)
    (hnew : file'.filename ∉ (before ++ after).map CodeFile.filename) :
    DistinctFiles (before ++ file' :: after) := by
  obtain ⟨hrest, hfree, _⟩ := h.remove
  exact hrest.insert (hid ▸ hfree) hnew

theorem Matches.replace (h : Matches t (before ++ file :: after))
    (hdistinct : DistinctFiles (before ++ file :: after)) (file' : CodeFile)
    (hnew : file'.filename ∉ (before ++ after).map CodeFile.filename) :
    Matches ((t.erase file.filename).set file'.filename file'.source)
      (before ++ file' :: after) :=
  (h.remove hdistinct.remove.2.2).insert hnew

/-! ## The files after an edit -/

/-- The files of a session that is split at a cell. -/
theorem Split.codeFiles {s : Session} {id : CellId} {c : Cell} {before after : List Cell}
    (h : Split s id c before after) :
    s.codeFiles = before.filterMap Cell.file? ++ (c.file?.toList ++ after.filterMap Cell.file?) := by
  unfold Session.codeFiles
  rw [h.cells, List.filterMap_append, List.filterMap_cons]
  cases c.file? <;> rfl

theorem codeFiles_cells (s : Session) (before after : List Cell) (c : Cell) :
    ({ s with cells := before ++ c :: after } : Session).codeFiles =
      before.filterMap Cell.file? ++ (c.file?.toList ++ after.filterMap Cell.file?) := by
  unfold Session.codeFiles
  rw [List.filterMap_append, List.filterMap_cons]
  cases c.file? <;> rfl

/-- The files stay if the file of the changed cell does. -/
theorem codeFiles_update (s : Session) (id : CellId) (f : Cell → Cell)
    (hf : ∀ c, s.cell? id = some c → (f c).file? = c.file?) :
    (s.update id f).codeFiles = s.codeFiles := by
  cases hfind : s.cell? id with
  | none => rw [update_of_cell?_eq_none hfind]
  | some c =>
      obtain ⟨before, after, hsplit⟩ := split_of_cell? hfind
      rw [hsplit.update_eq, codeFiles_cells, hsplit.codeFiles, hf c hfind]

/-- The files around that of an inserted cell, which has another name and filename. -/
theorem codeFiles_insert {s s' : Session} {index : Nat} {cell : Cell}
    (h : s.insert index cell = .ok s') :
    ∃ before after, s.codeFiles = before ++ after ∧
      s'.codeFiles = before ++ (cell.file?.toList ++ after) ∧
      ∀ file, cell.file? = some file → file.id ∉ s.codeFiles.map CodeFile.id ∧
        file.filename ∉ s.codeFiles.map CodeFile.filename := by
  obtain ⟨hid, hholder, before, after, hcells, rfl⟩ := of_insert_eq_ok h
  refine ⟨before.filterMap Cell.file?, after.filterMap Cell.file?, ?_,
    codeFiles_cells s before after cell, ?_⟩
  · unfold codeFiles
    rw [hcells, List.filterMap_append]
  intro file hfile
  cases cell with
  | code code =>
      obtain rfl := Option.some.inj hfile
      constructor
      · intro hmem
        obtain ⟨other, hother, hsame⟩ := List.mem_map.mp hmem
        obtain ⟨c, hc, hcfile⟩ := List.mem_filterMap.mp hother
        refine cell?_eq_none_iff.mp hid c hc ?_
        rw [← Cell.id_of_file? hcfile]
        exact hsame
      · intro hmem
        rw [codeFiles_eq, List.map_map] at hmem
        obtain ⟨other, hother, hsame⟩ := List.mem_map.mp hmem
        have hno := List.find?_eq_none.mp hholder other hother
        exact hno (beq_iff_eq.mpr hsame)
  | title _ => cases hfile
  | markdown _ => cases hfile
  | manifest _ => cases hfile

/-- The files around that of a removed cell. -/
theorem codeFiles_remove {s s' : Session} {id : CellId} {old : Cell}
    (h : s.remove id = .ok (old, s')) :
    ∃ before after, s.codeFiles = before ++ (old.file?.toList ++ after) ∧
      s'.codeFiles = before ++ after := by
  obtain ⟨before, after, hsplit, rfl⟩ := of_remove_eq_ok h
  refine ⟨_, _, hsplit.codeFiles, ?_⟩
  unfold codeFiles
  rw [List.filterMap_append]

/-- The files around that of a renamed cell.  No other cell has the new filename. -/
theorem codeFiles_replace {s s' : Session} (hs : DistinctFiles s.codeFiles) {code : CodeCell}
    {filename : String} {old : Cell} (hfind : s.cell? code.id = some (.code code))
    (hne : code.filename ≠ filename)
    (h : s.replace (.code { code with filename }) = .ok (old, s')) :
    ∃ before after, s.codeFiles = before ++ code.file :: after ∧
      s'.codeFiles = before ++ { code.file with filename } :: after ∧
      filename ∉ s.codeFiles.map CodeFile.filename := by
  obtain ⟨hholder, before, after, hsplit, rfl⟩ := of_replace_eq_ok h
  obtain rfl : Cell.code code = old := Option.some.inj (hfind.symm.trans hsplit.cell?_eq)
  have hfiles : s.codeFiles = before.filterMap Cell.file? ++
      code.file :: after.filterMap Cell.file? := hsplit.codeFiles
  refine ⟨_, _, hfiles, codeFiles_cells s before after _, ?_⟩
  intro hmem
  have hmem' : filename ∈ s.codeCells.map (·.filename) := by
    rw [codeFiles_eq, List.map_map] at hmem
    exact hmem
  obtain ⟨c, hc, hcname⟩ := List.mem_map.mp hmem'
  obtain ⟨other, hother⟩ := Option.isSome_iff_exists.mp
    (List.find?_isSome.mpr ⟨c, hc, beq_iff_eq.mpr hcname⟩ :
      (s.codeNamed? filename).isSome = true)
  -- the holder of the new filename would be the cell itself
  have hid : other.id = code.id := hholder other hother
  have hmine : code.file ∈ s.codeFiles := hfiles ▸ List.mem_append_right _ List.mem_cons_self
  have htheirs : other.file ∈ s.codeFiles := by
    rw [codeFiles_eq]
    exact List.mem_map_of_mem (List.mem_of_find?_eq_some hother)
  have hsame := List.inj_on_of_nodup_map hs.names htheirs hmine hid
  have hothername : other.filename = filename := by
    simpa using List.find?_some hother
  exact hne ((congrArg CodeFile.filename hsame).symm.trans hothername)

/-- The files around that of a code cell with a new source. -/
theorem codeFiles_withSource {s : Session} {code : CodeCell} (source : String)
    (hfind : s.cell? code.id = some (.code code)) :
    ∃ before after, s.codeFiles = before ++ code.file :: after ∧
      (s.update code.id (·.withSource source)).codeFiles =
        before ++ { code.file with source } :: after := by
  obtain ⟨before, after, hsplit⟩ := split_of_cell? hfind
  refine ⟨_, _, hsplit.codeFiles, ?_⟩
  rw [hsplit.update_eq]
  exact codeFiles_cells s before after _

/-! ## Sources -/

/-- The sources by filename, before they are put in order. -/
def sourceTable (s : Session) : Table String String :=
  (s.codeFiles.map fun file => (file.filename, file.source)).foldl
    (fun t e => t.set e.1 e.2) .empty

theorem sources_perm (s : Session) : s.sources.Perm s.sourceTable.entries := by
  unfold sources sourceTable
  rw [codeFiles_eq, List.map_map, List.foldl_map]
  exact List.mergeSort_perm _ _

/-- No filename is listed twice, whatever the filenames of the code cells are. -/
theorem nodup_sources (s : Session) : (s.sources.map (·.1)).Nodup := by
  have hkeys : ∀ (entries : List (String × String)) (t : Table String String),
      t.keys.Nodup → (entries.foldl (fun t e => t.set e.1 e.2) t).keys.Nodup := by
    intro entries
    induction entries with
    | nil => exact fun t ht => ht
    | cons e rest ih => exact fun t ht => ih _ (t.nodup_keys_set ht e.1 e.2)
  rw [((sources_perm s).map Prod.fst).nodup_iff]
  exact hkeys _ _ List.nodup_nil

/-- With distinct filenames, the sources are those of the code cells. -/
theorem mem_sources_iff (s : Session) (hs : DistinctFiles s.codeFiles) (f c : String) :
    (f, c) ∈ s.sources ↔ ∃ id, ⟨id, f, c⟩ ∈ s.codeFiles := by
  let pairs := s.codeFiles.map fun file => (file.filename, file.source)
  have hkeys : (pairs.map (·.1)).Nodup := by
    rw [List.map_map]
    exact hs.filenames
  have htable : s.sourceTable.keys.Nodup :=
    ((sources_perm s).map Prod.fst).nodup_iff.mp (nodup_sources s)
  rw [(sources_perm s).mem_iff, Table.mem_entries_iff _ htable]
  refine (Table.find?_foldl_set pairs hkeys .empty f c).trans ?_
  rw [Table.find?_empty, or_iff_left (fun h => by cases h.2), List.mem_map]
  constructor
  · rintro ⟨⟨id, _, _⟩, hmem, heq⟩
    obtain ⟨rfl, rfl⟩ := Prod.mk.inj heq
    exact ⟨id, hmem⟩
  · rintro ⟨id, hmem⟩
    exact ⟨_, hmem, rfl⟩

end Session
end Notebook
