import Notebook.Filename
import Notebook.Proofs.Session.Keys
import Notebook.Proofs.Text.Trimming

/-!
# Well-formed sessions

In a well-formed session names and filenames are distinct, there is one manifest at most, and
every code cell is in the language of the session and has a filename that is trimmed and in
order.

All of this is about a cell and the others, so there is one lemma for every edit:
`wellFormed_middle` says that a session is well-formed if and only if it is so without one of
its cells and `Admits` this cell.

* `WellFormed.insert`, `WellFormed.remove`, `WellFormed.rename`, `WellFormed.update`: the edits.
* `Filename.check_trim`: a filename that is in order is so without its blanks.
-/

set_option autoImplicit false

namespace Notebook

namespace Filename

/-- Exactly the names are in order that without blanks are one path component with the
extension of the language. -/
theorem check_eq_ok_iff (filename : String) (language : Language) :
    check filename language = .ok () ↔ (Text.trim filename).isEmpty = false ∧
      leavesDirectory (Text.trim filename).toList = false ∧
      Language.ofFilename? (Text.trim filename) = some language := by
  unfold check
  simp only
  split
  · next hempty => simp [hempty]
  · next hempty =>
      split
      · next hleaves => simp [hleaves]
      · next hleaves =>
          split
          · next hlanguage => simp [hlanguage]
          · next hlanguage => simp [hempty, hleaves, not_not.mp hlanguage]

@[simp]
theorem trim_trim (filename : String) :
    Text.trim (Text.trim filename) = Text.trim filename := by
  simp [Text.trim]

/-- A filename that is in order is so without its blanks. -/
theorem check_trim (filename : String) (language : Language) :
    check (Text.trim filename) language = .ok () ↔ check filename language = .ok () := by
  rw [check_eq_ok_iff, check_eq_ok_iff, trim_trim]

end Filename

/-- A code cell as it is kept in a session of a language. -/
structure CodeCell.Fits (l : Language) (c : CodeCell) : Prop where
  language : c.language = l
  trimmed : Text.trim c.filename = c.filename
  checked : Filename.check c.filename l = .ok ()

instance (l : Language) (c : CodeCell) : Decidable (c.Fits l) :=
  decidable_of_iff (c.language = l ∧ Text.trim c.filename = c.filename ∧
      Filename.check c.filename l = .ok ())
    ⟨fun ⟨h, h', h''⟩ => ⟨h, h', h''⟩, fun h => ⟨h.language, h.trimmed, h.checked⟩⟩

namespace Session

/-- A session that is in order. -/
structure WellFormed (s : Session) : Prop where
  names : s.Distinct
  filenames : s.filenames.Nodup
  manifests : (s.cells.filter Cell.isManifest).length ≤ 1
  fits : ∀ c ∈ s.codeCells, c.Fits s.language

instance (s : Session) : Decidable s.WellFormed :=
  decidable_of_iff (s.Distinct ∧ s.filenames.Nodup ∧
      (s.cells.filter Cell.isManifest).length ≤ 1 ∧ ∀ c ∈ s.codeCells, c.Fits s.language)
    ⟨fun ⟨h, h', h'', h'''⟩ => ⟨h, h', h'', h'''⟩,
      fun h => ⟨h.names, h.filenames, h.manifests, h.fits⟩⟩

/-- A cell may stand among the cells of a session. -/
structure Admits (s : Session) (c : Cell) : Prop where
  name : c.id ∉ s.cells.map Cell.id
  filename : ∀ code, c.code? = some code → code.filename ∉ s.filenames
  manifest : c.isManifest = true → ∀ x ∈ s.cells, x.isManifest = false
  fits : ∀ code, c.code? = some code → code.Fits s.language

/-! ## One cell and the others -/

theorem WellFormed.keyed {s : Session} (h : s.WellFormed) : s.Keyed :=
  ⟨h.names, h.filenames⟩

theorem WellFormed.perm {s : Session} (h : s.WellFormed) {cells : List Cell}
    (hperm : s.cells.Perm cells) : ({ s with cells } : Session).WellFormed where
  names := (h.keyed.perm hperm).names
  filenames := (h.keyed.perm hperm).filenames
  manifests := (hperm.filter Cell.isManifest).length_eq ▸ h.manifests
  fits := fun c hc => h.fits c ((hperm.filterMap Cell.code?).mem_iff.mpr hc)

theorem mem_codeCells_cons (s : Session) (c : Cell) (cells : List Cell) (code : CodeCell) :
    code ∈ ({ s with cells := c :: cells } : Session).codeCells ↔
      c.code? = some code ∨ code ∈ ({ s with cells } : Session).codeCells := by
  unfold codeCells
  rw [List.filterMap_cons]
  cases c.code? with
  | none => simp
  | some other => simp [eq_comm]

theorem wellFormed_cons (s : Session) (c : Cell) (cells : List Cell) :
    ({ s with cells := c :: cells } : Session).WellFormed ↔
      ({ s with cells } : Session).WellFormed ∧ ({ s with cells } : Session).Admits c := by
  constructor
  · intro h
    obtain ⟨hkeyed, hfree⟩ := (keyed_cons s c cells).mp h.keyed
    have hmanifests := h.manifests
    have hfits := h.fits
    simp only [mem_codeCells_cons] at hfits
    rw [List.filter_cons] at hmanifests
    refine ⟨⟨hkeyed.names, hkeyed.filenames, ?_, fun code hcode => hfits code (Or.inr hcode)⟩,
      hfree.name, hfree.filename, fun hc x hx => ?_, fun code hcode => hfits code (Or.inl hcode)⟩
    · split at hmanifests
      · exact Nat.le_of_succ_le hmanifests
      · exact hmanifests
    · rw [if_pos hc, List.length_cons] at hmanifests
      have hnone := List.length_eq_zero_iff.mp (Nat.le_zero.mp (Nat.le_of_succ_le_succ hmanifests))
      simpa using List.filter_eq_nil_iff.mp hnone x hx
  · rintro ⟨h, hadmits⟩
    obtain ⟨hnames, hfilenames⟩ :=
      (keyed_cons s c cells).mpr ⟨h.keyed, hadmits.name, hadmits.filename⟩
    refine ⟨hnames, hfilenames, ?_, fun code hcode => ?_⟩
    · rw [List.filter_cons]
      split
      · next hc =>
          rw [List.filter_eq_nil_iff.mpr fun x hx => by simp [hadmits.manifest hc x hx]]
          exact Nat.le_refl 1
      · exact h.manifests
    · rcases (mem_codeCells_cons s c cells code).mp hcode with hcode | hcode
      · exact hadmits.fits code hcode
      · exact h.fits code hcode

/-- A session is well-formed if and only if it is so without one of its cells, and this cell
may stand among the others. -/
theorem wellFormed_middle (s : Session) (before after : List Cell) (c : Cell) :
    ({ s with cells := before ++ c :: after } : Session).WellFormed ↔
      ({ s with cells := before ++ after } : Session).WellFormed ∧
        ({ s with cells := before ++ after } : Session).Admits c := by
  rw [← wellFormed_cons]
  exact ⟨fun h => h.perm List.perm_middle, fun h => h.perm List.perm_middle.symm⟩

/-! ## Edits -/

variable {s s' : Session}

/-- The cells around one that is found. -/
theorem WellFormed.split (h : s.WellFormed) {id : CellId} {c : Cell}
    {before after : List Cell} (hsplit : Split s id c before after) :
    ({ s with cells := before ++ after } : Session).WellFormed ∧
      ({ s with cells := before ++ after } : Session).Admits c := by
  rw [← wellFormed_middle, ← hsplit.cells]
  exact h

theorem WellFormed.insert (h : s.WellFormed) {index : Nat} {cell : Cell}
    (hinsert : s.insert index cell = .ok s')
    (hmanifest : cell.isManifest = true → s.cells.any Cell.isManifest = false)
    (hfits : ∀ code, cell.code? = some code → code.Fits s.language) : s'.WellFormed := by
  have hkeyed := h.keyed.insert hinsert
  obtain ⟨-, -, before, after, hcells, rfl⟩ := of_insert_eq_ok hinsert
  have hrest : ({ s with cells := before ++ after } : Session) = s := by
    rw [← hcells]
  rw [keyed_middle, hrest] at hkeyed
  rw [wellFormed_middle, hrest]
  refine ⟨h, hkeyed.2.name, hkeyed.2.filename, fun hc x hx => ?_, hfits⟩
  simpa using List.any_eq_false.mp (hmanifest hc) x hx

theorem WellFormed.remove (h : s.WellFormed) {id : CellId} {old : Cell}
    (hremove : s.remove id = .ok (old, s')) : s'.WellFormed := by
  obtain ⟨before, after, hsplit, rfl⟩ := of_remove_eq_ok hremove
  exact (h.split hsplit).1

/-- A code cell is given another filename. -/
theorem WellFormed.rename (h : s.WellFormed) {code : CodeCell} {filename : String} {old : Cell}
    (hfind : s.cell? code.id = some (.code code)) (htrimmed : Text.trim filename = filename)
    (hchecked : Filename.check filename s.language = .ok ())
    (hreplace : s.replace (.code { code with filename }) = .ok (old, s')) : s'.WellFormed := by
  have hkeyed := h.keyed.replace hreplace
  obtain ⟨-, before, after, hsplit, rfl⟩ := of_replace_eq_ok hreplace
  obtain rfl : Cell.code code = old := Option.some.inj (hfind.symm.trans hsplit.cell?_eq)
  obtain ⟨hrest, hadmits⟩ := h.split hsplit
  rw [keyed_middle] at hkeyed
  rw [wellFormed_middle]
  refine ⟨hrest, hkeyed.2.name, hkeyed.2.filename, nofun, fun code' hcode' => ?_⟩
  obtain rfl := Option.some.inj hcode'
  exact ⟨(hadmits.fits code rfl).language, htrimmed, hchecked⟩

/-- A cell is changed in what is not looked at. -/
theorem WellFormed.update (h : s.WellFormed) (id : CellId) {f : Cell → Cell}
    (hid : ∀ c, (f c).id = c.id) (hmanifest : ∀ c, (f c).isManifest = c.isManifest)
    (hcode : ∀ c code, (f c).code? = some code → ∃ code₀, c.code? = some code₀ ∧
      code.filename = code₀.filename ∧ code.language = code₀.language) :
    (s.update id f).WellFormed := by
  cases hfind : s.cell? id with
  | none => rwa [update_of_cell?_eq_none hfind]
  | some c =>
      obtain ⟨before, after, hsplit⟩ := split_of_cell? hfind
      obtain ⟨hrest, hadmits⟩ := h.split hsplit
      rw [hsplit.update_eq, wellFormed_middle]
      refine ⟨hrest, hid c ▸ hadmits.name, fun code hc => ?_, hmanifest c ▸ hadmits.manifest,
        fun code hc => ?_⟩
      · obtain ⟨code₀, hc₀, hfilename, _⟩ := hcode c code hc
        exact hfilename ▸ hadmits.filename code₀ hc₀
      · obtain ⟨code₀, hc₀, hfilename, hlanguage⟩ := hcode c code hc
        obtain ⟨hfits, htrimmed, hchecked⟩ := hadmits.fits code₀ hc₀
        exact ⟨hlanguage.trans hfits, hfilename ▸ htrimmed, hfilename ▸ hchecked⟩

theorem WellFormed.withSource (h : s.WellFormed) (id : CellId) (source : String) :
    (s.update id (·.withSource source)).WellFormed := by
  refine h.update id (Cell.id_withSource source) (fun c => by cases c <;> rfl) ?_
  intro c code hcode
  cases c with
  | code c =>
      obtain rfl := Option.some.inj hcode
      exact ⟨c, rfl, rfl, rfl⟩
  | _ => cases hcode

theorem WellFormed.withStatus (h : s.WellFormed) (id : CellId) (status : CellStatus) :
    (s.update id (·.withStatus status)).WellFormed := by
  refine h.update id (Cell.id_withStatus status) (fun c => by cases c <;> rfl) ?_
  intro c code hcode
  cases c with
  | code c =>
      obtain rfl := Option.some.inj hcode
      exact ⟨c, rfl, rfl, rfl⟩
  | _ => cases hcode

end Session
end Notebook
