import Notebook.Proofs.Session.Edits

/-!
# Keys of a session

The keys of a session are the names of its cells and the filenames of its code cells.  They are
unique in a session that is `Keyed`.  An insertion, a replacement or a removal is an
`Edit`; it works on the cell with one name, and is `Refused` if this name is missing or taken, or
if another code cell has the filename.

A filename is looked up among all code cells, the edited one included.  That only one cell can
have it makes the look-up decide about the others.

* `keyed_middle`: keys are unique if and only if they are so without one of the cells, and the
  keys of this cell are free.
* `Edit.of_run_eq_error`, `Edit.not_refused_of_run_eq_ok`: an edit fails for a cause, and only then
  there is one.
* `Keyed.edited`, `Keyed.foldl_edited`: keys stay unique, by one edit and by a history.
* `edit_touches_one_cell`: what an edit does.
-/

set_option autoImplicit false

namespace Notebook

theorem Cell.eq_of_code? {c : Cell} {code : CodeCell} (h : c.code? = some code) :
    c = .code code := by
  cases c with
  | code c => exact congrArg Cell.code (Option.some.inj h)
  | _ => cases h

namespace Session

/-- No two cells have one name, and no two code cells have one filename. -/
structure Keyed (s : Session) : Prop where
  names : s.Distinct
  filenames : s.filenames.Nodup

instance (s : Session) : Decidable s.Keyed :=
  decidable_of_iff (s.Distinct ∧ s.filenames.Nodup)
    ⟨fun ⟨h, h'⟩ => ⟨h, h'⟩, fun h => ⟨h.names, h.filenames⟩⟩

/-- No cell has the keys of this one. -/
structure Free (s : Session) (c : Cell) : Prop where
  name : c.id ∉ s.cells.map Cell.id
  filename : ∀ code, c.code? = some code → code.filename ∉ s.filenames

/-! ## One cell and the others -/

theorem filenames_cons (s : Session) (c : Cell) (cells : List Cell) :
    ({ s with cells := c :: cells } : Session).filenames =
      (c.code?.map CodeCell.filename).toList ++ ({ s with cells } : Session).filenames := by
  unfold filenames codeCells
  rw [List.filterMap_cons]
  cases c.code? <;> rfl

theorem keyed_cons (s : Session) (c : Cell) (cells : List Cell) :
    ({ s with cells := c :: cells } : Session).Keyed ↔
      ({ s with cells } : Session).Keyed ∧ ({ s with cells } : Session).Free c := by
  constructor
  · rintro ⟨hnames, hfilenames⟩
    obtain ⟨hname, hnames⟩ := List.nodup_cons.mp hnames
    rw [filenames_cons, List.nodup_append] at hfilenames
    obtain ⟨_, hfilenames, hapart⟩ := hfilenames
    refine ⟨⟨hnames, hfilenames⟩, hname, fun code hcode hmem => ?_⟩
    exact hapart code.filename (by simp [hcode]) code.filename hmem rfl
  · rintro ⟨h, hfree⟩
    refine ⟨List.nodup_cons.mpr ⟨hfree.name, h.names⟩, ?_⟩
    rw [filenames_cons]
    cases hcode : c.code? with
    | none => exact h.filenames
    | some code => exact List.nodup_cons.mpr ⟨hfree.filename code hcode, h.filenames⟩

theorem Keyed.perm {s : Session} (h : s.Keyed) {cells : List Cell} (hperm : s.cells.Perm cells) :
    ({ s with cells } : Session).Keyed where
  names := (hperm.map Cell.id).nodup_iff.mp h.names
  filenames := ((hperm.filterMap Cell.code?).map CodeCell.filename).nodup_iff.mp h.filenames

/-- Keys are unique if and only if they are so without one of the cells, and no other cell has the
keys of this one. -/
theorem keyed_middle (s : Session) (before after : List Cell) (c : Cell) :
    ({ s with cells := before ++ c :: after } : Session).Keyed ↔
      ({ s with cells := before ++ after } : Session).Keyed ∧
        ({ s with cells := before ++ after } : Session).Free c := by
  rw [← keyed_cons]
  exact ⟨fun h => h.perm List.perm_middle, fun h => h.perm List.perm_middle.symm⟩

variable {s s' : Session} {id : CellId} {c cell : Cell} {before after : List Cell}

/-- The cells around one that is found. -/
theorem Keyed.split (h : s.Keyed) (hsplit : Split s id c before after) :
    ({ s with cells := before ++ after } : Session).Keyed ∧
      ({ s with cells := before ++ after } : Session).Free c := by
  rw [← keyed_middle, ← hsplit.cells]
  exact h

theorem Split.remove_eq (h : Split s id c before after) :
    s.remove id = .ok (c, { s with cells := before ++ after }) := by
  unfold remove
  rw [h.cell?_eq, h.eraseP_eq]

/-! ## Filenames -/

theorem mem_codeCells_iff {code : CodeCell} : code ∈ s.codeCells ↔ .code code ∈ s.cells := by
  unfold codeCells
  rw [List.mem_filterMap]
  constructor
  · rintro ⟨c, hc, hcode⟩
    exact Cell.eq_of_code? hcode ▸ hc
  · exact fun hc => ⟨_, hc, rfl⟩

/-- A holder is a code cell with the filename. -/
theorem of_holder?_eq_some {other : CodeCell} (h : s.holder? cell = some other) :
    ∃ code, cell = .code code ∧ other ∈ s.codeCells ∧ other.filename = code.filename := by
  obtain ⟨code, hcode, hfind⟩ := Option.bind_eq_some_iff.mp h
  exact ⟨code, Cell.eq_of_code? hcode, List.mem_of_find?_eq_some hfind, by
    simpa using List.find?_some hfind⟩

/-- Exactly the filenames of no code cell have no holder. -/
theorem holder?_code_eq_none_iff {code : CodeCell} :
    s.holder? (.code code) = none ↔ code.filename ∉ s.filenames := by
  change s.codeNamed? code.filename = none ↔ _
  unfold codeNamed? filenames
  simp

/-- With unique keys, whoever has the filename is the one that is found. -/
theorem Keyed.holder?_eq_some (h : s.Keyed) {code other : CodeCell} (hother : other ∈ s.codeCells)
    (hsame : other.filename = code.filename) : s.holder? (.code code) = some other := by
  cases hholder : s.holder? (.code code) with
  | none =>
      refine absurd ?_ (holder?_code_eq_none_iff.mp hholder)
      exact hsame ▸ List.mem_map_of_mem hother
  | some found =>
      obtain ⟨code', hcode', hfound, hfilename⟩ := of_holder?_eq_some hholder
      obtain rfl := Cell.code.inj hcode'
      exact congrArg some
        (List.inj_on_of_nodup_map h.filenames hfound hother (hfilename.trans hsame.symm))

/-! ## Edits -/

theorem of_map_eq_ok {ε α β : Type} {x : Except ε α} {f : α → β} {b : β} (h : x.map f = .ok b) :
    ∃ a, x = .ok a ∧ f a = b := by
  cases x with
  | error e => cases h
  | ok a => exact ⟨a, rfl, Except.ok.inj h⟩

theorem of_map_eq_error {ε α β : Type} {x : Except ε α} {f : α → β} {e : ε}
    (h : x.map f = .error e) : x = .error e := by
  cases x with
  | error _ => exact congrArg Except.error (Except.error.inj h)
  | ok a => cases h

/-- A change of one cell. -/
inductive Edit where
  | insert (index : Nat) (cell : Cell)
  | replace (cell : Cell)
  | remove (id : CellId)
  deriving DecidableEq, Repr

namespace Edit

/-- Makes the edit.  A cell that goes is returned with the session. -/
def run (s : Session) : Edit → Except Problem (Option Cell × Session)
  | .insert index cell => (s.insert index cell).map fun s' => (none, s')
  | .replace cell => (s.replace cell).map fun (old, s') => (some old, s')
  | .remove id => (s.remove id).map fun (old, s') => (some old, s')

/-- The name of the cell that is edited. -/
def target : Edit → CellId
  | .insert _ cell => cell.id
  | .replace cell => cell.id
  | .remove id => id

/-- The cell that comes in. -/
def cell? : Edit → Option Cell
  | .insert _ cell => some cell
  | .replace cell => some cell
  | .remove _ => none

/-- Whether the edit needs a place of its own. -/
def isInsertion : Edit → Bool
  | .insert .. => true
  | _ => false

/-- A cause for which an edit is refused. -/
inductive Refused (s : Session) (e : Edit) : Problem → Prop where
  /-- Nothing has the name. -/
  | missing (hkind : e.isInsertion = false) (hnone : ∀ c ∈ s.cells, c.id ≠ e.target) :
      Refused s e (.cellNotFound e.target)
  /-- Something has the name already. -/
  | taken (hkind : e.isInsertion = true) {c : Cell} (hc : c ∈ s.cells) (hid : c.id = e.target) :
      Refused s e (.duplicateId e.target)
  /-- Another code cell has the filename. -/
  | held {code other : CodeCell} (hcode : e.cell? = some (.code code))
      (hother : .code other ∈ s.cells) (hid : other.id ≠ code.id)
      (hfilename : other.filename = code.filename) :
      Refused s e (.duplicateFilename code.filename)

/-- An edit that would bring in a filename which another code cell holds has a cause to fail. -/
theorem refused_of_holder {e : Edit} {other : CodeCell} (hcell : e.cell? = some cell)
    (hholder : s.holder? cell = some other) (hid : other.id ≠ cell.id) :
    e.Refused s (.duplicateFilename other.filename) := by
  obtain ⟨code, rfl, hother, hfilename⟩ := of_holder?_eq_some hholder
  rw [hfilename]
  exact .held hcell (mem_codeCells_iff.mp hother) hid hfilename

theorem of_insert_eq_error {index : Nat} {problem : Problem}
    (h : s.insert index cell = .error problem) : (insert index cell).Refused s problem := by
  unfold Session.insert at h
  split at h
  · next c hfind =>
      obtain rfl := Except.error.inj h
      obtain ⟨before, after, hsplit⟩ := split_of_cell? hfind
      have hc : c ∈ s.cells := hsplit.cells ▸ List.mem_append_right _ List.mem_cons_self
      exact .taken rfl hc hsplit.named
  · next hnone =>
      split at h
      · next other hholder =>
          obtain rfl := Except.error.inj h
          obtain ⟨_, rfl, hother, _⟩ := of_holder?_eq_some hholder
          have hid := cell?_eq_none_iff.mp hnone _ (mem_codeCells_iff.mp hother)
          exact refused_of_holder rfl hholder hid
      · cases h

theorem of_replace_eq_error {problem : Problem} (h : s.replace cell = .error problem) :
    (replace cell).Refused s problem := by
  have hmissing : s.cell? cell.id = none → (replace cell).Refused s (.cellNotFound cell.id) :=
    fun hnone => .missing rfl (cell?_eq_none_iff.mp hnone)
  unfold Session.replace at h
  split at h
  · next other hholder =>
      split at h
      · next hid =>
          obtain rfl := Except.error.inj h
          exact refused_of_holder rfl hholder hid
      · split at h
        · cases h
        · next hnone => exact Except.error.inj h ▸ hmissing hnone
  · split at h
    · cases h
    · next hnone => exact Except.error.inj h ▸ hmissing hnone

theorem of_remove_eq_error {problem : Problem} (h : s.remove id = .error problem) :
    (remove id).Refused s problem := by
  unfold Session.remove at h
  split at h
  · cases h
  · next hnone =>
      obtain rfl := Except.error.inj h
      exact .missing rfl (cell?_eq_none_iff.mp hnone)

/-- An edit that fails has a cause. -/
theorem of_run_eq_error {e : Edit} {problem : Problem} (h : e.run s = .error problem) :
    e.Refused s problem := by
  cases e with
  | insert index cell => exact of_insert_eq_error (of_map_eq_error h)
  | replace cell => exact of_replace_eq_error (of_map_eq_error h)
  | remove id => exact of_remove_eq_error (of_map_eq_error h)

/-- An edit that comes off has no cause to fail. -/
theorem not_refused_of_run_eq_ok {e : Edit} {result : Option Cell × Session} (hs : s.Keyed)
    (h : e.run s = .ok result) (problem : Problem) : ¬ e.Refused s problem := by
  have hthere : ∀ {old before after}, Split s e.target old before after →
      ¬ ∀ c ∈ s.cells, c.id ≠ e.target := fun hsplit hnone =>
    hnone _ (hsplit.cells ▸ List.mem_append_right _ List.mem_cons_self) hsplit.named
  intro hrefused
  cases e with
  | insert index cell =>
      obtain ⟨s', hinsert, -⟩ := of_map_eq_ok h
      obtain ⟨hnone, hholder, -⟩ := insert_eq_ok_iff.mp hinsert
      cases hrefused with
      | missing hkind _ => cases hkind
      | taken _ hc hid => exact cell?_eq_none_iff.mp hnone _ hc hid
      | held hcode hother _ hfilename =>
          obtain rfl := Option.some.inj hcode
          rw [hs.holder?_eq_some (mem_codeCells_iff.mpr hother) hfilename] at hholder
          cases hholder
  | replace cell =>
      obtain ⟨⟨old, s'⟩, hreplace, -⟩ := of_map_eq_ok h
      obtain ⟨hholder, before, after, hsplit, -⟩ := of_replace_eq_ok hreplace
      cases hrefused with
      | missing _ hnone => exact hthere hsplit hnone
      | taken hkind => cases hkind
      | held hcode hother hid hfilename =>
          obtain rfl := Option.some.inj hcode
          exact hid (hholder _ (hs.holder?_eq_some (mem_codeCells_iff.mpr hother) hfilename))
  | remove id =>
      obtain ⟨⟨old, s'⟩, hremove, -⟩ := of_map_eq_ok h
      obtain ⟨before, after, hsplit, -⟩ := of_remove_eq_ok hremove
      cases hrefused with
      | missing _ hnone => exact hthere hsplit hnone
      | taken hkind => cases hkind
      | held hcode => cases hcode

/-- What an edit does that comes off: at one place, between two parts of the session that stay, a
cell with the name goes and another comes in. -/
structure Done (s : Session) (e : Edit) (old : Option Cell) (s' : Session)
    (before after : List Cell) : Prop where
  cells : s.cells = before ++ old.toList ++ after
  result : s' = { s with cells := before ++ e.cell?.toList ++ after }
  gone : ∀ c ∈ old, c.id = e.target
  others : ∀ c ∈ before ++ after, c.id ≠ e.target
  kind : old.isNone = e.isInsertion
  place : ∀ index cell, e = .insert index cell → before.length = min index s.cells.length

theorem Done.of_split {old : Cell} {e : Edit} (hs : s.Keyed)
    (hsplit : Split s e.target old before after) (hkind : e.isInsertion = false)
    (hresult : s' = { s with cells := before ++ e.cell?.toList ++ after }) :
    e.Done s (some old) s' before after where
  cells := hsplit.cells.trans (List.append_cons before old after)
  result := hresult
  gone := fun _ hc => Option.some.inj hc ▸ hsplit.named
  others := fun c hc hid => by
    have hfree := (hs.split hsplit).2.name
    rw [hsplit.named, ← hid] at hfree
    exact hfree (List.mem_map_of_mem hc)
  kind := hkind.symm
  place := by
    rintro index cell rfl
    cases hkind

theorem of_run_eq_ok {e : Edit} {old : Option Cell} (hs : s.Keyed) (h : e.run s = .ok (old, s')) :
    ∃ before after, e.Done s old s' before after := by
  cases e with
  | insert index cell =>
      obtain ⟨_, hinsert, heq⟩ := of_map_eq_ok h
      obtain ⟨rfl, rfl⟩ := Prod.mk.inj heq
      obtain ⟨hnone, -, hresult⟩ := insert_eq_ok_iff.mp hinsert
      let place := min index s.cells.length
      refine ⟨s.cells.take place, s.cells.drop place, ?_, ?_, nofun, ?_, rfl, ?_⟩
      · simp
      · simpa [cell?] using hresult
      · rw [List.take_append_drop]
        exact cell?_eq_none_iff.mp hnone
      · rintro _ _ ⟨⟩
        simp [place]
  | replace cell =>
      obtain ⟨_, hreplace, heq⟩ := of_map_eq_ok h
      obtain ⟨rfl, rfl⟩ := Prod.mk.inj heq
      obtain ⟨-, before, after, hsplit, hresult⟩ := of_replace_eq_ok hreplace
      exact ⟨before, after, .of_split hs hsplit rfl (hresult.trans (by simp [cell?]))⟩
  | remove id =>
      obtain ⟨_, hremove, heq⟩ := of_map_eq_ok h
      obtain ⟨rfl, rfl⟩ := Prod.mk.inj heq
      obtain ⟨before, after, hsplit, hresult⟩ := of_remove_eq_ok hremove
      exact ⟨before, after, .of_split hs hsplit rfl (hresult.trans (by simp [cell?]))⟩

/-- The keys stay unique: nobody else has those of the cell that comes in, or the edit would have
been refused. -/
theorem Done.keyed {e : Edit} {old : Option Cell} (hs : s.Keyed)
    (hrefused : ∀ problem, ¬ e.Refused s problem) (h : e.Done s old s' before after) :
    s'.Keyed := by
  have hrest : ({ s with cells := before ++ after } : Session).Keyed := by
    obtain ⟨hcells, -, -, -, -, -⟩ := h
    cases old with
    | none =>
        rw [Option.toList_none, List.append_nil] at hcells
        exact hcells ▸ hs
    | some c =>
        rw [Option.toList_some, ← List.append_cons] at hcells
        exact ((keyed_middle s before after c).mp (hcells ▸ hs)).1
  rw [h.result]
  cases hcell : e.cell? with
  | none => simpa using hrest
  | some cell =>
      have hname : cell.id = e.target := by
        cases e with
        | remove id => cases hcell
        | _ => exact congrArg Cell.id (Option.some.inj hcell).symm
      rw [Option.toList_some, ← List.append_cons, keyed_middle]
      refine ⟨hrest, fun hmem => ?_, fun code hcode hmem =>
        hrefused (.duplicateFilename code.filename) ?_⟩
      · obtain ⟨c, hc, hid⟩ := List.mem_map.mp hmem
        exact h.others c hc (hid.trans hname)
      · obtain rfl := Cell.eq_of_code? hcode
        obtain ⟨other, hother, hfilename⟩ := List.mem_map.mp hmem
        rw [mem_codeCells_iff] at hother
        refine .held hcell ?_ (fun hid => h.others _ hother (hid.trans hname)) hfilename
        rw [h.cells]
        rcases List.mem_append.mp hother with hbefore | hafter
        · exact List.mem_append_left _ (List.mem_append_left _ hbefore)
        · exact List.mem_append_right _ hafter

/-- Removing a new cell gives the session back. -/
theorem Done.remove_inserted {index : Nat} {e : Edit} {old : Option Cell}
    (h : e.Done s old s' before after) (he : e = .insert index cell) :
    (remove cell.id).run s' = .ok (some cell, s) := by
  subst he
  obtain ⟨hcells, rfl, -, hothers, hkind, -⟩ := h
  obtain rfl := Option.isNone_iff_eq_none.mp hkind
  have hsplit : Split { s with cells := before ++ cell :: after } cell.id cell before after :=
    ⟨rfl, rfl, fun c hc => hothers c (List.mem_append_left _ hc)⟩
  have hback : ({ s with cells := before ++ after } : Session) = s := by
    rw [Option.toList_none, List.append_nil] at hcells
    rw [← hcells]
  simp only [run, cell?, Option.toList_some, ← List.append_cons]
  rw [hsplit.remove_eq]
  exact congrArg (fun s => Except.ok (some cell, s)) hback

end Edit

/-! ## Histories -/

/-- The session after an edit; one that is refused leaves it as it was. -/
def edited (s : Session) (e : Edit) : Session :=
  match e.run s with
  | .ok (_, s') => s'
  | .error _ => s

theorem Keyed.of_run {e : Edit} {old : Option Cell} (hs : s.Keyed) (h : e.run s = .ok (old, s')) :
    s'.Keyed := by
  obtain ⟨before, after, hdone⟩ := Edit.of_run_eq_ok hs h
  exact hdone.keyed hs (Edit.not_refused_of_run_eq_ok hs h)

theorem Keyed.insert {index : Nat} (hs : s.Keyed) (h : s.insert index cell = .ok s') : s'.Keyed :=
  hs.of_run (e := .insert index cell) (by rw [Edit.run, h]; rfl)

theorem Keyed.replace {old : Cell} (hs : s.Keyed) (h : s.replace cell = .ok (old, s')) :
    s'.Keyed :=
  hs.of_run (e := .replace cell) (by rw [Edit.run, h]; rfl)

theorem Keyed.edited (hs : s.Keyed) (e : Edit) : (s.edited e).Keyed := by
  unfold Session.edited
  split
  · next hrun => exact hs.of_run hrun
  · exact hs

/-- Whatever edits are made of a session, one after the other, its keys stay unique. -/
theorem Keyed.foldl_edited (hs : s.Keyed) (edits : List Edit) :
    (edits.foldl Session.edited s).Keyed := by
  induction edits generalizing s with
  | nil => exact hs
  | cons e rest ih => exact ih (hs.edited e)

/-- An edit of a session with unique keys comes off if and only if there is no cause to refuse
it; an error names a cause that there is, and leaves the session as it was.  What comes off works
on the cell with the name alone: between two parts of the session, which stay as they are, this
cell goes or another comes in or both, and the keys stay unique.  A new cell stands at its place,
or at the end if there are fewer cells, and removing it gives the session back. -/
theorem edit_touches_one_cell (s : Session) (hs : s.Keyed) (e : Edit) :
    ((∃ old s', e.run s = .ok (old, s')) ↔ ∀ problem, ¬ e.Refused s problem) ∧
    (∀ problem, e.run s = .error problem → e.Refused s problem ∧ s.edited e = s) ∧
    ∀ old s', e.run s = .ok (old, s') → s.edited e = s' ∧ s'.Keyed ∧
      ∃ before after, s.cells = before ++ old.toList ++ after ∧
        s' = { s with cells := before ++ e.cell?.toList ++ after } ∧
        (∀ c ∈ old, c.id = e.target) ∧ (∀ c ∈ before ++ after, c.id ≠ e.target) ∧
        (old = none ↔ ∃ index cell, e = .insert index cell) ∧
        ∀ index cell, e = .insert index cell → before.length = min index s.cells.length ∧
          (Edit.remove cell.id).run s' = .ok (some cell, s) := by
  refine ⟨⟨?_, fun hno => ?_⟩, fun problem hrun => ⟨Edit.of_run_eq_error hrun, ?_⟩,
    fun old s' hrun => ?_⟩
  · rintro ⟨old, s', hrun⟩
    exact Edit.not_refused_of_run_eq_ok hs hrun
  · cases hrun : e.run s with
    | error problem => exact absurd (Edit.of_run_eq_error hrun) (hno problem)
    | ok result => exact ⟨result.1, result.2, rfl⟩
  · rw [edited, hrun]
  · have hedited : s.edited e = s' := by rw [edited, hrun]
    obtain ⟨before, after, hdone⟩ := Edit.of_run_eq_ok hs hrun
    refine ⟨hedited, hs.of_run hrun, before, after, hdone.cells, hdone.result, hdone.gone,
      hdone.others, ?_, fun index cell he => ⟨hdone.place index cell he, ?_⟩⟩
    · rw [← Option.isNone_iff_eq_none, hdone.kind]
      cases e <;> simp [Edit.isInsertion]
    · exact hdone.remove_inserted he

/-- A code cell becomes prose under its name. -/
theorem edit_touches_one_cell_retyped :
    let a : Cell := .code ⟨⟨"a"⟩, "1", "a.ts", .typescript, .idle⟩
    let b : Cell := .code ⟨⟨"b"⟩, "2", "b.ts", .typescript, .running⟩
    let note : Cell := .markdown ⟨⟨"a"⟩, "About b"⟩
    let s : Session := ⟨⟨"s"⟩, "/work", .typescript, [a, b]⟩
    let s' : Session := ⟨⟨"s"⟩, "/work", .typescript, [note, b]⟩
    (s.Keyed ∧ (Edit.replace note).run s = .ok (some a, s')) ∧ s'.Keyed ∧
      ∃ before after, s.cells = before ++ [a] ++ after ∧
        s' = { s with cells := before ++ [note] ++ after } ∧
        ∀ c ∈ before ++ after, c.id ≠ ⟨"a"⟩ := by
  intro a b note s s'
  have hs : s.Keyed := by decide
  have hrun : (Edit.replace note).run s = .ok (some a, s') := by decide
  obtain ⟨-, hkeyed, before, after, hcells, hresult, -, hothers, -⟩ :=
    (edit_touches_one_cell s hs (.replace note)).2.2 _ _ hrun
  exact ⟨⟨hs, hrun⟩, hkeyed, before, after, hcells, hresult, hothers⟩

end Session
end Notebook
