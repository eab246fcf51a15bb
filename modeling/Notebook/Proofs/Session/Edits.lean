import Notebook.Session
import Mathlib.Data.List.InsertIdx
import Mathlib.Data.List.Nodup
import Mathlib.Data.List.Perm.Basic

/-!
# Edits of sessions

Every edit works on one cell.  `Session.Split s id c before after` says that `c` is the
first cell of `s` with the name `id`, between `before` and `after`; each edit is then an
equation between lists.

* `split_of_cell?`: a cell that is found splits its session.
* `Split.update_eq`, `of_replace_eq_ok`, `of_remove_eq_ok`, `of_insert_eq_ok`: the cells
  after an edit.
* `cell?_update`, `cell?_remove`, `cell?_insert`: the cells by their names after an edit.
-/

set_option autoImplicit false

namespace Notebook
namespace Session

/-- The first cell with a name, between the cells before and after it. -/
structure Split (s : Session) (id : CellId) (c : Cell) (before after : List Cell) : Prop where
  cells : s.cells = before ++ c :: after
  named : c.id = id
  first : ∀ x ∈ before, x.id ≠ id

/-- No two cells have one name. -/
def Distinct (s : Session) : Prop :=
  (s.cells.map Cell.id).Nodup

instance (s : Session) : Decidable s.Distinct :=
  inferInstanceAs (Decidable (s.cells.map Cell.id).Nodup)

/-! ## Finding cells -/

/-- A cell that is found splits its session. -/
theorem split_of_cell? {s : Session} {id : CellId} {c : Cell} (h : s.cell? id = some c) :
    ∃ before after, Split s id c before after := by
  obtain ⟨hid, before, after, hcells, hfirst⟩ := List.find?_eq_some_iff_append.mp h
  refine ⟨before, after, hcells, eq_of_beq hid, fun x hx hxid => ?_⟩
  have hno := hfirst x hx
  simp [hxid] at hno

/-- What is found by a name has this name. -/
theorem id_of_cell? {s : Session} {id : CellId} {c : Cell} (h : s.cell? id = some c) :
    c.id = id := by
  obtain ⟨before, after, hsplit⟩ := split_of_cell? h
  exact hsplit.named

/-- Exactly the names of no cell find nothing. -/
theorem cell?_eq_none_iff {s : Session} {id : CellId} :
    s.cell? id = none ↔ ∀ c ∈ s.cells, c.id ≠ id := by
  simp [cell?]

/-- With distinct names, every cell is found by its name. -/
theorem Distinct.cell?_eq_some_iff {s : Session} (hs : s.Distinct) {id : CellId} {c : Cell} :
    s.cell? id = some c ↔ c ∈ s.cells ∧ c.id = id := by
  constructor
  · intro h
    obtain ⟨before, after, hsplit⟩ := split_of_cell? h
    rw [hsplit.cells]
    exact ⟨List.mem_append_right before List.mem_cons_self, hsplit.named⟩
  · rintro ⟨hmem, hid⟩
    cases hfind : s.cell? id with
    | none => exact absurd hid (cell?_eq_none_iff.mp hfind c hmem)
    | some c' =>
        obtain ⟨before, after, hsplit⟩ := split_of_cell? hfind
        have hmem' : c' ∈ s.cells :=
          hsplit.cells ▸ List.mem_append_right before List.mem_cons_self
        rw [List.inj_on_of_nodup_map hs hmem' hmem (hsplit.named.trans hid.symm)]

/-! ## The cells after an edit -/

theorem updateCells_append (id : CellId) (f : Cell → Cell) (before : List Cell) (c : Cell)
    (after : List Cell) (hfirst : ∀ x ∈ before, x.id ≠ id) (hid : c.id = id) :
    updateCells id f (before ++ c :: after) = before ++ f c :: after := by
  induction before with
  | nil => exact if_pos hid
  | cons x rest ih =>
      have hx : x.id ≠ id := hfirst x List.mem_cons_self
      have hrest := ih fun y hy => hfirst y (List.mem_cons_of_mem _ hy)
      simp only [List.cons_append, updateCells, hx, if_false, hrest]

theorem updateCells_of_not_mem (id : CellId) (f : Cell → Cell) (cells : List Cell)
    (h : ∀ x ∈ cells, x.id ≠ id) : updateCells id f cells = cells := by
  induction cells with
  | nil => rfl
  | cons x rest ih =>
      have hx : x.id ≠ id := h x List.mem_cons_self
      have hrest := ih fun y hy => h y (List.mem_cons_of_mem _ hy)
      simp only [updateCells, hx, if_false, hrest]

/-- Changing a cell that is not there changes nothing. -/
theorem update_of_cell?_eq_none {s : Session} {id : CellId} (h : s.cell? id = none)
    (f : Cell → Cell) : s.update id f = s := by
  unfold update
  rw [updateCells_of_not_mem id f s.cells (cell?_eq_none_iff.mp h)]

namespace Split

variable {s : Session} {id : CellId} {c : Cell} {before after : List Cell}

theorem cell?_eq (h : Split s id c before after) : s.cell? id = some c := by
  refine List.find?_eq_some_iff_append.mpr ⟨by simpa using h.named, before, after, h.cells, ?_⟩
  intro x hx
  simp [h.first x hx]

theorem update_eq (h : Split s id c before after) (f : Cell → Cell) :
    s.update id f = { s with cells := before ++ f c :: after } := by
  unfold update
  rw [h.cells, updateCells_append id f before c after h.first h.named]

theorem eraseP_eq (h : Split s id c before after) :
    s.cells.eraseP (fun x => x.id == id) = before ++ after := by
  rw [h.cells, List.eraseP_append_right]
  · rw [List.eraseP_cons_of_pos (by simpa using h.named)]
  · intro x hx
    simp [h.first x hx]

end Split

/-- A replaced cell stands where the old one stood. -/
theorem of_replace_eq_ok {s s' : Session} {cell old : Cell}
    (h : s.replace cell = .ok (old, s')) :
    (∀ other, s.holder? cell = some other → other.id = cell.id) ∧
      ∃ before after, Split s cell.id old before after ∧
        s' = { s with cells := before ++ cell :: after } := by
  unfold replace at h
  cases hfind : s.cell? cell.id with
  | none =>
      simp only [hfind] at h
      split at h
      · split at h <;> cases h
      · cases h
  | some found =>
      simp only [hfind] at h
      obtain ⟨before, after, hsplit⟩ := split_of_cell? hfind
      have hplace : s.update cell.id (fun _ => cell) =
          { s with cells := before ++ cell :: after } := hsplit.update_eq _
      split at h
      · next other hholder =>
          split at h
          · cases h
          · next hid =>
              obtain ⟨rfl, rfl⟩ := Prod.mk.inj (Except.ok.inj h)
              refine ⟨fun other' hother' => ?_, before, after, hsplit, hplace⟩
              rw [hholder] at hother'
              obtain rfl := Option.some.inj hother'
              exact not_not.mp hid
      · next hholder =>
          obtain ⟨rfl, rfl⟩ := Prod.mk.inj (Except.ok.inj h)
          refine ⟨fun other hother => ?_, before, after, hsplit, hplace⟩
          rw [hholder] at hother
          cases hother

/-- A removed cell leaves a gap. -/
theorem of_remove_eq_ok {s s' : Session} {id : CellId} {old : Cell}
    (h : s.remove id = .ok (old, s')) :
    ∃ before after, Split s id old before after ∧
      s' = { s with cells := before ++ after } := by
  unfold remove at h
  split at h
  · next found hfind =>
      obtain ⟨rfl, rfl⟩ := Prod.mk.inj (Except.ok.inj h)
      obtain ⟨before, after, hsplit⟩ := split_of_cell? hfind
      exact ⟨before, after, hsplit, by rw [hsplit.eraseP_eq]⟩
  · cases h

theorem insertIdx_eq_append {α : Type} (items : List α) (i : Nat) (h : i ≤ items.length)
    (a : α) : items.insertIdx i a = items.take i ++ a :: items.drop i := by
  induction items generalizing i with
  | nil =>
      obtain rfl : i = 0 := Nat.le_zero.mp h
      rfl
  | cons x rest ih =>
      cases i with
      | zero => rfl
      | succ i =>
          rw [List.insertIdx_succ_cons, ih i (Nat.le_of_succ_le_succ h)]
          rfl

/-- A new cell comes in if its name and its filename are free, at its place or at the end. -/
theorem insert_eq_ok_iff {s s' : Session} {index : Nat} {cell : Cell} :
    s.insert index cell = .ok s' ↔ s.cell? cell.id = none ∧ s.holder? cell = none ∧
      s' = { s with cells := s.cells.take (min index s.cells.length) ++
        cell :: s.cells.drop (min index s.cells.length) } := by
  unfold insert
  rw [insertIdx_eq_append _ _ (Nat.min_le_right _ _)]
  cases s.cell? cell.id with
  | some _ => simp
  | none =>
      cases s.holder? cell with
      | some _ => simp
      | none => simp [eq_comm]

/-- A new cell stands between two parts of the session. -/
theorem of_insert_eq_ok {s s' : Session} {index : Nat} {cell : Cell}
    (h : s.insert index cell = .ok s') :
    s.cell? cell.id = none ∧ s.holder? cell = none ∧
      ∃ before after, s.cells = before ++ after ∧
        s' = { s with cells := before ++ cell :: after } := by
  obtain ⟨hid, hholder, rfl⟩ := insert_eq_ok_iff.mp h
  exact ⟨hid, hholder, _, _, (List.take_append_drop _ _).symm, rfl⟩

/-! ## Cells by their names -/

/-- The cells by their names after one of them was changed. -/
theorem cell?_update (s : Session) (id id' : CellId) (f : Cell → Cell)
    (hf : ∀ c, c.id = id → (f c).id = id) :
    (s.update id f).cell? id' = if id = id' then (s.cell? id).map f else s.cell? id' := by
  cases hfind : s.cell? id with
  | none =>
      rw [update_of_cell?_eq_none hfind]
      by_cases hid : id = id'
      · rw [if_pos hid, ← hid, hfind]
        rfl
      · rw [if_neg hid]
  | some c =>
      obtain ⟨before, after, hsplit⟩ := split_of_cell? hfind
      have hnamed := hf c hsplit.named
      rw [hsplit.update_eq]
      simp only [cell?, hsplit.cells, List.find?_append]
      by_cases hid : id = id'
      · subst hid
        have hbefore : before.find? (fun x => x.id == id) = none := by
          simpa using hsplit.first
        rw [hbefore, if_pos rfl, List.find?_cons_of_pos (by simpa using hnamed)]
        rfl
      · have hc : ¬c.id = id' := hsplit.named ▸ hid
        have hfc : ¬(f c).id = id' := hnamed ▸ hid
        rw [if_neg hid, List.find?_cons_of_neg (by simpa using hfc),
          List.find?_cons_of_neg (by simpa using hc)]

/-- The cells by their names after one of them was replaced. -/
theorem cell?_replace {s s' : Session} {cell old : Cell}
    (h : s.replace cell = .ok (old, s')) (id : CellId) :
    s'.cell? id = if cell.id = id then some cell else s.cell? id := by
  obtain ⟨_, before, after, hsplit, rfl⟩ := of_replace_eq_ok h
  have hupdate := cell?_update s cell.id id (fun _ => cell) (fun _ _ => rfl)
  rw [hsplit.update_eq, hsplit.cell?_eq] at hupdate
  exact hupdate

/-- The cells by their names after a new one was inserted. -/
theorem cell?_insert {s s' : Session} {index : Nat} {cell : Cell}
    (h : s.insert index cell = .ok s') (id : CellId) :
    s'.cell? id = if cell.id = id then some cell else s.cell? id := by
  obtain ⟨hnew, _, before, after, hcells, rfl⟩ := of_insert_eq_ok h
  simp only [cell?, hcells, List.find?_append]
  by_cases hid : cell.id = id
  · subst hid
    have hbefore : before.find? (fun x => x.id == cell.id) = none := by
      rw [cell?_eq_none_iff, hcells] at hnew
      simpa using fun x hx => hnew x (List.mem_append_left after hx)
    rw [hbefore, if_pos rfl, List.find?_cons_of_pos (by simp)]
    rfl
  · rw [if_neg hid, List.find?_cons_of_neg (by simpa using hid)]

/-- Removing a cell leaves those with other names. -/
theorem cell?_remove_of_ne {s s' : Session} {id id' : CellId} {old : Cell}
    (h : s.remove id = .ok (old, s')) (hne : id ≠ id') : s'.cell? id' = s.cell? id' := by
  obtain ⟨before, after, hsplit, rfl⟩ := of_remove_eq_ok h
  have hc : ¬old.id = id' := hsplit.named ▸ hne
  simp only [cell?, hsplit.cells, List.find?_append]
  rw [List.find?_cons_of_neg (by simpa using hc)]

/-- The cells by their names after one was removed. -/
theorem cell?_remove {s s' : Session} (hs : s.Distinct) {id : CellId} {old : Cell}
    (h : s.remove id = .ok (old, s')) (id' : CellId) :
    s'.cell? id' = if id = id' then none else s.cell? id' := by
  obtain ⟨before, after, hsplit, rfl⟩ := of_remove_eq_ok h
  by_cases hid : id = id'
  · subst hid
    rw [if_pos rfl, cell?_eq_none_iff]
    intro x hx hxid
    unfold Distinct at hs
    rw [hsplit.cells, List.map_append, List.map_cons, List.nodup_append] at hs
    rcases List.mem_append.mp hx with hx | hx
    · exact hsplit.first x hx hxid
    · rw [← hsplit.named] at hxid
      exact (List.nodup_cons.mp hs.2.1).1 (List.mem_map.mpr ⟨x, hx, hxid⟩)
  · rw [if_neg hid]
    exact cell?_remove_of_ne h hid

/-! ## Distinct names -/

theorem Distinct.update {s : Session} (hs : s.Distinct) (id : CellId) (f : Cell → Cell)
    (hf : ∀ c, c.id = id → (f c).id = id) : (s.update id f).Distinct := by
  cases hfind : s.cell? id with
  | none => rwa [update_of_cell?_eq_none hfind]
  | some c =>
      obtain ⟨before, after, hsplit⟩ := split_of_cell? hfind
      unfold Distinct at hs ⊢
      rw [hsplit.cells] at hs
      rw [hsplit.update_eq]
      simp only [List.map_append, List.map_cons] at hs ⊢
      rwa [hf c hsplit.named, ← hsplit.named]

theorem Distinct.replace {s s' : Session} (hs : s.Distinct) {cell old : Cell}
    (h : s.replace cell = .ok (old, s')) : s'.Distinct := by
  obtain ⟨_, before, after, hsplit, rfl⟩ := of_replace_eq_ok h
  rw [← hsplit.update_eq fun _ => cell]
  exact hs.update cell.id _ fun _ _ => rfl

theorem Distinct.insert {s s' : Session} (hs : s.Distinct) {index : Nat} {cell : Cell}
    (h : s.insert index cell = .ok s') : s'.Distinct := by
  obtain ⟨hnew, _, before, after, hcells, rfl⟩ := of_insert_eq_ok h
  unfold Distinct at hs ⊢
  rw [(List.perm_middle.map Cell.id).nodup_iff, List.map_cons, List.nodup_cons]
  rw [cell?_eq_none_iff, hcells] at hnew
  refine ⟨?_, hcells ▸ hs⟩
  intro hmem
  obtain ⟨x, hx, hxid⟩ := List.mem_map.mp hmem
  exact hnew x hx hxid

theorem Distinct.remove {s s' : Session} (hs : s.Distinct) {id : CellId} {old : Cell}
    (h : s.remove id = .ok (old, s')) : s'.Distinct := by
  obtain ⟨before, after, hsplit, rfl⟩ := of_remove_eq_ok h
  unfold Distinct at hs ⊢
  rw [hsplit.cells] at hs
  exact hs.sublist (((List.sublist_cons_self old after).append_left before).map Cell.id)

end Session
end Notebook
