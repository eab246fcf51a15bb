import Notebook.Proofs.Session.Edits

/-!
# Statuses of cells

A status is given to the first cell with a name.  If names are used twice, a later cell
must therefore never be running, or nobody could set it to idle again: `LaterIdle` says
that none is.  Since every new cell is idle, this needs no distinct names.

* `LaterIdle.cell?_eq`: a running cell is the first one with its name.
* `calm_insert`, `calm_replace`, `calm_remove`, `calm_update`: edits let no cell run.
* `sets_update`: which cells are running after one was given a status.
-/

set_option autoImplicit false

namespace Notebook

/-- The cell has the status of a running process. -/
def Cell.IsRunning (c : Cell) : Prop :=
  c.status? = some .running

instance (c : Cell) : Decidable c.IsRunning :=
  inferInstanceAs (Decidable (c.status? = some .running))

@[simp]
theorem Cell.status?_withSource (source : String) (c : Cell) :
    (c.withSource source).status? = c.status? := by
  cases c <;> rfl

/-- A status is given to cells that can have one. -/
theorem Cell.status?_withStatus (status : CellStatus) (c : Cell) :
    (c.withStatus status).status? = c.status?.map fun _ => status := by
  cases c <;> rfl

namespace Session

/-- No cell is running that has the name of an earlier one. -/
def LaterIdle (s : Session) : Prop :=
  s.cells.Pairwise fun x y => x.id = y.id → ¬y.IsRunning

/-- The edit lets no cell run: what runs after it ran before under the same name. -/
structure Calm (s s' : Session) : Prop where
  laterIdle : s.LaterIdle → s'.LaterIdle
  ran : ∀ c ∈ s'.cells, c.IsRunning → ∃ c₀ ∈ s.cells, c₀.id = c.id ∧ c₀.IsRunning

variable {s s' : Session} {id : CellId} {c : Cell} {before after : List Cell}

/-! ## Later cells -/

/-- A cell between two lists of cells, none of which is running in its place. -/
theorem laterIdle_append (h : s.cells = before ++ c :: after) :
    s.LaterIdle ↔ (before ++ after).Pairwise (fun x y => x.id = y.id → ¬y.IsRunning) ∧
      (∀ x ∈ before, x.id = c.id → ¬c.IsRunning) ∧
      ∀ y ∈ after, c.id = y.id → ¬y.IsRunning := by
  unfold LaterIdle
  rw [h]
  simp only [List.pairwise_append, List.pairwise_cons, List.mem_cons]
  constructor
  · rintro ⟨hbefore, ⟨hc, hafter⟩, hcross⟩
    exact ⟨⟨hbefore, hafter, fun x hx y hy => hcross x hx y (Or.inr hy)⟩,
      fun x hx => hcross x hx c (Or.inl rfl), hc⟩
  · rintro ⟨⟨hbefore, hafter, hcross⟩, hx, hy⟩
    refine ⟨hbefore, ⟨hy, hafter⟩, fun x hmem y hy' => ?_⟩
    rcases hy' with rfl | hmem'
    · exact hx x hmem
    · exact hcross x hmem y hmem'

/-- A running cell is the first one with its name. -/
theorem LaterIdle.cell?_eq (h : s.LaterIdle) (hc : c ∈ s.cells) (hrun : c.IsRunning) :
    s.cell? c.id = some c := by
  cases hfind : s.cell? c.id with
  | none => exact absurd rfl (cell?_eq_none_iff.mp hfind c hc)
  | some first =>
      obtain ⟨before, after, hsplit⟩ := split_of_cell? hfind
      obtain ⟨_, _, hafter⟩ := (laterIdle_append hsplit.cells).mp h
      rw [hsplit.cells] at hc
      rcases List.mem_append.mp hc with hbefore | hrest
      · exact absurd rfl (hsplit.first c hbefore)
      · rcases List.mem_cons.mp hrest with rfl | hmem
        · rfl
        · exact absurd hrun (hafter c hmem hsplit.named)

/-! ## Edits that let no cell run -/

theorem Calm.refl (s : Session) : Calm s s :=
  ⟨fun hs => hs, fun c hc hrun => ⟨c, hc, rfl, hrun⟩⟩

/-- A cell in the place of one with its name and its status. -/
theorem calm_of_split {c' : Cell} (h : Split s id c before after) (hid : c'.id = c.id)
    (hstatus : c'.status? = c.status?) : Calm s { s with cells := before ++ c' :: after } := by
  have hrunning : c'.IsRunning ↔ c.IsRunning := by
    unfold Cell.IsRunning
    rw [hstatus]
  constructor
  · intro hs
    rw [laterIdle_append rfl, hrunning, hid]
    exact (laterIdle_append h.cells).mp hs
  · intro x hx hrun
    rw [h.cells]
    rcases List.mem_append.mp hx with hbefore | hrest
    · exact ⟨x, List.mem_append_left _ hbefore, rfl, hrun⟩
    · rcases List.mem_cons.mp hrest with rfl | hmem
      · exact ⟨c, List.mem_append_right _ List.mem_cons_self, hid.symm, hrunning.mp hrun⟩
      · exact ⟨x, List.mem_append_right _ (List.mem_cons_of_mem _ hmem), rfl, hrun⟩

theorem calm_insert {index : Nat} (h : s.insert index c = .ok s')
    (hidle : c.withStatus .idle = c) : Calm s s' := by
  obtain ⟨hnew, _, before, after, hcells, rfl⟩ := of_insert_eq_ok h
  have hc : ¬c.IsRunning := by
    intro hrun
    unfold Cell.IsRunning at hrun
    rw [← hidle, Cell.status?_withStatus] at hrun
    cases hstatus : c.status? with
    | none =>
        rw [hstatus] at hrun
        cases hrun
    | some _ =>
        rw [hstatus] at hrun
        cases hrun
  rw [cell?_eq_none_iff, hcells] at hnew
  constructor
  · intro hs
    unfold LaterIdle at hs
    rw [hcells] at hs
    rw [laterIdle_append rfl]
    refine ⟨hs, fun _ _ _ => hc, fun y hy hid => ?_⟩
    exact absurd hid.symm (hnew y (List.mem_append_right before hy))
  · intro x hx hrun
    rw [List.perm_middle.mem_iff, List.mem_cons] at hx
    rcases hx with rfl | hmem
    · exact absurd hrun hc
    · exact ⟨x, hcells ▸ hmem, rfl, hrun⟩

theorem calm_replace {old : Cell} (h : s.replace c = .ok (old, s'))
    (hstatus : c.status? = old.status?) : Calm s s' := by
  obtain ⟨_, before, after, hsplit, rfl⟩ := of_replace_eq_ok h
  exact calm_of_split hsplit hsplit.named.symm hstatus

theorem calm_remove {old : Cell} (h : s.remove id = .ok (old, s')) : Calm s s' := by
  obtain ⟨before, after, hsplit, rfl⟩ := of_remove_eq_ok h
  have hsub : (before ++ after).Sublist s.cells := by
    rw [hsplit.cells]
    exact (List.sublist_cons_self old after).append_left before
  exact ⟨fun hs => hs.sublist hsub, fun x hx hrun => ⟨x, hsub.subset hx, rfl, hrun⟩⟩

theorem calm_update (s : Session) (id : CellId) (source : String) :
    Calm s (s.update id (·.withSource source)) := by
  cases hfind : s.cell? id with
  | none =>
      rw [update_of_cell?_eq_none hfind]
      exact Calm.refl s
  | some c =>
      obtain ⟨before, after, hsplit⟩ := split_of_cell? hfind
      rw [hsplit.update_eq]
      exact calm_of_split hsplit (Cell.id_withSource source c)
        (Cell.status?_withSource source c)

/-! ## Statuses -/

/-- The cells of `s'` are those of `s`, except that the cell with this name has the status
if it can have one. -/
structure Sets (s : Session) (cell : CellId) (status : CellStatus) (s' : Session) : Prop where
  id : s'.id = s.id
  laterIdle : s'.LaterIdle
  running : ∀ c ∈ s'.cells, c.IsRunning →
    c.id = cell ∧ status = .running ∨ c.id ≠ cell ∧ c ∈ s.cells

theorem sets_update (h : s.LaterIdle) (cell : CellId) (status : CellStatus) :
    Sets s cell status (s.update cell (·.withStatus status)) := by
  cases hfind : s.cell? cell with
  | none =>
      rw [update_of_cell?_eq_none hfind]
      exact ⟨rfl, h, fun c hc _ => Or.inr ⟨cell?_eq_none_iff.mp hfind c hc, hc⟩⟩
  | some first =>
      obtain ⟨before, after, hsplit⟩ := split_of_cell? hfind
      obtain ⟨hrest, _, hafter⟩ := (laterIdle_append hsplit.cells).mp h
      rw [hsplit.update_eq]
      refine ⟨rfl, ?_, fun c hc hrun => ?_⟩
      -- The first cell with a name may be given any status.
      · rw [laterIdle_append rfl, Cell.id_withStatus]
        refine ⟨hrest, fun x hx hid => ?_, hafter⟩
        exact absurd (hid.trans hsplit.named) (hsplit.first x hx)
      · rw [hsplit.cells]
        rcases List.mem_append.mp hc with hbefore | hc'
        · exact Or.inr ⟨hsplit.first c hbefore, List.mem_append_left _ hbefore⟩
        · rcases List.mem_cons.mp hc' with rfl | hmem
          · refine Or.inl ⟨(Cell.id_withStatus status first).trans hsplit.named, ?_⟩
            unfold Cell.IsRunning at hrun
            rw [Cell.status?_withStatus] at hrun
            obtain ⟨_, _, hstatus⟩ := Option.map_eq_some_iff.mp hrun
            exact hstatus
          · refine Or.inr ⟨fun hid => ?_,
              List.mem_append_right _ (List.mem_cons_of_mem _ hmem)⟩
            exact hafter c hmem (hsplit.named.trans hid.symm) hrun

/-- If the first cell with a name cannot run, no cell with this name is running. -/
theorem sets_refl (h : s.LaterIdle) {cell : CellId} (status : CellStatus)
    (hnone : (s.cell? cell).any (·.hasStatus) = false) : Sets s cell status s := by
  refine ⟨rfl, h, fun c hc hrun => Or.inr ⟨?_, hc⟩⟩
  rintro rfl
  have hstatus : c.hasStatus = true := by
    unfold Cell.hasStatus
    rw [show c.status? = some .running from hrun]
    rfl
  rw [h.cell?_eq hc hrun, Option.any_some, hstatus] at hnone
  cases hnone

/-- Setting a cell to idle lets no cell run. -/
theorem Sets.calm {cell : CellId} (h : Sets s cell .idle s') : Calm s s' := by
  refine ⟨fun _ => h.laterIdle, fun c hc hrun => ?_⟩
  rcases h.running c hc hrun with ⟨_, hidle⟩ | ⟨_, hold⟩
  · cases hidle
  · exact ⟨c, hold, rfl, hrun⟩

end Session
end Notebook
