/-!
# What a history yields

A system goes through a history act by act, and an act may yield something.  `gather` puts
together, in order, what the acts of a history yield.  `gather_view` says what a part of the
system yields that only some of the acts concern.
-/

set_option autoImplicit false

namespace Notebook

variable {σ α β : Type} (step : σ → α → σ) (yielded : σ → α → List β)

/-- What the acts of a history yield, in order. -/
def gather : σ → List α → List β
  | _, [] => []
  | s, a :: rest => yielded s a ++ gather (step s a) rest

theorem gather_append (s : σ) (acts acts' : List α) :
    gather step yielded s (acts ++ acts') =
      gather step yielded s acts ++ gather step yielded (acts.foldl step s) acts' := by
  induction acts generalizing s with
  | nil => rfl
  | cons a rest ih =>
      simp only [List.cons_append, gather, ih, List.foldl_cons, List.append_assoc]

/-- What one act more yields. -/
theorem gather_snoc (s : σ) (acts : List α) (a : α) :
    gather step yielded s (acts ++ [a]) =
      gather step yielded s acts ++ yielded (acts.foldl step s) a := by
  rw [gather_append, gather, gather, List.append_nil]

/-! ## Through a view

Some acts concern a part of the system, and are deeds on it; the others leave it as it is.
What becomes of the part, and what it yields, is then a matter of the deeds. -/

section View

variable {step yielded} {τ γ : Type} (view : σ → τ) {deed : α → Option γ}
  {stepView : τ → γ → τ} {yieldedView : τ → γ → List β} {Inv : σ → Prop}

/-- What becomes of the part. -/
theorem foldl_view (hinv : ∀ s a, Inv s → Inv (step s a))
    (hstep : ∀ s a, Inv s → view (step s a) = (deed a).elim (view s) (stepView (view s)))
    {s : σ} (hs : Inv s) (acts : List α) :
    view (acts.foldl step s) = (acts.filterMap deed).foldl stepView (view s) := by
  induction acts generalizing s with
  | nil => rfl
  | cons a rest ih =>
      rw [List.foldl_cons, ih (hinv s a hs), hstep s a hs]
      cases ha : deed a with
      | none => rw [List.filterMap_cons_none ha, Option.elim_none]
      | some d => rw [List.filterMap_cons_some ha, Option.elim_some, List.foldl_cons]

/-- What the part yields. -/
theorem gather_view (hinv : ∀ s a, Inv s → Inv (step s a))
    (hstep : ∀ s a, Inv s → view (step s a) = (deed a).elim (view s) (stepView (view s)))
    (hyielded : ∀ s a, Inv s → yielded s a = (deed a).elim [] (yieldedView (view s)))
    {s : σ} (hs : Inv s) (acts : List α) :
    gather step yielded s acts =
      gather stepView yieldedView (view s) (acts.filterMap deed) := by
  induction acts generalizing s with
  | nil => rfl
  | cons a rest ih =>
      rw [gather, ih (hinv s a hs), hstep s a hs, hyielded s a hs]
      cases ha : deed a with
      | none =>
          rw [List.filterMap_cons_none ha, Option.elim_none, Option.elim_none, List.nil_append]
      | some d => rw [List.filterMap_cons_some ha, Option.elim_some, Option.elim_some, gather]

end View

end Notebook
