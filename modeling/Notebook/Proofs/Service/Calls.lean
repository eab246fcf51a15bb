import Notebook.Service.Bridge

/-!
# How calls end

A call either comes back with a value or fails, and in both cases it leaves a bridge
behind.  `Call.Ends c b ok err` says that the call `c`, started in `b`, leaves one of
these two traces: `ok` of its value and the bridge, or `err` of its error and the bridge.

The equivalences below take a call apart step by step, in the order in which its steps
are written.  `Call.Keeps p c b` says that the call keeps `p` however it ends, and is proved
along the same steps.  Nothing is said here about what the steps of the bridge do.
-/

set_option autoImplicit false

namespace Notebook
namespace Call

variable {α β : Type}

/-- The call comes back with `ok`, or fails with `err`. -/
def Ends (c : Call α) (b : Bridge) (ok : α → Bridge → Prop)
    (err : BridgeError → Bridge → Prop) : Prop :=
  match (c.run).run b with
  | (.ok a, b) => ok a b
  | (.error e, b) => err e b

/-- What is known about both endings may be weakened. -/
theorem Ends.mono {c : Call α} {b : Bridge} {ok ok' : α → Bridge → Prop}
    {err err' : BridgeError → Bridge → Prop} (h : Ends c b ok err)
    (hok : ∀ a b, ok a b → ok' a b) (herr : ∀ e b, err e b → err' e b) :
    Ends c b ok' err' := by
  unfold Ends at h ⊢
  rcases hrun : (c.run).run b with ⟨result, b'⟩
  rw [hrun] at h
  cases result with
  | ok a => exact hok a b' h
  | error e => exact herr e b' h

/-- Two things that are known hold together. -/
theorem Ends.and {c : Call α} {b : Bridge} {ok ok' : α → Bridge → Prop}
    {err err' : BridgeError → Bridge → Prop} (h : Ends c b ok err) (h' : Ends c b ok' err') :
    Ends c b (fun a b => ok a b ∧ ok' a b) fun e b => err e b ∧ err' e b := by
  unfold Ends at h h' ⊢
  rcases hrun : (c.run).run b with ⟨result, b'⟩
  rw [hrun] at h h'
  cases result with
  | ok a => exact ⟨h, h'⟩
  | error e => exact ⟨h, h'⟩

/-- What is known of a run that has come back. -/
theorem Ends.of_ok {c : Call α} {b b' : Bridge} {a : α} {ok : α → Bridge → Prop}
    {err : BridgeError → Bridge → Prop} (h : Ends c b ok err)
    (hrun : (c.run).run b = (.ok a, b')) : ok a b' := by
  unfold Ends at h
  rw [hrun] at h
  exact h

/-- What is known of a run that has failed. -/
theorem Ends.of_error {c : Call α} {b b' : Bridge} {e : BridgeError}
    {ok : α → Bridge → Prop} {err : BridgeError → Bridge → Prop} (h : Ends c b ok err)
    (hrun : (c.run).run b = (.error e, b')) : err e b' := by
  unfold Ends at h
  rw [hrun] at h
  exact h

/-- What holds of both endings holds of the bridge that is left. -/
theorem Ends.always {c : Call α} {b : Bridge} {p : Bridge → Prop}
    (h : Ends c b (fun _ => p) (fun _ => p)) : p ((c.run).run b).2 := by
  rcases hrun : (c.run).run b with ⟨result, b'⟩
  cases result with
  | ok a => exact h.of_ok hrun
  | error e => exact h.of_error hrun

/-! ## Taking calls apart -/

@[simp]
theorem ends_pure {a : α} {b : Bridge} {ok : α → Bridge → Prop}
    {err : BridgeError → Bridge → Prop} : Ends (pure a) b ok err ↔ ok a b := Iff.rfl

@[simp]
theorem ends_throw {e : BridgeError} {b : Bridge} {ok : α → Bridge → Prop}
    {err : BridgeError → Bridge → Prop} : Ends (throw e) b ok err ↔ err e b := Iff.rfl

@[simp]
theorem ends_bind {c : Call α} {f : α → Call β} {b : Bridge} {ok : β → Bridge → Prop}
    {err : BridgeError → Bridge → Prop} :
    Ends (c >>= f) b ok err ↔ Ends c b (fun a b => Ends (f a) b ok err) err := by
  unfold Ends
  rw [ExceptT.run_bind, StateT.run_bind]
  rcases (c.run).run b with ⟨result, b'⟩
  cases result with
  | ok a => exact Iff.rfl
  | error e => exact Iff.rfl

@[simp]
theorem ends_get {b : Bridge} {ok : Bridge → Bridge → Prop}
    {err : BridgeError → Bridge → Prop} : Ends get b ok err ↔ ok b b := Iff.rfl

@[simp]
theorem ends_set {b b' : Bridge} {ok : PUnit → Bridge → Prop}
    {err : BridgeError → Bridge → Prop} : Ends (set b') b ok err ↔ ok ⟨⟩ b' := Iff.rfl

@[simp]
theorem ends_modify {f : Bridge → Bridge} {b : Bridge} {ok : PUnit → Bridge → Prop}
    {err : BridgeError → Bridge → Prop} : Ends (modify f) b ok err ↔ ok ⟨⟩ (f b) := Iff.rfl

@[simp]
theorem ends_tryCatch {c : Call α} {handler : BridgeError → Call α} {b : Bridge}
    {ok : α → Bridge → Prop} {err : BridgeError → Bridge → Prop} :
    Ends (tryCatch c handler) b ok err ↔
      Ends c b ok (fun e b => Ends (handler e) b ok err) := by
  have hrun : ((tryCatch c handler : Call α).run).run b =
      match (c.run).run b with
      | (.ok a, b) => (.ok a, b)
      | (.error e, b) => ((handler e).run).run b := by
    simp only [tryCatch, tryCatchThe, MonadExceptOf.tryCatch, ExceptT.tryCatch,
      ExceptT.run_mk]
    rcases hc : (c.run).run b with ⟨result, b'⟩
    change c b = (result, b') at hc
    simp only [StateT.run, bind, StateT.bind]
    rw [hc]
    cases result with
    | ok a => rfl
    | error e => rfl
  unfold Ends
  rw [hrun]
  rcases (c.run).run b with ⟨result, b'⟩
  cases result with
  | ok a => exact Iff.rfl
  | error e => exact Iff.rfl

/-- A call for every item of a list: an invariant of the rest of the list is carried from
item to item. -/
theorem ends_forM {c : α → Call PUnit} {p : List α → Bridge → Prop}
    {err : BridgeError → Bridge → Prop} (items : List α)
    (hstep : ∀ a rest b, p (a :: rest) b → Ends (c a) b (fun _ => p rest) err) (b : Bridge)
    (hb : p items b) : Ends (items.forM c) b (fun _ => p []) err := by
  induction items generalizing b with
  | nil => exact hb
  | cons a rest ih =>
      rw [List.forM_eq_forM, List.forM_cons, ends_bind]
      exact (hstep a rest b hb).mono (fun _ b' hb' => ih b' hb') (fun _ _ he => he)

/-! ## Invariants -/

/-- However the call ends, what held of the bridge before still holds. -/
def Keeps (p : Bridge → Prop) (c : Call α) (b : Bridge) : Prop :=
  p b → Ends c b (fun _ => p) fun _ => p

namespace Keeps

variable {p : Bridge → Prop} {b : Bridge}

/-- What holds of the bridge may be used. -/
theorem of_holds {c : Call α} (h : p b → Keeps p c b) : Keeps p c b :=
  fun hb => h hb hb

theorem pure (a : α) : Keeps p (Pure.pure a : Call α) b :=
  fun hb => hb

theorem throw (e : BridgeError) : Keeps p (MonadExcept.throw e : Call α) b :=
  fun hb => hb

theorem bind {c : Call α} {f : α → Call β} (hc : Keeps p c b) (hf : ∀ a b', Keeps p (f a) b') :
    Keeps p (c >>= f) b := by
  intro hb
  rw [ends_bind]
  exact (hc hb).mono (fun a b' hb' => hf a b' hb') (fun _ _ h => h)

/-- A call that begins with a look at the bridge. -/
theorem get_bind {f : Bridge → Call β} (hf : Keeps p (f b) b) : Keeps p (get >>= f) b :=
  fun hb => hf hb

theorem set {b' : Bridge} (h : p b → p b') : Keeps p (MonadStateOf.set b' : Call PUnit) b :=
  h

theorem tryCatch {c : Call α} {handler : BridgeError → Call α} (hc : Keeps p c b)
    (hhandler : ∀ e b', Keeps p (handler e) b') :
    Keeps p (MonadExcept.tryCatch c handler) b := by
  intro hb
  exact ends_tryCatch.mpr
    ((hc hb).mono (fun _ _ h => h) fun e b' hb' => hhandler e b' hb')

theorem forM {c : α → Call PUnit} (items : List α) (hc : ∀ a ∈ items, ∀ b, Keeps p (c a) b) :
    Keeps p (items.forM c) b := by
  induction items generalizing b with
  | nil => exact pure _
  | cons a rest ih =>
      rw [List.forM_eq_forM, List.forM_cons]
      exact (hc a List.mem_cons_self b).bind fun _ _ =>
        ih fun a ha => hc a (List.mem_cons_of_mem _ ha)

end Keeps

end Call
end Notebook
