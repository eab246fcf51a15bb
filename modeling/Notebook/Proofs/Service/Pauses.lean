import Notebook.Proofs.Service.Calls

/-!
# What may happen while a bridge is at work

Between two steps of a call an instance may answer, stop reading or die.  None of this
changes what the bridge itself keeps: `Bridge.Later b b'` says that `b'` has the same
books as `b`, and that no instance works in `b'` that did not work in `b`.  An instance
that has stopped working never works again.

* `later_apply`, `later_elapse`: incidents and pauses only lead to later bridges.
* `ends_send`, `ends_notify`: a request is queued, or the instance has stopped working.
* `ends_request`, `ends_release`: the same for requests with an answer and for letting go.
-/

set_option autoImplicit false

namespace Notebook
namespace Bridge

open Call

/-- The books of a bridge: all that is changed by the bridge alone and not by sending. -/
def books (b : Bridge) : Bridge :=
  { b with
    instances := .empty
    incidents := []
    waiting := []
    answered := .empty
    expired := []
    reports := []
    trace := [] }

/-- The bridge `b'` may follow `b` while requests are sent. -/
structure Later (b b' : Bridge) : Prop where
  books : b'.books = b.books
  works : ∀ g, b'.works g = true → b.works g = true

namespace Later

theorem refl (b : Bridge) : Later b b :=
  ⟨rfl, fun _ h => h⟩

theorem trans {a b c : Bridge} (h : Later a b) (h' : Later b c) : Later a c :=
  ⟨h'.books.trans h.books, fun g hg => h.works g (h'.works g hg)⟩

theorem records {b b' : Bridge} (h : Later b b') : b'.records = b.records := by
  have hbooks := congrArg Bridge.records h.books
  exact hbooks

theorem projectDir {b b' : Bridge} (h : Later b b') : b'.projectDir = b.projectDir := by
  have hbooks := congrArg Bridge.projectDir h.books
  exact hbooks

theorem settings {b b' : Bridge} (h : Later b b') : b'.settings = b.settings := by
  have hbooks := congrArg Bridge.settings h.books
  exact hbooks

theorem findings {b b' : Bridge} (h : Later b b') : b'.findings = b.findings := by
  have hbooks := congrArg Bridge.findings h.books
  exact hbooks

theorem attached {b b' : Bridge} (h : Later b b') : b'.attached = b.attached := by
  have hbooks := congrArg Bridge.attached h.books
  exact hbooks

theorem nextGeneration {b b' : Bridge} (h : Later b b') :
    b'.nextGeneration = b.nextGeneration := by
  have hbooks := congrArg Bridge.nextGeneration h.books
  exact hbooks

theorem servicePath {b b' : Bridge} (h : Later b b') : b'.servicePath = b.servicePath := by
  funext filename
  simp only [Bridge.servicePath, sourceDir, h.projectDir]

/-- A stopped instance stays stopped. -/
theorem stopped {b b' : Bridge} (h : Later b b') {g : Nat} (hg : b.works g = false) :
    b'.works g = false := by
  cases hw : b'.works g with
  | false => rfl
  | true =>
      rw [h.works g hw] at hg
      exact hg

end Later

/-! ## Instances -/

/-- Changing an instance to one that works at most as well leads to a later bridge. -/
theorem later_changeInstance (b : Bridge) (g : Nat) (f : Instance → Instance)
    (hf : ∀ i, ((f i).alive && (f i).writable) = true → (i.alive && i.writable) = true) :
    Later b (b.changeInstance g f) := by
  unfold changeInstance
  cases hi : b.instances.find? g with
  | none => exact Later.refl b
  | some i =>
      refine ⟨rfl, fun g' hg' => ?_⟩
      simp only [works, Table.find?_set] at hg' ⊢
      by_cases hgg : g = g'
      · subst hgg
        rw [if_pos rfl] at hg'
        rw [hi]
        exact hf i hg'
      · rw [if_neg hgg] at hg'
        exact hg'

@[simp]
theorem trace_changeInstance (b : Bridge) (g : Nat) (f : Instance → Instance) :
    (b.changeInstance g f).trace = b.trace := by
  unfold changeInstance
  split <;> rfl

/-- An instance whose input is shut does not work. -/
theorem works_changeInstance_shut (b : Bridge) (g : Nat) :
    (b.changeInstance g fun i => { i with writable := false }).works g = false := by
  unfold changeInstance
  cases hi : b.instances.find? g with
  | none => simp only [works, hi]
  | some i => simp only [works, Table.find?_set, if_true, Bool.and_false]

/-! ## Incidents and pauses -/

@[simp]
theorem trace_apply (b : Bridge) (i : Incident) : (b.apply i).trace = b.trace := by
  cases i with
  | frame g frame =>
      simp only [apply, takeFrame]
      split
      · rfl
      · rfl
      · split <;> rfl
  | dies g => exact trace_changeInstance b g _
  | forgets g => rfl
  | reports g reason => rfl
  | breaks g => exact trace_changeInstance b g _
  | expires ticket => rfl

/-- An incident leads to a later bridge. -/
theorem later_apply (b : Bridge) (i : Incident) : Later b (b.apply i) := by
  cases i with
  | frame g frame =>
      simp only [apply, takeFrame]
      split
      · exact Later.refl b
      · exact ⟨rfl, fun _ h => h⟩
      · split
        · exact ⟨rfl, fun _ h => h⟩
        · exact Later.refl b
  | dies g => exact later_changeInstance b g _ (fun i h => by simp at h)
  | forgets g => exact ⟨rfl, fun _ h => h⟩
  | reports g reason => exact ⟨rfl, fun _ h => h⟩
  | breaks g => exact later_changeInstance b g _ (fun i h => by simp at h)
  | expires ticket => exact ⟨rfl, fun _ h => h⟩

theorem later_foldl_apply (due : List Incident) (b : Bridge) :
    Later b (due.foldl apply b) ∧ (due.foldl apply b).trace = b.trace := by
  induction due generalizing b with
  | nil => exact ⟨Later.refl b, rfl⟩
  | cons i rest ih =>
      obtain ⟨hlater, htrace⟩ := ih (b.apply i)
      rw [List.foldl_cons]
      exact ⟨(later_apply b i).trans hlater, htrace.trans (trace_apply b i)⟩

/-- A pause leads to a later bridge. -/
theorem later_elapse (b : Bridge) : Later b b.elapse := by
  unfold elapse
  split
  · exact Later.refl b
  · next due later _ =>
      have hfirst : Later b { b with incidents := later } :=
        ⟨rfl, fun _ h => h⟩
      exact hfirst.trans (later_foldl_apply due _).1

@[simp]
theorem trace_elapse (b : Bridge) : b.elapse.trace = b.trace := by
  unfold elapse
  split
  · rfl
  · next due later _ => exact (later_foldl_apply due { b with incidents := later }).2

@[simp]
theorem ends_pause {b : Bridge} {ok : Unit → Bridge → Prop}
    {err : BridgeError → Bridge → Prop} : Ends pause b ok err ↔ ok () b.elapse := Iff.rfl

@[simp]
theorem ends_perform {deed : Deed} {b : Bridge} {ok : Unit → Bridge → Prop}
    {err : BridgeError → Bridge → Prop} :
    Ends (perform deed) b ok err ↔ ok () { b with trace := deed :: b.trace } := Iff.rfl

/-- The number of a request is taken from its instance; nothing else changes. -/
theorem ends_takeNumber (b : Bridge) (g : Nat) :
    Ends (takeNumber g) b (fun _ b' => Later b b' ∧ b'.trace = b.trace) fun _ _ => False := by
  simp only [takeNumber, ends_bind, ends_get, ends_set, ends_pure]
  exact ⟨later_changeInstance b g _ (fun i h => h), trace_changeInstance b g _⟩

/-! ## Requests -/

/-- A request that is handed to the writer is queued, or its instance has stopped. -/
theorem ends_send (b : Bridge) (g : Nat) (r : Request) :
    Ends (send g r) b
      (fun _ b' => Later b b' ∧ b'.trace = .queued g r :: b.trace)
      fun _ b' => Later b b' ∧ b'.works g = false ∧ b'.trace = b.trace := by
  have hpause := later_elapse b
  simp only [send, ends_bind, ends_get]
  split
  · next n writable hi =>
      simp only [ends_bind, ends_pause, ends_get]
      split
      · exact ⟨⟨hpause.books, hpause.works⟩,
          congrArg (Deed.queued g r :: ·) (trace_elapse b)⟩
      · next hshut =>
          refine ⟨hpause, ?_, trace_elapse b⟩
          simp only [works]
          split
          · next i hi' =>
              rcases i with ⟨n', alive', writable'⟩
              cases writable' with
              | true => exact absurd hi' (hshut n' alive')
              | false => exact Bool.and_false _
          · rfl
  · next hdead =>
      refine ⟨Later.refl b, ?_, rfl⟩
      simp only [works]
      split
      · next i hi =>
          rcases i with ⟨n, alive, writable⟩
          cases alive with
          | true => exact absurd hi (hdead n writable)
          | false => rfl
      · rfl

/-- A notification is queued under some number, or its instance has stopped. -/
theorem ends_notify (b : Bridge) (g : Nat) (c : Command) :
    Ends (notify g c) b
      (fun _ b' => Later b b' ∧ ∃ n, b'.trace = .queued g ⟨n, c⟩ :: b.trace)
      fun _ b' => Later b b' ∧ b'.works g = false ∧ b'.trace = b.trace := by
  simp only [notify, ends_bind]
  refine (ends_takeNumber b g).mono ?_ (fun _ _ h => h.elim)
  rintro n b₁ ⟨hlater, htrace⟩
  have hpause := later_elapse b₁
  simp only [ends_pause]
  refine (ends_send b₁.elapse g ⟨n, c⟩).mono ?_ ?_
  · rintro _ b' ⟨hsent, hqueued⟩
    refine ⟨(hlater.trans hpause).trans hsent, n, ?_⟩
    rw [hqueued, trace_elapse, htrace]
  · rintro _ b' ⟨hsent, hstopped, hsame⟩
    exact ⟨(hlater.trans hpause).trans hsent, hstopped,
      hsame.trans ((trace_elapse b₁).trans htrace)⟩

/-- A request with an answer is queued like a notification. -/
theorem ends_request (b : Bridge) (g : Nat) (c : Command) :
    Ends (request g c) b
      (fun _ b' => Later b b' ∧ ∃ n, b'.trace = .queued g ⟨n, c⟩ :: b.trace)
      fun _ b' => Later b b' ∧ b'.works g = false ∧ b'.trace = b.trace := by
  simp only [request, ends_bind]
  refine (ends_takeNumber b g).mono ?_ (fun _ _ h => h.elim)
  rintro n b₁ ⟨hlater, htrace⟩
  simp only [ends_pause, ends_modify, ends_tryCatch, ends_bind, ends_pure, ends_throw]
  -- The request waits for its answer before it is sent, and no longer if that fails.
  generalize hb₂ : ({ b₁.elapse with waiting := ⟨g, n⟩ :: b₁.elapse.waiting } : Bridge) = b₂
  have hwait : Later b₁ b₂ := by
    subst hb₂
    exact ⟨(later_elapse b₁).books, (later_elapse b₁).works⟩
  have htrace₂ : b₂.trace = b₁.trace := by
    subst hb₂
    exact trace_elapse b₁
  have hbefore : Later b b₂.elapse := (hlater.trans hwait).trans (later_elapse b₂)
  refine (ends_send b₂.elapse g ⟨n, c⟩).mono ?_ ?_
  · rintro _ b' ⟨hsent, hqueued⟩
    refine ⟨hbefore.trans hsent, n, ?_⟩
    rw [hqueued, trace_elapse, htrace₂, htrace]
  · rintro _ b' ⟨hsent, hstopped, hsame⟩
    have hpause := later_elapse b'
    have hall := (hbefore.trans hsent).trans hpause
    refine ⟨⟨hall.books, hall.works⟩, hpause.stopped hstopped, ?_⟩
    rw [trace_elapse, hsame, trace_elapse, htrace₂, htrace]

/-- An instance that is let go has stopped; nothing more is queued. -/
theorem ends_release (b : Bridge) (g : Nat) :
    Ends (release g) b
      (fun _ b' => Later b b' ∧ b'.works g = false ∧
        (b'.trace = b.trace ∨ b'.trace = .released g :: b.trace))
      fun _ _ => False := by
  have hpause := later_elapse b
  -- Whether its input is closed or not, the instance is shut and forgotten.
  have hrest : ∀ b₁ : Bridge, Later b b₁ →
      (b₁.trace = b.trace ∨ b₁.trace = .released g :: b.trace) →
      let b₂ := ((b₁.changeInstance g fun i => { i with writable := false }).elapse).forget g
      Later b b₂ ∧ b₂.works g = false ∧
        (b₂.trace = b.trace ∨ b₂.trace = .released g :: b.trace) := by
    intro b₁ hlater htrace
    have hshut := later_changeInstance b₁ g (fun i => { i with writable := false })
      (fun i h => by simp at h)
    have hall := (hlater.trans hshut).trans (later_elapse _)
    refine ⟨⟨hall.books, hall.works⟩, ?_, ?_⟩
    · exact (later_elapse _).stopped (works_changeInstance_shut b₁ g)
    · change (elapse _).trace = b.trace ∨ (elapse _).trace = .released g :: b.trace
      rw [trace_elapse, trace_changeInstance]
      exact htrace
  simp only [release, ends_bind, ends_pause, ends_get]
  split
  · simp only [ends_bind, ends_perform, ends_modify, ends_pause]
    refine hrest _ ⟨hpause.books, hpause.works⟩ (Or.inr ?_)
    change Deed.released g :: b.elapse.trace = _
    rw [trace_elapse]
  · simp only [ends_bind, ends_modify, ends_pause]
    exact hrest _ hpause (Or.inl (trace_elapse b))

end Bridge
end Notebook
