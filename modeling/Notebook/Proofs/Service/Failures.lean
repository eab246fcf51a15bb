import Notebook.Proofs.Service.Invariants

/-!
# Edits that fail

An edit is a call that changes the records.  It may fail at many points: the instance that
is launched for it may not come up, and the one that it talks to may stop at any pause.  What
was done before stays done, so the order of its steps decides what a failed edit leaves.

Opening and updating record the file at the very end, and closing takes the record out at
the very beginning.  Renaming moves the record in one step between its two halves.  So a
failed edit has either done nothing to the records or all that it would have done.

Findings are `Attributed` if they are findings in open files.  A record and the findings of its
file go in one step, and a report of findings in another file is dropped.

* `attributed_invariant`, `attributed_playAll`: whatever happens, the findings are attributed.
* `ends_edit`: the records in both endings of an edit.
* `failed_edit_whole`: what a failed edit leaves.
-/

set_option autoImplicit false

namespace Notebook
namespace Bridge

open Call

/-- A call that changes the records. -/
inductive Edit where
  | openFile (filename content : String)
  | update (filename content : String)
  | closeFile (filename : String)
  | rename (old new content : String)
  deriving DecidableEq, Repr

namespace Edit

/-- The call. -/
def call : Edit → Call Unit
  | .openFile filename content => Bridge.openFile filename content
  | .update filename content => Bridge.update filename content
  | .closeFile filename => Bridge.closeFile filename
  | .rename old new content => Bridge.rename old new content

/-- The files that the call names. -/
def files : Edit → List String
  | .openFile filename _ => [filename]
  | .update filename _ => [filename]
  | .closeFile filename => [filename]
  | .rename old new _ => [old, new]

/-- What the call makes of the records if it comes back. -/
def records : Edit → Table String String → Table String String
  | .openFile filename content, t => t.set filename content
  | .update filename content, t => t.set filename content
  | .closeFile filename, t => t.erase filename
  | .rename old new content, t => (t.erase old).set new content

/-- The records that the call may leave if it fails: those before it or those of a success. -/
def Whole : Edit → Table String String → Table String String → Prop
  | .openFile _ _, before, after => after = before
  | .update _ _, before, after => after = before
  | .closeFile filename, before, after => after = (closeFile filename).records before
  | .rename old new content, before, after =>
    after = before ∨ after = (rename old new content).records before

/-- No edit is about files that it does not name. -/
theorem find?_records (e : Edit) (t : Table String String) {f : String} (hf : f ∉ e.files) :
    (e.records t).find? f = t.find? f := by
  have hother : ∀ f' ∈ e.files, f' ≠ f := fun f' hmem heq => hf (heq ▸ hmem)
  cases e with
  | openFile filename content =>
      exact (t.find?_set _ _ _).trans (if_neg (hother filename (by simp [files])))
  | update filename content =>
      exact (t.find?_set _ _ _).trans (if_neg (hother filename (by simp [files])))
  | closeFile filename =>
      exact (t.find?_erase _ _).trans (if_neg (hother filename (by simp [files])))
  | rename old new content =>
      simp only [records, Table.find?_set, Table.find?_erase,
        if_neg (hother old (by simp [files])), if_neg (hother new (by simp [files]))]

theorem Whole.eq_or_eq {e : Edit} {before after : Table String String}
    (h : e.Whole before after) : after = before ∨ after = e.records before := by
  cases e with
  | openFile filename content => exact Or.inl h
  | update filename content => exact Or.inl h
  | closeFile filename => exact Or.inr h
  | rename old new content => exact h

end Edit

/-! ## Findings of open files -/

/-- All findings are in open files. -/
def Attributed (b : Bridge) : Prop :=
  ∀ f, b.findings.files.contains f = true → b.isOpen f = true

variable {b b' : Bridge}

namespace Attributed

/-- Without findings nothing has to be attributed. -/
theorem of_empty (h : b.findings = .empty) : b.Attributed := by
  intro f hf
  rw [h] at hf
  cases hf

theorem of_later (hb : b.Attributed) (h : Later b b') : b'.Attributed := by
  intro f hf
  rw [h.findings] at hf
  rw [isOpen, h.records]
  exact hb f hf

/-- A file is opened. -/
theorem set (hb : b.Attributed) (f content : String) :
    ({ b with records := b.records.set f content } : Bridge).Attributed :=
  fun f' hf' => (Table.contains_set _ f content f').mpr (Or.inr (hb f' hf'))

/-- A file is closed, and its findings go with it. -/
theorem remove (hb : b.Attributed) (f : String) :
    ({ b with records := b.records.erase f, findings := b.findings.remove f } :
      Bridge).Attributed := by
  intro f' hf'
  obtain ⟨hother, hf'⟩ := (Table.contains_erase _ f f').mp hf'
  exact (Table.contains_erase _ f f').mpr ⟨hother, hb f' hf'⟩

/-- Findings in an open file are recorded. -/
theorem update (hb : b.Attributed) {f : String} (hopen : b.isOpen f = true) (pass : Pass)
    (items : List Diagnostic) :
    ({ b with findings := (b.findings.update f pass items).2 } : Bridge).Attributed := by
  intro f' hf'
  change b.isOpen f' = true
  by_cases hff : f = f'
  · exact hff ▸ hopen
  · refine hb f' ?_
    simp only [Findings.update] at hf'
    split at hf'
    · exact ((Table.contains_erase _ f f').mp hf').2
    · exact ((Table.contains_set _ f _ f').mp hf').resolve_left hff

/-- A report is taken. -/
theorem handle (hb : b.Attributed) (report : Report) : (b.handle report).2.Attributed := by
  unfold Bridge.handle
  split
  · split
    · exact of_empty rfl
    · split
      · unfold takeFindings
        split
        · exact hb
        · split
          · exact hb
          · split
            · next hopen =>
                simp only
                split
                · exact hb
                · exact hb.update hopen _ _
            · exact hb
      · exact hb
  · exact hb

end Attributed

/-! ## Calls -/

/-- The service may be talked to at any time, and a new instance has not found anything. -/
theorem steps_attributed : Steps Attributed :=
  .of_later (fun _ _ hlater hb => hb.of_later hlater) (fun _ _ => .of_empty rfl)
    (fun _ _ hb => hb) (fun _ _ hb => hb) fun _ f content hb => hb.set f content

/-- Whatever happens to a bridge, its findings stay attributed. -/
theorem attributed_invariant : Invariant Set.univ Attributed where
  toTalks := steps_attributed.talks _
  shutdown _ := steps_attributed.shutdown fun _ _ => .of_empty rfl
  remove _ f hb := hb.remove f
  navigate navigation filename offset _ := steps_attributed.navigate navigation filename offset
  apply b incident hb := hb.of_later (later_apply b incident)
  reports _ _ hb := hb
  handle _ report hb := hb.handle report
  plan _ _ _ _ hb := hb

/-- After every history all findings are in open files. -/
theorem attributed_playAll (settings : ServiceSettings) (projectDir : String)
    (moves : List Move) : ((new settings projectDir).playAll moves).Attributed :=
  attributed_invariant.playAll moves (Attributed.of_empty rfl) fun _ _ _ _ => trivial

/-- An edit keeps the findings attributed, however it ends. -/
theorem keeps_edit (e : Edit) : Keeps Attributed e.call b := by
  have hkept := attributed_invariant.toKept
  cases e with
  | openFile filename content => exact hkept.openFile trivial content
  | update filename content => exact hkept.update trivial content
  | closeFile filename => exact hkept.closeFile filename
  | rename old new content => exact hkept.rename old trivial content

/-! ## Both endings of an edit -/

/-- The records after an edit, as it comes back or fails. -/
theorem ends_edit (b : Bridge) (e : Edit) :
    Ends e.call b (fun _ b' => b'.records = e.records b.records)
      fun _ b' => e.Whole b.records b'.records := by
  -- The filenames do not matter here.
  have hany : ∀ f, f ∈ (Set.univ : Set String) := fun _ => trivial
  cases e with
  | openFile filename content =>
      exact (ends_openFile b (hany filename) content).mono
        (fun _ _ h => h.records) (fun _ _ h => h.records)
  | update filename content =>
      exact (ends_update b (hany filename) content).mono
        (fun _ _ h => h.records) (fun _ _ h => h.records)
  | closeFile filename =>
      exact (@ends_closeFile Set.univ b filename).mono
        (fun _ _ h => h.records) (fun _ _ h => h.records)
  | rename old new content =>
      exact (ends_rename b old (hany new) content).mono
        (fun _ _ h => h.records) (fun _ _ h => h.imp (·.records) (·.records))

/-- An edit that comes back has changed the records as it is meant to.  One that fails has
changed them so or not at all: opening and updating not at all, closing in any case, and
renaming one or the other.  Either way only files that the edit names are concerned, and all
findings that are left are in open files.

This holds after every history, whatever launches and incidents are planned for the edit. -/
theorem failed_edit_whole (settings : ServiceSettings) (projectDir : String)
    (moves : List Move) (e : Edit) :
    let b := (new settings projectDir).playAll moves
    let r := (e.call.run).run b
    (r.1 = .ok () → r.2.records = e.records b.records) ∧
    (∀ error, r.1 = .error error → e.Whole b.records r.2.records) ∧
    r.2.Attributed ∧
    ∀ f, f ∉ e.files → r.2.records.find? f = b.records.find? f := by
  intro b r
  have hends := ends_edit b e
  have hok : r.1 = .ok () → r.2.records = e.records b.records :=
    fun h => hends.of_ok (Prod.ext h rfl)
  have hfails : ∀ error, r.1 = .error error → e.Whole b.records r.2.records :=
    fun error h => hends.of_error (Prod.ext h rfl)
  refine ⟨hok, hfails, Ends.always (keeps_edit e (attributed_playAll _ _ moves)), ?_⟩
  intro f hf
  have hrecords : r.2.records = b.records ∨ r.2.records = e.records b.records := by
    cases hresult : r.1 with
    | ok _ => exact Or.inr (hok hresult)
    | error error => exact (hfails error hresult).eq_or_eq
  rcases hrecords with hsame | hdone
  · rw [hsame]
  · rw [hdone]
    exact e.find?_records b.records hf

/-- The instance dies when it has been told of both names, and no other can be launched for
the reload.  The record has been moved by then. -/
theorem failed_edit_whole_reload :
    let moves : List Move := [.openFile "a.ts" "1",
      .plan none [some (.failed "gone")] [[], [], [], [], [], [], [.dies 1]]]
    let e : Edit := .rename "a.ts" "b.ts" "2"
    let b := (new .standard "/book").playAll moves
    let r := (e.call.run).run b
    b.records = ⟨[("a.ts", "1")]⟩ ∧ r.1 = .error (.launch (.failed "gone")) ∧
      r.2.records = ⟨[("b.ts", "2")]⟩ ∧ e.Whole b.records r.2.records := by
  refine ⟨by decide +kernel, by decide +kernel, by decide +kernel, ?_⟩
  exact (failed_edit_whole .standard "/book" _ _).2.1 (.launch (.failed "gone"))
    (by decide +kernel)

end Bridge
end Notebook
