import Mathlib.Data.List.DropRight
import Notebook.Text.Blank

/-!
# Trimming

A text is all blank, or it has a character that is not blank.  Such a character stays, and
trimming then cuts the left end off what is before it and the right end off what is after it.

* `trimmed_append_cons`: what trimming does around a character that is not blank.
* `trimmed_eq_nil_iff`: exactly blank texts have nothing left.
* `trimmed_trimmed`: trimming again cuts nothing.
* `trimmed_prefix`: what is left of a text is left, in front, of every text that begins with it.
-/

set_option autoImplicit false

namespace Notebook
namespace Text

/-- A text without the blanks at its right end. -/
def dropEnd (cs : List Char) : List Char :=
  cs.rdropWhile isBlank

theorem trimmed_eq (cs : List Char) : trimmed cs = dropEnd (dropBlanks cs) := rfl

/-- A text is blank, or one of its characters is not. -/
theorem blank_or_split (cs : List Char) :
    (∀ c ∈ cs, isBlank c = true) ∨
      ∃ left c right, cs = left ++ c :: right ∧ isBlank c = false := by
  by_cases h : ∀ c ∈ cs, isBlank c = true
  · exact Or.inl h
  · push Not at h
    obtain ⟨c, hc, hblank⟩ := h
    obtain ⟨left, right, rfl⟩ := List.append_of_mem hc
    exact Or.inr ⟨left, c, right, rfl, by simpa using hblank⟩

/-! ## The right end -/

theorem dropEnd_append (left right : List Char) :
    dropEnd (left ++ right) =
      if (dropEnd right).isEmpty then dropEnd left else left ++ dropEnd right := by
  unfold dropEnd List.rdropWhile
  rw [List.reverse_append, List.dropWhile_append, List.isEmpty_reverse]
  split
  · rfl
  · rw [List.reverse_append, List.reverse_reverse]

/-- A character that is not blank keeps what is before it. -/
theorem dropEnd_append_cons {c : Char} (hc : isBlank c = false) (left right : List Char) :
    dropEnd (left ++ c :: right) = left ++ c :: dropEnd right := by
  have hend : dropEnd (c :: right) = c :: dropEnd right := by
    rw [← List.singleton_append, dropEnd_append]
    split
    · next hempty =>
        rw [List.isEmpty_iff.mp hempty]
        exact List.rdropWhile_concat_neg isBlank [] c (by simp [hc])
    · rfl
  rw [dropEnd_append, hend]
  rfl

theorem dropEnd_eq_nil_iff {cs : List Char} : dropEnd cs = [] ↔ ∀ c ∈ cs, isBlank c = true :=
  List.rdropWhile_eq_nil_iff

theorem dropEnd_append_blanks (cs : List Char) {blanks : List Char}
    (h : ∀ c ∈ blanks, isBlank c = true) : dropEnd (cs ++ blanks) = dropEnd cs := by
  rw [dropEnd_append, dropEnd_eq_nil_iff.mpr h]
  rfl

/-- What is left of a text is left, in front, of a text that goes on. -/
theorem dropEnd_prefix (cs more : List Char) : dropEnd cs <+: dropEnd (cs ++ more) := by
  rw [dropEnd_append]
  split
  · exact List.prefix_rfl
  · exact (List.rdropWhile_prefix isBlank cs).trans (List.prefix_append cs _)

/-! ## Both ends -/

@[simp]
theorem dropBlanks_dropBlanks (cs : List Char) : dropBlanks (dropBlanks cs) = dropBlanks cs :=
  List.dropWhile_idempotent isBlank cs

theorem dropBlanks_append_cons {c : Char} (hc : isBlank c = false) (left right : List Char) :
    dropBlanks (left ++ c :: right) = dropBlanks left ++ c :: right := by
  unfold dropBlanks
  rw [List.dropWhile_append, List.dropWhile_cons_of_neg (by simp [hc])]
  split
  · next hempty =>
      rw [List.isEmpty_iff.mp hempty]
      rfl
  · rfl

/-- A character that is not blank stays, and the ends are cut on its two sides. -/
theorem trimmed_append_cons {c : Char} (hc : isBlank c = false) (left right : List Char) :
    trimmed (left ++ c :: right) = dropBlanks left ++ c :: dropEnd right := by
  rw [trimmed_eq, dropBlanks_append_cons hc, dropEnd_append_cons hc]

/-- Exactly blank texts have nothing left. -/
theorem trimmed_eq_nil_iff {cs : List Char} : trimmed cs = [] ↔ ∀ c ∈ cs, isBlank c = true := by
  constructor
  · intro h
    rcases blank_or_split cs with hblank | ⟨left, c, right, rfl, hc⟩
    · exact hblank
    · rw [trimmed_append_cons hc] at h
      exact absurd h (by simp)
  · intro h
    rw [trimmed_eq, dropEnd_eq_nil_iff]
    exact fun c hc => h c (List.dropWhile_subset isBlank hc)

@[simp]
theorem trimmed_dropBlanks (cs : List Char) : trimmed (dropBlanks cs) = trimmed cs := by
  rw [trimmed_eq, dropBlanks_dropBlanks, ← trimmed_eq]

theorem trimmed_append_blanks (cs : List Char) {blanks : List Char}
    (h : ∀ c ∈ blanks, isBlank c = true) : trimmed (cs ++ blanks) = trimmed cs := by
  rcases blank_or_split cs with hblank | ⟨left, c, right, rfl, hc⟩
  · rw [trimmed_eq_nil_iff.mpr hblank, trimmed_eq_nil_iff]
    intro c hc
    exact (List.mem_append.mp hc).elim (hblank c) (h c)
  · rw [List.append_assoc, List.cons_append, trimmed_append_cons hc, trimmed_append_cons hc,
      dropEnd_append_blanks right h]

@[simp]
theorem trimmed_dropEnd (cs : List Char) : trimmed (dropEnd cs) = trimmed cs := by
  have hcut : ∀ c ∈ cs.rtakeWhile isBlank, isBlank c = true := fun c hc =>
    List.mem_rtakeWhile_imp hc
  rw [← trimmed_append_blanks (dropEnd cs) hcut]
  unfold dropEnd
  rw [List.rdropWhile_append_rtakeWhile]

/-- Trimming again cuts nothing. -/
@[simp]
theorem trimmed_trimmed (cs : List Char) : trimmed (trimmed cs) = trimmed cs := by
  rw [trimmed_eq cs, trimmed_dropEnd, trimmed_dropBlanks, trimmed_eq]

/-- What is left of a text is left, in front, of every text that begins with it. -/
theorem trimmed_prefix (cs more : List Char) : trimmed cs <+: trimmed (cs ++ more) := by
  rcases blank_or_split cs with hblank | ⟨left, c, right, rfl, hc⟩
  · rw [trimmed_eq_nil_iff.mpr hblank]
    exact List.nil_prefix
  · rw [List.append_assoc, List.cons_append, trimmed_append_cons hc, trimmed_append_cons hc,
      List.prefix_append_right_inj, List.cons_prefix_cons]
    exact ⟨rfl, dropEnd_prefix right more⟩

end Text
end Notebook
