import Mathlib.Data.List.DropRight
import Mathlib.Data.List.Infix
import Mathlib.Order.Bounds.Basic
import Notebook.Position

/-!
# Boundaries and lines

The boundary of a character is where some start of the text ends, so boundaries are counted
by starts: a longer start has more units, and two starts of one text are comparable.  The
line of a boundary is the number of line feeds before it.

`takeUnits` is the longest start that fits into a number of units, and `fullLines` is what a
start has before its last line.  The two say what the searches of a text find.

* `isGreatest_takeUnits`: `fitting` gives the last boundary that is not past a limit.
* `isLeast_fullLines`: a line begins where the full lines before it end.
* `lineStart_eq`: `lineStart` finds the beginning of a line.
-/

set_option autoImplicit false

namespace Notebook
namespace Text

/-- A character of the text begins, or the text ends, after this many units. -/
def IsBoundary (cs : List Char) (n : Nat) : Prop :=
  ∃ start, start <+: cs ∧ units start = n

/-- The number of lines; a line feed ends one and begins another. -/
def lineCount (cs : List Char) : Nat :=
  cs.count '\n' + 1

/-- A boundary on a line, counted from 1: at its beginning, between two of its characters or
before the line feed that ends it. -/
def OnLine (cs : List Char) (line n : Nat) : Prop :=
  ∃ start, start <+: cs ∧ lineCount start = line ∧ units start = n

/-- The longest start of a text that has at most `limit` units. -/
def takeUnits (limit : Nat) : List Char → List Char
  | [] => []
  | c :: rest => if limit < width c then [] else c :: takeUnits (limit - width c) rest

/-- The lines of a text that are ended. -/
def fullLines (cs : List Char) : List Char :=
  cs.rdropWhile (· != '\n')

/-- The line of a text that is not ended. -/
def lastLine (cs : List Char) : List Char :=
  cs.rtakeWhile (· != '\n')

/-- The column behind the last character of a text, counted from 1. -/
def endColumn (cs : List Char) : Nat :=
  units (lastLine cs) + 1

variable {cs start start' : List Char}

/-! ## Units -/

theorem width_pos (c : Char) : 0 < width c := by
  unfold width
  split <;> decide

theorem width_lineFeed : width '\n' = 1 := rfl

theorem units_append (left right : List Char) :
    units (left ++ right) = units left + units right := by
  induction left with
  | nil => simp [units]
  | cons c rest ih => simp [units, ih, Nat.add_assoc]

theorem length_le_units (cs : List Char) : cs.length ≤ units cs := by
  induction cs with
  | nil => exact Nat.le_refl _
  | cons c rest ih =>
      have hwidth := width_pos c
      simp only [units, List.length_cons]
      omega

theorem units_pos (h : cs ≠ []) : 0 < units cs :=
  Nat.lt_of_lt_of_le (List.length_pos_iff.mpr h) (length_le_units cs)

theorem units_le_of_start (h : start <+: cs) : units start ≤ units cs := by
  obtain ⟨rest, rfl⟩ := h
  rw [units_append]
  exact Nat.le_add_right _ _

/-- A longer start has more units. -/
theorem units_lt_of_start (h : start <+: start') (hne : start ≠ start') :
    units start < units start' := by
  obtain ⟨rest, rfl⟩ := h
  have hrest : rest ≠ [] := by simpa using hne
  have hpos := units_pos hrest
  rw [units_append]
  omega

/-- A boundary belongs to one start. -/
theorem eq_of_units_eq (h : start <+: cs) (h' : start' <+: cs)
    (hunits : units start = units start') : start = start' := by
  refine Decidable.of_not_not fun hne => ?_
  rcases List.prefix_or_prefix_of_prefix h h' with hle | hle
  · exact absurd hunits (Nat.ne_of_lt (units_lt_of_start hle hne))
  · exact absurd hunits.symm (Nat.ne_of_lt (units_lt_of_start hle (Ne.symm hne)))

/-! ## The longest start that fits -/

theorem units_takeUnits (limit : Nat) (cs : List Char) :
    units (takeUnits limit cs) = fitting limit cs := by
  induction cs generalizing limit with
  | nil => rfl
  | cons c rest ih =>
      unfold takeUnits fitting
      split
      · rfl
      · simp only [units, ih]

theorem takeUnits_start (limit : Nat) (cs : List Char) : takeUnits limit cs <+: cs := by
  induction cs generalizing limit with
  | nil => exact List.prefix_rfl
  | cons c rest ih =>
      unfold takeUnits
      split
      · exact List.nil_prefix
      · exact List.cons_prefix_cons.mpr ⟨rfl, ih _⟩

theorem units_takeUnits_le (limit : Nat) (cs : List Char) :
    units (takeUnits limit cs) ≤ limit := by
  induction cs generalizing limit with
  | nil => exact Nat.zero_le _
  | cons c rest ih =>
      have htail := ih (limit - width c)
      unfold takeUnits
      split
      · exact Nat.zero_le _
      · simp only [units]
        omega

/-- Every start that fits is one of the longest start that fits. -/
theorem prefix_takeUnits (h : start <+: cs) {limit : Nat} (hle : units start ≤ limit) :
    start <+: takeUnits limit cs := by
  induction start generalizing cs limit with
  | nil => exact List.nil_prefix
  | cons c rest ih =>
      obtain ⟨more, rfl⟩ := h
      have hfits : width c + units rest ≤ limit := hle
      rw [List.cons_append, takeUnits, if_neg (by omega)]
      exact List.cons_prefix_cons.mpr ⟨rfl, ih (List.prefix_append _ _) (by omega)⟩

theorem takeUnits_units (h : start <+: cs) : takeUnits (units start) cs = start := by
  have hlong := prefix_takeUnits h (Nat.le_refl _)
  refine eq_of_units_eq (takeUnits_start _ cs) h ?_
  exact Nat.le_antisymm (units_takeUnits_le _ cs) (units_le_of_start hlong)

/-- The last boundary that is not past a limit. -/
theorem isGreatest_takeUnits (limit : Nat) (cs : List Char) :
    IsGreatest {b | IsBoundary cs b ∧ b ≤ limit} (units (takeUnits limit cs)) := by
  refine ⟨⟨⟨_, takeUnits_start limit cs, rfl⟩, units_takeUnits_le limit cs⟩, ?_⟩
  rintro b ⟨⟨start, hstart, rfl⟩, hle⟩
  exact units_le_of_start (prefix_takeUnits hstart hle)

/-! ## Lines -/

theorem bne_lineFeed (h : '\n' ∉ cs) : ∀ c ∈ cs, (c != '\n') = true := by
  intro c hc
  rw [bne_iff_ne]
  rintro rfl
  exact h hc

theorem lineCount_append (left right : List Char) :
    lineCount (left ++ right) = lineCount left + right.count '\n' := by
  unfold lineCount
  rw [List.count_append]
  omega

theorem lineCount_le_of_start (h : start <+: cs) : lineCount start ≤ lineCount cs :=
  Nat.succ_le_succ (h.sublist.count_le '\n')

theorem fullLines_append_lastLine (cs : List Char) : fullLines cs ++ lastLine cs = cs :=
  List.rdropWhile_append_rtakeWhile

theorem fullLines_start (cs : List Char) : fullLines cs <+: cs :=
  List.rdropWhile_prefix _ cs

theorem fullLines_eq_self (h : lastLine cs = []) : fullLines cs = cs := by
  have hsplit := fullLines_append_lastLine cs
  rwa [h, List.append_nil] at hsplit

theorem units_fullLines_add (cs : List Char) :
    units (fullLines cs) + units (lastLine cs) = units cs := by
  rw [← units_append, fullLines_append_lastLine]

theorem lineFeed_notMem_lastLine (cs : List Char) : '\n' ∉ lastLine cs := by
  intro h
  have hne := List.mem_rtakeWhile_imp h
  simp at hne

theorem lineCount_fullLines (cs : List Char) : lineCount (fullLines cs) = lineCount cs := by
  have hcs := lineCount_append (fullLines cs) (lastLine cs)
  rw [fullLines_append_lastLine, List.count_eq_zero.mpr (lineFeed_notMem_lastLine cs)] at hcs
  exact hcs.symm

theorem lastLine_concat_lineFeed (cs : List Char) : lastLine (cs ++ ['\n']) = [] :=
  List.rtakeWhile_concat_neg _ _ _ (by simp)

theorem lastLine_concat {c : Char} (h : c ≠ '\n') (cs : List Char) :
    lastLine (cs ++ [c]) = lastLine cs ++ [c] :=
  List.rtakeWhile_concat_pos _ _ _ (by simpa using h)

theorem lastLine_append (left : List Char) {right : List Char} (h : '\n' ∉ right) :
    lastLine (left ++ right) = lastLine left ++ right := by
  induction right using List.reverseRecOn with
  | nil => simp
  | append_singleton right c ih =>
      rw [List.mem_append, not_or, List.mem_singleton] at h
      rw [← List.append_assoc, lastLine_concat (Ne.symm h.2), ih h.1, List.append_assoc]

theorem lastLine_append_lineFeed (left right : List Char) :
    lastLine (left ++ '\n' :: right) = lastLine right := by
  induction right using List.reverseRecOn with
  | nil => exact lastLine_concat_lineFeed left
  | append_singleton right c ih =>
      rw [← List.cons_append, ← List.append_assoc]
      by_cases h : c = '\n'
      · rw [h, lastLine_concat_lineFeed, lastLine_concat_lineFeed]
      · rw [lastLine_concat h, lastLine_concat h, ih]

/-- Full lines end with a line feed, so a start of them has fewer lines. -/
theorem lineCount_lt_fullLines (h : start <+: fullLines cs) (hne : start ≠ fullLines cs) :
    lineCount start < lineCount (fullLines cs) := by
  obtain ⟨rest, hrest⟩ := h
  have hrest_ne : rest ≠ [] := by simpa [← hrest] using hne
  have hfull : start ++ rest ≠ [] := List.append_ne_nil_of_right_ne_nil start hrest_ne
  have hlast : (start ++ rest).getLast hfull = '\n' := by
    have hcut : fullLines cs ≠ [] := hrest ▸ hfull
    have hstop := List.rdropWhile_last_not (· != '\n') cs hcut
    rw [bne_iff_ne, not_not] at hstop
    exact (List.getLast_congr hfull hcut hrest).trans hstop
  have hmem : '\n' ∈ rest := by
    rw [← hlast, List.getLast_append_of_ne_nil _ hrest_ne]
    exact List.getLast_mem hrest_ne
  have hcount := List.count_pos_iff.mpr hmem
  rw [← hrest, lineCount_append]
  omega

/-- What has as many lines as a start has the full lines of this start in front. -/
theorem fullLines_prefix_of_lineCount (h : start <+: cs) (h' : start' <+: cs)
    (hline : lineCount start' = lineCount start) : fullLines start <+: start' := by
  have hfull : fullLines start <+: cs := (fullLines_start start).trans h
  rcases List.prefix_or_prefix_of_prefix hfull h' with hle | hle
  · exact hle
  · refine Decidable.of_not_not fun hnot => ?_
    have hlt := lineCount_lt_fullLines hle fun heq => hnot (heq ▸ List.prefix_rfl)
    rw [lineCount_fullLines, hline] at hlt
    exact Nat.lt_irrefl _ hlt

/-- A line begins where the full lines before it end. -/
theorem isLeast_fullLines (h : start <+: cs) :
    IsLeast {n | OnLine cs (lineCount start) n} (units (fullLines start)) := by
  refine ⟨⟨_, (fullLines_start start).trans h, lineCount_fullLines start, rfl⟩, ?_⟩
  rintro n ⟨start', hstart', hline, rfl⟩
  exact units_le_of_start (fullLines_prefix_of_lineCount h hstart' hline)

/-! ## Ends -/

theorem lineCount_concat_lineFeed (cs : List Char) :
    lineCount (cs ++ ['\n']) = lineCount cs + 1 :=
  lineCount_append cs ['\n']

theorem lineCount_concat {c : Char} (h : c ≠ '\n') (cs : List Char) :
    lineCount (cs ++ [c]) = lineCount cs := by
  rw [lineCount_append, List.count_eq_zero.mpr (by simpa using Ne.symm h), Nat.add_zero]

theorem endColumn_concat_lineFeed (cs : List Char) : endColumn (cs ++ ['\n']) = 1 := by
  unfold endColumn
  rw [lastLine_concat_lineFeed]
  rfl

theorem endColumn_concat {c : Char} (h : c ≠ '\n') (cs : List Char) :
    endColumn (cs ++ [c]) = endColumn cs + width c := by
  unfold endColumn
  rw [lastLine_concat h, units_append, Nat.add_right_comm]
  rfl

/-- A longer start ends on a later line or at a later column. -/
theorem endColumn_lt_of_start (h : start <+: start') (hne : start ≠ start')
    (hline : lineCount start = lineCount start') : endColumn start < endColumn start' := by
  obtain ⟨rest, rfl⟩ := h
  have hfeed : '\n' ∉ rest := by
    rw [lineCount_append] at hline
    exact List.count_eq_zero.mp (by omega)
  have hrest : rest ≠ [] := by simpa using hne
  have hpos := units_pos hrest
  unfold endColumn
  rw [lastLine_append start hfeed, units_append]
  omega

/-- A start that ends on a line has the full lines before it in front, and then a start of
the line. -/
theorem exists_append_of_lineCount {before tail : List Char} (hlast : lastLine before = [])
    (h : start <+: before ++ tail) (hline : lineCount start = lineCount before) :
    ∃ more, start = before ++ more ∧ more <+: tail.takeWhile (· != '\n') := by
  have hfull := fullLines_prefix_of_lineCount (List.prefix_append before tail) h hline
  rw [fullLines_eq_self hlast] at hfull
  obtain ⟨more, rfl⟩ := hfull
  rw [List.prefix_append_right_inj] at h
  obtain ⟨rest, rfl⟩ := h
  rw [lineCount_append] at hline
  have hmore : '\n' ∉ more := List.count_eq_zero.mp (by omega)
  refine ⟨more, rfl, ?_⟩
  rw [List.takeWhile_append_of_pos (bne_lineFeed hmore)]
  exact List.prefix_append more _

/-! ## The search for a line -/

theorem lineStart_of_notMem (skip : Nat) (h : '\n' ∉ cs) : lineStart (skip + 1) cs = (0, cs) := by
  have hend : cs.dropWhile (· != '\n') = [] := by
    rw [List.dropWhile_eq_nil_iff]
    exact bne_lineFeed h
  simp only [lineStart, hend]

theorem lineStart_append (skip : Nat) {line : List Char} (h : '\n' ∉ line) (rest : List Char) :
    lineStart (skip + 1) (line ++ '\n' :: rest) =
      (units line + 1 + (lineStart skip rest).1, (lineStart skip rest).2) := by
  have htake : (line ++ '\n' :: rest).takeWhile (· != '\n') = line := by
    rw [List.takeWhile_append_of_pos (bne_lineFeed h)]
    simp
  have hdrop : (line ++ '\n' :: rest).dropWhile (· != '\n') = '\n' :: rest := by
    rw [List.dropWhile_append_of_pos (bne_lineFeed h)]
    simp
  simp only [lineStart, htake, hdrop]

/-- The search for a line finds where it begins; past the last line it finds the last. -/
theorem lineStart_eq (skip : Nat) (cs : List Char) : ∃ before,
    cs = before ++ (lineStart skip cs).2 ∧ units before = (lineStart skip cs).1 ∧
      lineCount before = min (skip + 1) (lineCount cs) ∧ lastLine before = [] := by
  induction skip generalizing cs with
  | zero => exact ⟨[], rfl, rfl, by simp [lineCount], rfl⟩
  | succ skip ih =>
      by_cases hfeed : '\n' ∈ cs
      · obtain ⟨line, rest, rfl, hline⟩ := List.eq_append_cons_of_mem hfeed
        obtain ⟨before, hbefore, hunits, hcount, hlast⟩ := ih rest
        rw [lineStart_append skip hline]
        have hlines : ∀ more, lineCount (line ++ '\n' :: more) = lineCount more + 1 := by
          intro more
          simp [lineCount, List.count_eq_zero.mpr hline]
        refine ⟨line ++ '\n' :: before, ?_, ?_, ?_, ?_⟩
        · rw [List.append_assoc, List.cons_append, ← hbefore]
        · rw [units_append, units, width_lineFeed, hunits]
          omega
        · rw [hlines, hlines, hcount]
          omega
        · rw [lastLine_append_lineFeed, hlast]
      · rw [lineStart_of_notMem skip hfeed]
        refine ⟨[], rfl, rfl, ?_, rfl⟩
        simp [lineCount, List.count_eq_zero.mpr hfeed]

end Text
end Notebook
