import Mathlib.Data.Prod.Lex
import Notebook.Proofs.Text.Boundaries

/-!
# Offsets and positions

Both conversions find a start of the text.  An offset leads to the longest start that is not
longer than the offset, and its position is the number of lines of this start with the column
behind its last character.  A position leads to the longest start that ends on the line of the
position and not behind its column.  Where lines and columns fit into 32 bits, the two searches
find the same starts.

* `toOffset_ofOffset`: there and back, an offset moves to the boundary at or before it.
* `toOffset_clamps`: a position leads to the last boundary of its line that is not behind its
  column, and the position of this boundary leads there again.
* `ofOffset_monotone`: positions are in the order of their offsets, and equal where no
  character lies between them.
-/

set_option autoImplicit false

namespace Notebook

open Text

/-- All lines and columns of a text fit into 32 bits. -/
def Text.Addressable (cs : List Char) : Prop :=
  ∀ start, start <+: cs → lineCount start < UInt32.size ∧ endColumn start < UInt32.size

/-- A text that is shorter than the largest column is addressable. -/
theorem Text.addressable_of_units_lt {cs : List Char} (h : units cs < UInt32.size - 1) :
    Addressable cs := by
  intro start hstart
  have hunits := units_le_of_start hstart
  have hlines : start.count '\n' ≤ units start :=
    List.count_le_length.trans (length_le_units start)
  have hsplit := units_fullLines_add start
  unfold lineCount endColumn
  omega

namespace Position

/-- Line and column, compared line first. -/
def rank (p : Position) : ℕ ×ₗ ℕ :=
  toLex (p.line.toNat, p.column.toNat)

/-- The position at the end of a start of a text. -/
def ofStart (start : List Char) : Position :=
  ⟨saturate (lineCount start), saturate (endColumn start)⟩

theorem toNat_saturate {n : Nat} (h : n < UInt32.size) : (saturate n).toNat = n := by
  unfold saturate
  rw [Nat.min_eq_left (by omega)]
  exact UInt32.toNat_ofNat_of_lt' h

/-! ## The position of an offset -/

theorem walk_eq (limit : Nat) (before cs : List Char) :
    walk limit (lineCount before) (endColumn before) cs =
      (lineCount (before ++ takeUnits limit cs), endColumn (before ++ takeUnits limit cs)) := by
  induction cs generalizing limit before with
  | nil => simp [walk, takeUnits]
  | cons c rest ih =>
      unfold walk takeUnits
      split
      · rw [List.append_nil]
      · rw [List.append_cons]
        split
        · next hfeed =>
            subst hfeed
            rw [← ih, lineCount_concat_lineFeed, endColumn_concat_lineFeed]
        · next hfeed => rw [← ih, lineCount_concat hfeed, endColumn_concat hfeed]

/-- The position of an offset is the end of the longest start that is not longer. -/
theorem ofOffset_eq (text : String) (offset : Nat) :
    ofOffset text offset = ofStart (takeUnits offset text.toList) := by
  have hwalk := walk_eq offset [] text.toList
  rw [List.nil_append] at hwalk
  have hfirst : walk offset 1 1 text.toList =
    walk offset (lineCount []) (endColumn []) text.toList := rfl
  rw [ofOffset, hfirst, hwalk]
  rfl

variable {text : String} {start : List Char}

theorem ofOffset_units (h : start <+: text.toList) :
    ofOffset text (units start) = ofStart start := by
  rw [ofOffset_eq, takeUnits_units h]

theorem line_ofStart (htext : Addressable text.toList) (h : start <+: text.toList) :
    (ofStart start).line.toNat = lineCount start :=
  toNat_saturate (htext start h).1

theorem column_ofStart (htext : Addressable text.toList) (h : start <+: text.toList) :
    (ofStart start).column.toNat = endColumn start :=
  toNat_saturate (htext start h).2

/-! ## The offset of a position -/

/-- A position leads to the end of the longest start that ends on its line, or on the last
line of the text, and not behind its column. -/
theorem toOffset_eq (text : String) (p : Position) : ∃ start,
    start <+: text.toList ∧ toOffset text p = units start ∧
      lineCount start = min (max p.line.toNat 1) (lineCount text.toList) ∧
      endColumn start ≤ max p.column.toNat 1 ∧
      ∀ start', start' <+: text.toList → lineCount start' = lineCount start →
        endColumn start' ≤ max p.column.toNat 1 → start' <+: start := by
  obtain ⟨before, hsplit, hunits, hlines, hlast⟩ :=
    lineStart_eq (p.line.toNat - 1) text.toList
  have hoffset : toOffset text p = (lineStart (p.line.toNat - 1) text.toList).1 +
    fitting (p.column.toNat - 1)
      ((lineStart (p.line.toNat - 1) text.toList).2.takeWhile (· != '\n')) := rfl
  generalize (lineStart (p.line.toNat - 1) text.toList).2 = tail at hsplit hoffset
  generalize hline : tail.takeWhile (· != '\n') = line at hoffset
  rw [← hunits, ← units_takeUnits] at hoffset
  -- What a start has of the line is what its column counts.
  have hcolumn : ∀ more, more <+: line → lineCount (before ++ more) = lineCount before ∧
      endColumn (before ++ more) = units more + 1 := by
    intro more hmore
    have hfeed : '\n' ∉ more := by
      intro hmem
      have hne := List.mem_takeWhile_imp (hline ▸ hmore.subset hmem)
      simp at hne
    unfold endColumn
    rw [lineCount_append, List.count_eq_zero.mpr hfeed, lastLine_append before hfeed, hlast]
    exact ⟨rfl, rfl⟩
  have hlong := takeUnits_start (p.column.toNat - 1) line
  have hfits := units_takeUnits_le (p.column.toNat - 1) line
  obtain ⟨hcount, hend⟩ := hcolumn _ hlong
  refine ⟨_, ?_, hoffset.trans (units_append _ _).symm, by omega, by omega, ?_⟩
  · rw [hsplit, List.prefix_append_right_inj]
    exact hlong.trans (hline ▸ List.takeWhile_prefix _)
  · intro start' hstart' hcount' hend'
    obtain ⟨more, rfl, hmore⟩ :=
      exists_append_of_lineCount hlast (hsplit ▸ hstart') (hcount'.trans hcount)
    rw [hline] at hmore
    rw [(hcolumn more hmore).2] at hend'
    rw [List.prefix_append_right_inj]
    exact prefix_takeUnits hmore (by omega)

/-- The position of a boundary leads back to the boundary. -/
theorem toOffset_ofStart (htext : Addressable text.toList) (h : start <+: text.toList) :
    toOffset text (ofStart start) = units start := by
  obtain ⟨found, hfound, hoffset, hline, hcolumn, hlongest⟩ := toOffset_eq text (ofStart start)
  have hfirstLine : 1 ≤ lineCount start := Nat.le_add_left 1 _
  have hfirstColumn : 1 ≤ endColumn start := Nat.le_add_left 1 _
  rw [line_ofStart htext h, Nat.max_eq_left hfirstLine,
    Nat.min_eq_left (lineCount_le_of_start h)] at hline
  rw [column_ofStart htext h, Nat.max_eq_left hfirstColumn] at hcolumn hlongest
  have hle : start <+: found := hlongest start h hline.symm (Nat.le_refl _)
  rw [hoffset]
  by_cases heq : start = found
  · rw [heq]
  · exact absurd hcolumn (Nat.not_le_of_lt (endColumn_lt_of_start hle heq hline.symm))

/-! ## There and back -/

/-- An offset that is converted to a position and back moves to the last boundary at or before
it, or to the end of the text if it lies behind; a boundary stays where it is. -/
theorem toOffset_ofOffset (text : String) (offset : Nat)
    (h : units text.toList < UInt32.size - 1) :
    IsGreatest {b | IsBoundary text.toList b ∧ b ≤ min offset (units text.toList)}
        (toOffset text (ofOffset text offset)) ∧
      (IsBoundary text.toList offset → toOffset text (ofOffset text offset) = offset) := by
  have htext : Addressable text.toList := addressable_of_units_lt h
  have hback : toOffset text (ofOffset text offset) =
      units (takeUnits offset text.toList) := by
    rw [ofOffset_eq, toOffset_ofStart htext (takeUnits_start _ _)]
  have hgreatest := isGreatest_takeUnits offset text.toList
  have hset : {b | IsBoundary text.toList b ∧ b ≤ min offset (units text.toList)} =
      {b | IsBoundary text.toList b ∧ b ≤ offset} := by
    ext b
    refine and_congr_right fun ⟨start, hstart, hunits⟩ => ?_
    have hend := units_le_of_start hstart
    omega
  rw [hback, hset]
  refine ⟨hgreatest, fun hboundary => ?_⟩
  exact Nat.le_antisymm hgreatest.1.2 (hgreatest.2 ⟨hboundary, Nat.le_refl _⟩)

theorem toOffset_ofOffset_astral :
    let text := "a\r\n🌍b\n"
    units text.toList < UInt32.size - 1 ∧ IsBoundary text.toList 5 ∧
      IsGreatest {b | IsBoundary text.toList b ∧ b ≤ min 4 (units text.toList)}
        (toOffset text (ofOffset text 4)) ∧
      toOffset text (ofOffset text 5) = 5 := by
  intro text
  have hunits : units text.toList < UInt32.size - 1 := by decide
  have hboundary : IsBoundary text.toList 5 := ⟨['a', '\r', '\n', '🌍'], by decide, by decide⟩
  exact ⟨hunits, hboundary, (toOffset_ofOffset text 4 hunits).1,
    (toOffset_ofOffset text 5 hunits).2 hboundary⟩

/-! ## Positions out of range -/

/-- A position leads to the last boundary of its line, or of the last line, that is not behind
its column; zero counts as one.  In an addressable text the position of this boundary is on
that line, not behind the column, and leads to the boundary again. -/
theorem toOffset_clamps (text : String) (p : Position) :
    let line := min (max p.line.toNat 1) (lineCount text.toList)
    let back := ofOffset text (toOffset text p)
    ∃ first, IsLeast {n | OnLine text.toList line n} first ∧
      IsGreatest {n | OnLine text.toList line n ∧ n ≤ first + (max p.column.toNat 1 - 1)}
        (toOffset text p) ∧
      (Addressable text.toList →
        back.line.toNat = line ∧ back.column.toNat ≤ max p.column.toNat 1 ∧
          toOffset text back = toOffset text p) := by
  intro line back
  obtain ⟨start, hstart, hoffset, hline, hcolumn, hlongest⟩ := toOffset_eq text p
  have hfirst := isLeast_fullLines hstart
  rw [hline] at hfirst
  have hsplit := units_fullLines_add start
  unfold endColumn at hcolumn
  refine ⟨units (fullLines start), hfirst, ⟨⟨⟨start, hstart, hline, hoffset.symm⟩, ?_⟩, ?_⟩, ?_⟩
  · omega
  · rintro n ⟨⟨start', hstart', hline', rfl⟩, hle⟩
    rw [hoffset]
    have hfirst' := isLeast_fullLines hstart'
    rw [hline'] at hfirst'
    have hsplit' := units_fullLines_add start'
    have hsame := hfirst'.unique hfirst
    refine units_le_of_start (hlongest start' hstart' (hline'.trans hline.symm) ?_)
    unfold endColumn
    omega
  · intro htext
    have hback : back = ofStart start := by
      change ofOffset text (toOffset text p) = _
      rw [hoffset, ofOffset_units hstart]
    refine ⟨?_, ?_, ?_⟩
    · rw [hback, line_ofStart htext hstart, hline]
    · rw [hback, column_ofStart htext hstart]
      exact hcolumn
    · rw [hback, toOffset_ofStart htext hstart, hoffset]

theorem toOffset_clamps_far :
    let text := "a\r\n🌍b"
    let back := ofOffset text (toOffset text ⟨9, 3⟩)
    Addressable text.toList ∧ back.line.toNat = 2 ∧ back.column.toNat ≤ 3 ∧
      toOffset text back = toOffset text ⟨9, 3⟩ := by
  intro text back
  have htext : Addressable text.toList := addressable_of_units_lt (by decide)
  obtain ⟨_, _, _, hback⟩ := toOffset_clamps text ⟨9, 3⟩
  obtain ⟨hline, hcolumn, hagain⟩ := hback htext
  exact ⟨htext, hline.trans (by decide), hcolumn, hagain⟩

/-! ## The order of positions -/

/-- The end of a longer start is later. -/
theorem rank_lt_of_start {start' : List Char} (htext : Addressable text.toList)
    (h : start' <+: text.toList) (hle : start <+: start') (hne : start ≠ start') :
    (ofStart start).rank < (ofStart start').rank := by
  have hstart := hle.trans h
  unfold rank
  rw [Prod.Lex.toLex_lt_toLex, line_ofStart htext hstart, line_ofStart htext h,
    column_ofStart htext hstart, column_ofStart htext h]
  rcases Nat.lt_or_eq_of_le (lineCount_le_of_start hle) with hline | hline
  · exact Or.inl hline
  · exact Or.inr ⟨hline, endColumn_lt_of_start hle hne hline⟩

/-- Positions are in the order of their offsets, and two of them differ exactly if the
boundaries at or before the offsets do. -/
theorem ofOffset_monotone (text : String) (htext : Addressable text.toList) {o₁ o₂ : Nat}
    (hle : o₁ ≤ o₂) : ∃ b₁ b₂,
      IsGreatest {b | IsBoundary text.toList b ∧ b ≤ o₁} b₁ ∧
      IsGreatest {b | IsBoundary text.toList b ∧ b ≤ o₂} b₂ ∧
      (ofOffset text o₁).rank ≤ (ofOffset text o₂).rank ∧
      ((ofOffset text o₁).rank < (ofOffset text o₂).rank ↔ b₁ ≠ b₂) := by
  have hstart : takeUnits o₁ text.toList <+: takeUnits o₂ text.toList :=
    prefix_takeUnits (takeUnits_start _ _) ((units_takeUnits_le _ _).trans hle)
  refine ⟨_, _, isGreatest_takeUnits o₁ _, isGreatest_takeUnits o₂ _, ?_⟩
  rw [ofOffset_eq, ofOffset_eq]
  by_cases heq : takeUnits o₁ text.toList = takeUnits o₂ text.toList
  · rw [heq]
    exact ⟨le_refl _, by simp⟩
  · have hlt := rank_lt_of_start htext (takeUnits_start o₂ _) hstart heq
    have hunits := units_lt_of_start hstart heq
    exact ⟨hlt.le, fun _ => Nat.ne_of_lt hunits, fun _ => hlt⟩

theorem ofOffset_monotone_astral :
    let text := "a\r\n🌍b"
    Addressable text.toList ∧ 4 ≤ 5 ∧ ∃ b₁ b₂,
      IsGreatest {b | IsBoundary text.toList b ∧ b ≤ 4} b₁ ∧
      IsGreatest {b | IsBoundary text.toList b ∧ b ≤ 5} b₂ ∧
      (ofOffset text 4).rank ≤ (ofOffset text 5).rank ∧
      ((ofOffset text 4).rank < (ofOffset text 5).rank ↔ b₁ ≠ b₂) := by
  intro text
  have htext : Addressable text.toList := addressable_of_units_lt (by decide)
  exact ⟨htext, by decide, ofOffset_monotone text htext (by decide)⟩

end Position
end Notebook
