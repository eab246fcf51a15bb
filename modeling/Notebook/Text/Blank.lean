/-!
# Blank characters

The characters with the Unicode property `White_Space`, and cutting them off both
ends of a text.  Filenames and the lines of the analysis service are trimmed with
this class; it is wider than the four characters that JSON skips.
-/

namespace Notebook
namespace Text

/-- The characters of the property `White_Space`. -/
def isBlank (c : Char) : Bool :=
  (0x09 ≤ c.toNat && c.toNat ≤ 0x0D) || c.toNat == 0x20 || c.toNat == 0x85 ||
    c.toNat == 0xA0 || c.toNat == 0x1680 ||
    (0x2000 ≤ c.toNat && c.toNat ≤ 0x200A) || c.toNat == 0x2028 ||
    c.toNat == 0x2029 || c.toNat == 0x202F || c.toNat == 0x205F ||
    c.toNat == 0x3000

/-- What is left of a text after its leading blanks. -/
def dropBlanks (cs : List Char) : List Char :=
  cs.dropWhile isBlank

/-- A text without the blanks at its two ends. -/
def trimmed (cs : List Char) : List Char :=
  (dropBlanks (dropBlanks cs).reverse).reverse

/-- A string without the blanks at its two ends. -/
def trim (s : String) : String :=
  String.ofList (trimmed s.toList)

/-- Every character that the core library counts as whitespace is blank. -/
theorem isBlank_of_isWhitespace {c : Char} (h : c.isWhitespace) : isBlank c := by
  simp only [Char.isWhitespace, Bool.or_eq_true, decide_eq_true_eq] at h
  rcases h with ((rfl | rfl) | rfl) | rfl <;> decide

theorem mem_of_mem_trimmed {c : Char} {cs : List Char} (h : c ∈ trimmed cs) :
    c ∈ cs := by
  have h₁ := List.mem_reverse.mp h
  have h₂ := (List.dropWhile_suffix _).subset h₁
  exact (List.dropWhile_suffix _).subset (List.mem_reverse.mp h₂)

end Text
end Notebook
