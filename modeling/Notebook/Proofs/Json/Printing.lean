import Notebook.Json.Basic
import Mathlib.Data.List.Basic

/-!
# The compact text of a value

The text of a value has no control characters: those of a string are escaped, and numbers are
written with digits, points, signs and the letter `e`.  In particular it stands on one line.

* `Plain`: a text without control characters.
* `plain_chars`: the text of a value is one.
-/

set_option autoImplicit false

namespace Notebook
namespace Json

/-- A text without control characters. -/
def Plain (cs : List Char) : Prop :=
  ∀ c ∈ cs, 0x20 ≤ c.toNat

@[simp]
theorem plain_nil : Plain [] :=
  nofun

@[simp]
theorem plain_cons (c : Char) (cs : List Char) :
    Plain (c :: cs) ↔ 0x20 ≤ c.toNat ∧ Plain cs :=
  List.forall_mem_cons

@[simp]
theorem plain_append (cs cs' : List Char) : Plain (cs ++ cs') ↔ Plain cs ∧ Plain cs' :=
  List.forall_mem_append

theorem Plain.subset {cs cs' : List Char} (h : Plain cs) (hsub : cs' ⊆ cs) : Plain cs' :=
  fun c hc => h c (hsub hc)

/-- A plain text stands on one line. -/
theorem Plain.lineEnd {cs : List Char} (h : Plain cs) : '\n' ∉ cs :=
  fun hmem => absurd (h _ hmem) (by decide)

/-! ## Numbers -/

theorem plain_digitChar : ∀ d < 16, 0x20 ≤ d.digitChar.toNat := by
  decide

/-- The digits of a number in a base up to sixteen. -/
theorem plain_digits {b : Nat} (hb : 1 < b) (hsixteen : b ≤ 16) (n : Nat) :
    Plain (Nat.toDigits b n) := by
  induction n using Nat.strongRecOn with
  | _ n ih =>
      rw [Nat.toDigits_eq_if hb]
      split
      · next hlt => simp [plain_digitChar n (by omega)]
      · next hle =>
          have hlast : n % b < 16 := Nat.lt_of_lt_of_le (Nat.mod_lt n (by omega)) hsixteen
          simp [ih (n / b) (Nat.div_lt_self (by omega) hb), plain_digitChar _ hlast]

theorem plain_toDigits (n : Nat) : Plain (Nat.toDigits 10 n) :=
  plain_digits (by decide) (by decide) n

theorem plain_integerText (i : Int) : Plain (integerText i) := by
  unfold integerText
  split
  · simp [plain_toDigits]
  · exact plain_toDigits _

theorem plain_zeros (n : Nat) : Plain (List.replicate n '0') := by
  intro c hc
  rw [List.eq_of_mem_replicate hc]
  decide

theorem plain_repr (i : Int) : Plain i.repr.toList := by
  cases i with
  | ofNat n =>
      change Plain (String.ofList (Nat.toDigits 10 n)).toList
      rw [String.toList_ofList]
      exact plain_toDigits n
  | negSucc n =>
      change Plain ("-" ++ String.ofList (Nat.toDigits 10 (n + 1))).toList
      rw [String.toList_append, plain_append]
      refine ⟨by simp, ?_⟩
      rw [String.toList_ofList]
      exact plain_toDigits (n + 1)

theorem plain_decimal (d : Binary64.Decimal) : Plain d.text := by
  have hdigits := plain_toDigits d.digits
  unfold Binary64.Decimal.text
  simp only
  split
  · simp [hdigits, Binary64.zeros, plain_zeros]
  · split
    · simp [hdigits.subset (List.take_subset _ _), hdigits.subset (List.drop_subset _ _)]
    · split
      · simp [hdigits, Binary64.zeros, plain_zeros]
      · split
        · next heq =>
            rw [heq] at hdigits
            simpa [plain_repr] using hdigits
        · next heq =>
            rw [heq] at hdigits
            simpa [plain_repr] using hdigits
        · exact plain_nil

theorem plain_number (n : Number) : Plain n.text := by
  cases n with
  | integer i => exact plain_integerText i
  | float x =>
      simp only [Number.text, Binary64.text]
      split <;> split <;> simp [plain_decimal]

/-! ## Strings -/

theorem plain_hexadecimal (n : Nat) : Plain (hexadecimal n) := by
  simp [hexadecimal, plain_zeros, plain_digits]

theorem plain_escaped (c : Char) : Plain (escaped c) := by
  by_cases hcontrol : c.toNat < 0x20
  · unfold escaped
    split_ifs <;> simp [plain_hexadecimal]
  · unfold escaped
    split_ifs <;> simp [Nat.le_of_not_lt hcontrol]

theorem plain_quoted (s : String) : Plain (quoted s) := by
  have hbody : Plain (s.toList.flatMap escaped) := by
    intro c hc
    obtain ⟨x, _, hx⟩ := List.mem_flatMap.mp hc
    exact plain_escaped x c hx
  simp [quoted, hbody]

/-! ## Values -/

mutual

/-- The text of a value has no control characters. -/
theorem plain_chars : ∀ v : Json, Plain v.chars
  | .null => by simp [chars]
  | .bool true => by simp [chars]
  | .bool false => by simp [chars]
  | .number n => plain_number n
  | .string s => plain_quoted s
  | .array items => by simp [chars, plain_itemChars items]
  | .object fields => by simp [chars, plain_fieldChars fields]

theorem plain_itemChars : ∀ items : List Json, Plain (itemChars items)
  | [] => plain_nil
  | [item] => plain_chars item
  | item :: next :: rest => by
      simp [itemChars, plain_chars item, plain_itemChars (next :: rest)]

theorem plain_fieldChars : ∀ fields : List (String × Json), Plain (fieldChars fields)
  | [] => plain_nil
  | [(name, value)] => by simp [fieldChars, plain_quoted, plain_chars value]
  | (name, value) :: next :: rest => by
      simp [fieldChars, plain_quoted, plain_chars value, plain_fieldChars (next :: rest)]

end

end Json
end Notebook
