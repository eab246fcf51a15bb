import Mathlib.Tactic.SplitIfs
import Notebook.Proofs.Text.Bytes

/-!
# The order of texts

Texts are ordered by their characters.  The first byte of a character tells how many there are,
more of them for greater characters, and the others are its digits; so characters have the same
order as their bytes, and texts as well.

* `utf8EncodeChar_append_lt`: the bytes of a smaller character, whatever follows.
* `utf8Encode_lt`, `bytes_lt`: the bytes of a smaller text.
-/

set_option autoImplicit false

namespace Notebook
namespace Text

/-- The bytes of a text in order. -/
def bytes (s : String) : List UInt8 :=
  s.toUTF8.data.toList

/-- Lists of bytes in order, if so are the first bytes, or if these are the same and what follows
is in order. -/
theorem ofNat_cons_lt {m n : Nat} {l l' : List UInt8} (hn : n < 256) (hle : m ≤ n)
    (hrest : m = n → l < l') : UInt8.ofNat m :: l < UInt8.ofNat n :: l' := by
  rw [List.cons_lt_cons_iff]
  rcases Nat.lt_or_eq_of_le hle with hlt | heq
  · left
    rw [UInt8.lt_iff_toNat_lt, UInt8.toNat_ofNat_of_lt' (Nat.lt_trans hlt hn),
      UInt8.toNat_ofNat_of_lt' hn]
    exact hlt
  · exact Or.inr ⟨congrArg UInt8.ofNat heq, hrest heq⟩

/-- A smaller first byte decides. -/
theorem ofNat_cons_lt_of_lt {m n : Nat} (hn : n < 256) (hlt : m < n) (l l' : List UInt8) :
    UInt8.ofNat m :: l < UInt8.ofNat n :: l' :=
  ofNat_cons_lt hn (Nat.le_of_lt hlt) fun heq => absurd heq (Nat.ne_of_lt hlt)

/-- The bytes of a smaller character come first, whatever follows. -/
theorem utf8EncodeChar_append_lt {c d : Char} (h : c < d) (l l' : List UInt8) :
    String.utf8EncodeChar c ++ l < String.utf8EncodeChar d ++ l' := by
  have hvalue : c.val.toNat < d.val.toNat := UInt32.lt_iff_toNat_lt.mp (Char.lt_def.mp h)
  have hvalid : d.val.toNat < 0xD800 ∨ 0xDFFF < d.val.toNat ∧ d.val.toNat < 0x110000 := d.valid
  rw [String.utf8EncodeChar.eq_1 c, String.utf8EncodeChar.eq_1 d]
  generalize c.val.toNat = m, d.val.toNat = n at hvalue hvalid
  -- A greater character is not written with fewer bytes; with more, its first byte is greater.
  split_ifs
  all_goals try omega
  · exact ofNat_cons_lt_of_lt (by omega) hvalue _ _
  · exact ofNat_cons_lt_of_lt (by omega) (by omega) _ _
  · exact ofNat_cons_lt_of_lt (by omega) (by omega) _ _
  · exact ofNat_cons_lt_of_lt (by omega) (by omega) _ _
  · refine ofNat_cons_lt (by omega) (by omega) fun h₁ => ?_
    exact ofNat_cons_lt_of_lt (by omega) (by omega) _ _
  · exact ofNat_cons_lt_of_lt (by omega) (by omega) _ _
  · exact ofNat_cons_lt_of_lt (by omega) (by omega) _ _
  · refine ofNat_cons_lt (by omega) (by omega) fun h₁ => ?_
    refine ofNat_cons_lt (by omega) (by omega) fun h₂ => ?_
    exact ofNat_cons_lt_of_lt (by omega) (by omega) _ _
  · exact ofNat_cons_lt_of_lt (by omega) (by omega) _ _
  · refine ofNat_cons_lt (by omega) (by omega) fun h₁ => ?_
    refine ofNat_cons_lt (by omega) (by omega) fun h₂ => ?_
    refine ofNat_cons_lt (by omega) (by omega) fun h₃ => ?_
    exact ofNat_cons_lt_of_lt (by omega) (by omega) _ _

theorem utf8EncodeChar_ne_nil (c : Char) : String.utf8EncodeChar c ≠ [] := by
  rw [String.utf8EncodeChar.eq_1]
  split_ifs <;> nofun

/-- The bytes of a smaller text come first. -/
theorem utf8Encode_lt {cs ds : List Char} (h : cs < ds) :
    cs.flatMap String.utf8EncodeChar < ds.flatMap String.utf8EncodeChar := by
  induction cs generalizing ds with
  | nil =>
      cases ds with
      | nil => exact absurd h (List.lt_irrefl [])
      | cons d ds =>
          obtain ⟨byte, others, hd⟩ := List.exists_cons_of_ne_nil (utf8EncodeChar_ne_nil d)
          rw [List.flatMap_cons, hd]
          exact List.nil_lt_cons byte _
  | cons c cs ih =>
      cases ds with
      | nil => exact absurd h (List.not_lt_nil _)
      | cons d ds =>
          rw [List.flatMap_cons, List.flatMap_cons]
          rcases List.cons_lt_cons_iff.mp h with hlt | ⟨rfl, hrest⟩
          · exact utf8EncodeChar_append_lt hlt _ _
          · exact List.append_left_lt (ih hrest)

theorem bytes_ofList (cs : List Char) :
    bytes (String.ofList cs) = cs.flatMap String.utf8EncodeChar := by
  rw [bytes, toUTF8_ofList, List.utf8Encode, List.data_toByteArray]

/-- Texts are ordered as their bytes. -/
theorem bytes_lt {s t : String} (h : s < t) : bytes s < bytes t := by
  rw [← String.ofList_toList (s := s), ← String.ofList_toList (s := t), bytes_ofList, bytes_ofList]
  exact utf8Encode_lt h

end Text
end Notebook
