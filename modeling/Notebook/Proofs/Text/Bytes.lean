import Mathlib.Data.List.Basic
import Notebook.Text.Blank

/-!
# Texts as bytes

A text has one form as bytes, and the bytes that a text begins with are those of the text that
it begins with, if they are those of a text at all.  The byte that ends a line is part of no
other character.

* `prefix_of_fromUTF8?`: bytes that go on write a text that goes on.
* `lineEnd_mem_utf8Encode`: only a line end is written with the byte of a line end.
-/

set_option autoImplicit false

namespace Notebook
namespace Text

theorem fromUTF8?_toUTF8 (s : String) : String.fromUTF8? s.toUTF8 = some s := by
  unfold String.fromUTF8?
  rw [String.toUTF8_eq_toByteArray, dif_pos s.isValidUTF8]
  rfl

theorem toUTF8_of_fromUTF8? {bytes : ByteArray} {s : String}
    (h : String.fromUTF8? bytes = some s) : s.toUTF8 = bytes := by
  unfold String.fromUTF8? at h
  split at h
  · obtain rfl := Option.some.inj h
    rfl
  · cases h

theorem toUTF8_ofList (cs : List Char) : (String.ofList cs).toUTF8 = cs.utf8Encode :=
  String.toUTF8_eq_toByteArray.trans String.toByteArray_ofList

theorem fromUTF8?_utf8Encode (cs : List Char) :
    String.fromUTF8? cs.utf8Encode = some (String.ofList cs) := by
  rw [← toUTF8_ofList, fromUTF8?_toUTF8]

/-- Bytes that go on write a text that goes on. -/
theorem prefix_of_fromUTF8? {bytes more : ByteArray} {s t : String}
    (hs : String.fromUTF8? bytes = some s) (ht : String.fromUTF8? (bytes ++ more) = some t) :
    s.toList <+: t.toList := by
  refine List.isPrefix_of_utf8Encode_append_eq_utf8Encode more ?_
  rw [String.utf8Encode_toList, String.utf8Encode_toList, ← String.toUTF8_eq_toByteArray,
    ← String.toUTF8_eq_toByteArray, toUTF8_of_fromUTF8? hs, toUTF8_of_fromUTF8? ht]

/-! ## Line ends -/

/-- Only a line end is written with the byte of a line end. -/
theorem lineEnd_mem_utf8EncodeChar {c : Char} (h : 0x0A ∈ String.utf8EncodeChar c) :
    c = '\n' := by
  have hbyte : ∀ n : Nat, n < 256 → (0x0A : UInt8) = UInt8.ofNat n → n = 0x0A := by
    intro n hn heq
    have htoNat := congrArg UInt8.toNat heq
    rw [UInt8.toNat_ofNat_of_lt' hn] at htoNat
    exact htoNat.symm
  rw [String.utf8EncodeChar.eq_1] at h
  split at h
  · have hvalue := hbyte _ (by omega) (List.mem_singleton.mp h)
    exact Char.ext (UInt32.toNat_inj.mp hvalue)
  · -- All bytes of a longer form are at least `0x80`.
    exfalso
    split at h
    · simp only [List.mem_cons, List.not_mem_nil, or_false] at h
      rcases h with h | h <;> exact absurd (hbyte _ (by omega) h) (by omega)
    · split at h
      · simp only [List.mem_cons, List.not_mem_nil, or_false] at h
        rcases h with h | h | h <;> exact absurd (hbyte _ (by omega) h) (by omega)
      · simp only [List.mem_cons, List.not_mem_nil, or_false] at h
        rcases h with h | h | h | h <;> exact absurd (hbyte _ (by omega) h) (by omega)

theorem lineEnd_mem_utf8Encode {cs : List Char} (h : 0x0A ∈ cs.utf8Encode.data.toList) :
    '\n' ∈ cs := by
  rw [List.utf8Encode, List.data_toByteArray, List.mem_flatMap] at h
  obtain ⟨c, hc, hbyte⟩ := h
  exact lineEnd_mem_utf8EncodeChar hbyte ▸ hc

end Text
end Notebook
