import Notebook.Proofs.Process.Runs
import Notebook.Proofs.Text.Bytes
import Notebook.Proofs.Text.Decoding

/-!
# Output that arrives in pieces

As long as no flaw has been met, the text that has been passed on is what the decoder makes of
the bytes read so far, and what is held back is what the decoder holds back.  So the pieces of a
text are passed on exactly, and nothing of them is kept longer than needed.

A piece that shows a flaw is passed on as a whole.  If it ends inside a character and the
character goes on in the next piece, then the character is lost, since its two parts are
replaced apart from each other: the pieces *cut* it.  Nothing else can go wrong.

* `chunks_exact`: the pieces of a text are passed on as the text, and at most three bytes are
  held back in between.
* `join_chunks_eq_lossy_iff`: other pieces are passed on as their bytes are decoded, exactly if
  they cut no character.
* `chunks_cut_character`: pieces that cut one.
-/

set_option autoImplicit false

namespace Notebook
namespace Stream

open Utf8 (Partial lossyFrom replacement)

/-- The text that is passed on for pieces up to the end of the output. -/
def text (tail : Option Partial) (pieces : List (List UInt8)) : List Char :=
  (chunks tail pieces).flatMap String.toList

/-- A piece shows a flaw and ends inside a character, and the bytes after it go on with the
character. -/
def Cuts (tail : Option Partial) : List (List UInt8) → Prop
  | [] => False
  | piece :: rest =>
    ((Utf8.scan tail piece).flawed = true ∧ ∃ p ∈ (Utf8.scan tail piece).tail,
      ∃ b ∈ rest.flatten.head?, p.GoesOn b) ∨ Cuts (keep tail piece) rest

/-! ## Texts -/

theorem flatMap_chunk? (text : List Char) :
    (chunk? text).toList.flatMap String.toList = text := by
  unfold chunk?
  split
  · next h => rw [List.isEmpty_iff.mp h]; rfl
  · simp

theorem ne_empty_of_mem_chunk? {text : List Char} {chunk : String}
    (h : chunk ∈ (chunk? text).toList) : chunk ≠ "" := by
  rw [Option.mem_toList, chunk?] at h
  split at h
  · cases h
  · next hne =>
      obtain rfl := Option.some.inj h
      rintro hempty
      have htext := congrArg String.toList hempty
      rw [String.toList_ofList] at htext
      exact hne (List.isEmpty_iff.mpr htext)

theorem take_of_clean {tail : Option Partial} {piece : List UInt8}
    (h : (Utf8.scan tail piece).flawed = false) :
    take tail piece = (chunk? (Utf8.scan tail piece).text, (Utf8.scan tail piece).tail) := by
  rw [take]
  simp only [h, Bool.false_eq_true, if_false]

theorem take_of_flawed {tail : Option Partial} {piece : List UInt8}
    (h : (Utf8.scan tail piece).flawed = true) :
    take tail piece = (chunk? (Utf8.scan tail piece).closed, none) := by
  rw [take]
  simp only [h, if_true]

theorem chunks_cons (tail : Option Partial) (piece : List UInt8) (rest : List (List UInt8)) :
    chunks tail (piece :: rest) =
      (take tail piece).1.toList ++ chunks (keep tail piece) rest := rfl

/-- No text that is passed on is empty. -/
theorem ne_empty_of_mem_chunks {tail : Option Partial} {pieces : List (List UInt8)}
    {chunk : String} (h : chunk ∈ chunks tail pieces) : chunk ≠ "" := by
  induction pieces generalizing tail with
  | nil => exact ne_empty_of_mem_chunk? h
  | cons piece rest ih =>
      rw [chunks_cons, List.mem_append] at h
      rcases h with hfirst | hrest
      · cases hflawed : (Utf8.scan tail piece).flawed with
        | false =>
            rw [take_of_clean hflawed] at hfirst
            exact ne_empty_of_mem_chunk? hfirst
        | true =>
            rw [take_of_flawed hflawed] at hfirst
            exact ne_empty_of_mem_chunk? hfirst
      · exact ih hrest

/-! ## Pieces without a flaw -/

/-- Without a flaw, what the decoder makes of the bytes is passed on at once. -/
theorem passed_of_clean {read : List (List UInt8)}
    (h : (Utf8.scan none read.flatten).flawed = false) :
    (passed read).flatMap String.toList = (Utf8.scan none read.flatten).text ∧
      kept read = (Utf8.scan none read.flatten).tail := by
  induction read using List.reverseRecOn with
  | nil => exact ⟨rfl, rfl⟩
  | append_singleton read piece ih =>
      rw [List.flatten_append, List.flatten_singleton] at h ⊢
      obtain ⟨hread, hpiece⟩ := Utf8.flawed_of_append h
      obtain ⟨htext, htail⟩ := ih hread
      rw [← htail] at hpiece
      rw [passed_snoc, kept_snoc, take_of_clean hpiece, List.flatMap_append, htext,
        flatMap_chunk?, Utf8.scan_append, Utf8.Scan.text_append, htail]
      exact ⟨rfl, rfl⟩

theorem prefix_passed {read pieces : List (List UInt8)} (h : read <+: pieces) :
    passed read <+: passed pieces := by
  obtain ⟨rest, rfl⟩ := h
  exact ⟨_, (gather_append keep _ none read rest).symm⟩

theorem toUTF8_toList (s : String) : s.toUTF8.data.toList = Utf8.encode s.toList := by
  rw [← String.ofList_toList (s := s), Text.toUTF8_ofList, String.toList_ofList, List.utf8Encode,
    List.data_toByteArray]
  rfl

/-- However the bytes of a text are cut into pieces, the text is passed on, in texts that are
not empty.  After each piece everything has been passed on but the start of one more character,
of at most three bytes: what is passed on begins with every text whose bytes have been read. -/
theorem chunks_exact (s : String) (pieces : List (List UInt8))
    (hbytes : pieces.flatten = s.toUTF8.data.toList) :
    String.join (chunks none pieces) = s ∧ (∀ chunk ∈ chunks none pieces, chunk ≠ "") ∧
      ∀ read, read <+: pieces → passed read <+: chunks none pieces ∧
        ∃ back, read.flatten = (String.join (passed read)).toUTF8.data.toList ++ back ∧
          back.length = Utf8.held (kept read) ∧ back.length ≤ 3 ∧
          ∀ start : String, start.toUTF8.data.toList <+: read.flatten →
            start.toList <+: (String.join (passed read)).toList := by
  rw [toUTF8_toList] at hbytes
  -- What has been read is a start of the bytes of the text.
  have hstart : ∀ {read}, read <+: pieces → read.flatten <+: Utf8.encode s.toList := by
    rintro read ⟨rest, rfl⟩
    rw [← hbytes, List.flatten_append]
    exact List.prefix_append _ _
  have htext : ∀ {read}, read <+: pieces →
      (String.join (passed read)).toList = (Utf8.scan none read.flatten).text ∧
        kept read = (Utf8.scan none read.flatten).tail := by
    intro read hread
    obtain ⟨-, -, -, hclean, -⟩ := Utf8.scan_of_prefix (hstart hread)
    rw [String.toList_join]
    exact passed_of_clean hclean
  have hall : String.join (passed pieces) = s ∧ kept pieces = none := by
    have hend := @htext pieces List.prefix_rfl
    rw [hbytes, Utf8.scan_encode] at hend
    refine ⟨String.toList_inj.mp (hend.1.trans ?_), hend.2⟩
    exact List.reverse_reverse _
  refine ⟨?_, fun chunk => ne_empty_of_mem_chunks, fun read hread => ⟨?_, ?_⟩⟩
  · rw [chunks_eq, hall.2, String.join_append, hall.1]
    exact String.append_empty
  · rw [chunks_eq]
    exact (prefix_passed hread).trans (List.prefix_append _ _)
  · obtain ⟨back, hback, -, -, hheld, hlength⟩ := Utf8.scan_of_prefix (hstart hread)
    obtain ⟨hpassed, hkept⟩ := htext hread
    refine ⟨back, ?_, ?_, hlength, fun start hbegin => ?_⟩
    · rw [toUTF8_toList, hpassed]
      exact hback
    · rw [hkept, hheld]
    · -- Decoding goes on from what has been decoded.
      obtain ⟨more, hmore⟩ := hbegin
      rw [hpassed, ← hmore, toUTF8_toList, Utf8.scan_append, Utf8.Scan.text_append,
        Utf8.scan_encode]
      exact ⟨_, congrArg (· ++ _) (List.reverse_reverse _).symm⟩

/-- Characters of two and three bytes, cut three times. -/
theorem chunks_exact_cut :
    let pieces : List (List UInt8) := [[0xC3], [0xA9, 0xE2], [0x82], [0xAC]]
    let read : List (List UInt8) := [[0xC3], [0xA9, 0xE2]]
    pieces.flatten = "é€".toUTF8.data.toList ∧ read <+: pieces ∧
      String.join (chunks none pieces) = "é€" ∧ (∀ chunk ∈ chunks none pieces, chunk ≠ "") ∧
      passed read <+: chunks none pieces ∧
      ∃ back, read.flatten = (String.join (passed read)).toUTF8.data.toList ++ back ∧
        back.length = Utf8.held (kept read) ∧ back.length ≤ 3 ∧
        ∀ start : String, start.toUTF8.data.toList <+: read.flatten →
          start.toList <+: (String.join (passed read)).toList := by
  intro pieces read
  have hbytes : pieces.flatten = "é€".toUTF8.data.toList := by decide +kernel
  have hread : read <+: pieces := ⟨[[0x82], [0xAC]], rfl⟩
  obtain ⟨hjoin, hchunks, hprompt⟩ := chunks_exact "é€" pieces hbytes
  exact ⟨hbytes, hread, hjoin, hchunks, hprompt read hread⟩

/-! ## Pieces with a flaw -/

theorem text_nil (tail : Option Partial) : text tail [] = lossyFrom tail [] :=
  flatMap_chunk? _

theorem text_cons_of_clean {tail : Option Partial} {piece : List UInt8}
    (h : (Utf8.scan tail piece).flawed = false) (rest : List (List UInt8)) :
    text tail (piece :: rest) =
      (Utf8.scan tail piece).text ++ text (Utf8.scan tail piece).tail rest := by
  rw [text, chunks_cons, keep, take_of_clean h, List.flatMap_append, flatMap_chunk?]
  rfl

theorem text_cons_of_flawed {tail : Option Partial} {piece : List UInt8}
    (h : (Utf8.scan tail piece).flawed = true) (rest : List (List UInt8)) :
    text tail (piece :: rest) = (Utf8.scan tail piece).closed ++ text none rest := by
  rw [text, chunks_cons, keep, take_of_flawed h, List.flatMap_append, flatMap_chunk?]
  rfl

/-- Pieces are passed on as at least as many characters as their bytes encode. -/
theorem length_lossyFrom_le_text {tail : Option Partial} (ht : ∀ p ∈ tail, p.Sound)
    (pieces : List (List UInt8)) :
    (lossyFrom tail pieces.flatten).length ≤ (text tail pieces).length := by
  induction pieces generalizing tail with
  | nil => rw [text_nil, List.flatten_nil]
  | cons piece rest ih =>
      have hsound := Utf8.sound_scan ht piece
      rw [List.flatten_cons, Utf8.lossyFrom_append, List.length_append]
      cases hflawed : (Utf8.scan tail piece).flawed with
      | false =>
          rw [text_cons_of_clean hflawed, List.length_append]
          exact Nat.add_le_add_left (ih hsound) _
      | true =>
          have hrest := ih Utf8.sound_none
          rw [text_cons_of_flawed hflawed, List.length_append, Utf8.Scan.closed]
          cases htail : (Utf8.scan tail piece).tail with
          | none => exact Nat.add_le_add_left hrest _
          | some p =>
              have hone := Utf8.length_lossyFrom_le (hsound p htail) rest.flatten
              rw [List.length_append, List.length_singleton]
              omega

/-- A start is replaced and the rest passed on as decoding wants it, exactly if the rest does
not go on with the start. -/
theorem cons_eq_lossyFrom_iff {p : Partial} (hp : p.Sound) {bytes : List UInt8}
    {rest : List Char} (hrest : (lossyFrom none bytes).length ≤ rest.length) :
    replacement :: rest = lossyFrom (some p) bytes ↔
      (¬∃ b ∈ bytes.head?, p.GoesOn b) ∧ rest = lossyFrom none bytes := by
  by_cases hgoesOn : ∃ b ∈ bytes.head?, p.GoesOn b
  · refine iff_of_false (fun heq => ?_) fun h => h.1 hgoesOn
    obtain ⟨b, hb, hgoesOn⟩ := hgoesOn
    obtain ⟨more, rfl⟩ := List.head?_eq_some_iff.mp hb
    have hlt := Utf8.length_lossyFrom_lt hp hgoesOn more
    rw [← heq, List.length_cons] at hlt
    omega
  · rw [Utf8.lossyFrom_some_of_not_goesOn fun b hb h => hgoesOn ⟨b, hb, h⟩, List.cons_inj_right]
    exact (and_iff_right hgoesOn).symm

/-- Pieces are passed on as their bytes are decoded, exactly if they cut no character. -/
theorem text_eq_lossyFrom_iff {tail : Option Partial} (ht : ∀ p ∈ tail, p.Sound)
    (pieces : List (List UInt8)) :
    text tail pieces = lossyFrom tail pieces.flatten ↔ ¬Cuts tail pieces := by
  induction pieces generalizing tail with
  | nil => exact iff_of_true (text_nil tail) id
  | cons piece rest ih =>
      have hsound := Utf8.sound_scan ht piece
      rw [List.flatten_cons, Utf8.lossyFrom_append, Cuts, keep, not_or]
      cases hflawed : (Utf8.scan tail piece).flawed with
      | false =>
          rw [text_cons_of_clean hflawed, take_of_clean hflawed, List.append_right_inj,
            ih hsound]
          simp
      | true =>
          rw [text_cons_of_flawed hflawed, take_of_flawed hflawed, ← ih Utf8.sound_none,
            Utf8.Scan.closed]
          cases htail : (Utf8.scan tail piece).tail with
          | none => simp
          | some p =>
              have hlong := length_lossyFrom_le_text Utf8.sound_none rest
              simp only [List.append_assoc, List.singleton_append, List.append_right_inj,
                cons_eq_lossyFrom_iff (hsound p htail) hlong, Option.mem_def, Option.some.injEq,
                exists_eq_left', true_and]

/-- The pieces of an output are passed on as their bytes are decoded as a whole, exactly if they
cut no character.  So two ways of cutting an output into pieces give the same text, unless one
of them cuts a character behind a flaw. -/
theorem join_chunks_eq_lossy_iff (pieces : List (List UInt8)) :
    String.join (chunks none pieces) = String.ofList (Utf8.lossy pieces.flatten) ↔
      ¬Cuts none pieces := by
  have hiff := text_eq_lossyFrom_iff Utf8.sound_none pieces
  rw [← hiff, ← String.toList_inj, String.toList_join, String.toList_ofList]
  rfl

/-- Behind a flaw, a character that straddles two pieces is lost; in one piece it is not. -/
theorem chunks_cut_character :
    let whole : List (List UInt8) := [[0xFF, 0xE2, 0x82, 0xAC]]
    let cut : List (List UInt8) := [[0xFF, 0xE2], [0x82, 0xAC]]
    whole.flatten = cut.flatten ∧ Utf8.lossy cut.flatten = ['\uFFFD', '€'] ∧
      String.join (chunks none whole) = "\uFFFD€" ∧
      String.join (chunks none cut) = "\uFFFD\uFFFD\uFFFD\uFFFD" := by
  decide +kernel

end Stream
end Notebook
