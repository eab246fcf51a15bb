import Notebook.Proofs.Json.Prefixes
import Notebook.Proofs.Text.Bytes
import Notebook.Proofs.Text.Trimming
import Notebook.Service.Framing

/-!
# Reading the output of a service

A reader never takes a value back, and after a problem it reads nothing more.  When the output
stops early, only a line that has been read in part can still give a value.  Then the whole
line gives the same value, or a problem, since the text of an object cannot go on and be the
text of another value.

* `takeLine_append`: a line that gives a value, and what becomes of it when it goes on.
* `interrupted_line`: the same within a whole output.
* `readAll_of_prefix`: a service that dies while it writes makes nothing up.
-/

set_option autoImplicit false

namespace Notebook
namespace Framing

/-! ## Readers -/

/-- The reader after a step, with the values before it. -/
def Step.after (s : Step) (newest : List Json) : Reader :=
  ⟨s.value.toList ++ newest, s.phase⟩

namespace Reader

theorem take_eq (r : Reader) (bytes : ByteArray) :
    r.take bytes = bytes.data.toList.foldl step r := by
  rw [take, Array.foldl_toList]

theorem take_append (r : Reader) (bytes more : ByteArray) :
    r.take (bytes ++ more) = (r.take bytes).take more := by
  rw [take_eq, take_eq, take_eq, ByteArray.data_append, Array.toList_append, List.foldl_append]

theorem step_eq (r : Reader) (b : UInt8) : r.step b = (feed r.phase b).after r.newest := by
  unfold step
  split <;> next h => rw [h]; rfl

/-- Nothing is read after a problem. -/
theorem foldl_failed (newest : List Json) (problem : Problem) (bytes : List UInt8) :
    bytes.foldl step ⟨newest, .failed problem⟩ = ⟨newest, .failed problem⟩ := by
  induction bytes with
  | nil => rfl
  | cons b rest ih => exact ih

/-- No value is taken back. -/
theorem suffix_foldl (bytes : List UInt8) (r : Reader) :
    r.newest <:+ (bytes.foldl step r).newest := by
  induction bytes generalizing r with
  | nil => exact List.suffix_rfl
  | cons b rest ih =>
      refine List.IsSuffix.trans ?_ (ih (r.step b))
      rw [step_eq]
      exact List.suffix_append _ _

theorem values_close (r : Reader) :
    r.close.1 = ((finish r.phase).1.toList ++ r.newest).reverse := rfl

theorem prefix_close (r : Reader) : r.newest.reverse <+: r.close.1 :=
  List.reverse_prefix.mpr (List.suffix_append _ _)

/-- What has been read is read whatever follows. -/
theorem prefix_foldl_close (bytes : List UInt8) (r : Reader) :
    r.newest.reverse <+: (bytes.foldl step r).close.1 :=
  (List.reverse_prefix.mpr (suffix_foldl bytes r)).trans (prefix_close _)

end Reader

/-! ## Lines that go on -/

/-- A line that begins with a brace is the text of an object. -/
theorem takeLine_object {read : ByteArray} {text : String} {rest : List Char}
    (htext : String.fromUTF8? read = some text)
    (htrimmed : Text.trimmed text.toList = '\x7b' :: rest) :
    takeLine read =
      match Json.parse? (String.ofList ('\x7b' :: rest)) with
      | some value => ⟨.line .empty, some value⟩
      | none => fail .lineNotJson := by
  unfold takeLine
  rw [htext]
  simp only
  rw [htrimmed]
  rfl

/-- Only the text of an object, with blanks around it, gives a value. -/
theorem of_takeLine_value {read : ByteArray} {phase : Phase} {v : Json}
    (h : takeLine read = ⟨phase, some v⟩) :
    ∃ text rest, String.fromUTF8? read = some text ∧
      Text.trimmed text.toList = '\x7b' :: rest ∧
      Json.parse? (String.ofList ('\x7b' :: rest)) = some v := by
  unfold takeLine at h
  split at h
  · cases h
  · next text htext =>
      split at h
      · cases h
      · next rest htrimmed =>
          split at h
          · next value hparse =>
              obtain ⟨-, heq⟩ := Step.mk.inj h
              exact ⟨text, rest, htext, htrimmed, hparse.trans heq⟩
          · cases h
      · split at h <;> cases h

/-- A line that gives a value still gives this value when it goes on, or it gives a problem. -/
theorem takeLine_append {read : ByteArray} {phase : Phase} {v : Json}
    (h : takeLine read = ⟨phase, some v⟩) (more : ByteArray) :
    takeLine (read ++ more) = ⟨.line .empty, some v⟩ ∨
      ∃ problem, takeLine (read ++ more) = fail problem := by
  obtain ⟨text, rest, htext, htrimmed, hparse⟩ := of_takeLine_value h
  cases hlonger : String.fromUTF8? (read ++ more) with
  | none =>
      refine Or.inr ⟨.lineNotText, ?_⟩
      unfold takeLine
      rw [hlonger]
  | some longer =>
      -- A cut inside a character would not be a text, so both texts begin with the same object.
      obtain ⟨new, hnew⟩ := Text.prefix_of_fromUTF8? htext hlonger
      obtain ⟨left, hleft⟩ := Text.trimmed_prefix text.toList new
      rw [hnew, htrimmed] at hleft
      rw [takeLine_object hlonger hleft.symm]
      split
      · next value hvalue =>
          rw [Json.parse?_of_prefix hparse hvalue]
          exact Or.inl rfl
      · exact Or.inr ⟨_, rfl⟩

theorem size_of_takeLine_value {read : ByteArray} {phase : Phase} {v : Json}
    (h : takeLine read = ⟨phase, some v⟩) : read.size ≠ 0 := by
  intro hsize
  obtain ⟨text, rest, htext, htrimmed, _⟩ := of_takeLine_value h
  obtain rfl := ByteArray.size_eq_zero_iff.mp hsize
  have hempty := Text.fromUTF8?_utf8Encode []
  rw [List.utf8Encode_nil, htext] at hempty
  rw [Option.some.inj hempty, String.toList_ofList] at htrimmed
  cases htrimmed

/-! ## Outputs that stop early -/

/-- A last line needs no end to give its value. -/
theorem finish_value {read : ByteArray} {v : Json} (hsize : read.size ≠ 0)
    (h : takeLine read = ⟨.line .empty, some v⟩) : finish (.line read) = (some v, .clean) := by
  simp only [finish]
  rw [if_neg hsize, h]

theorem finish_fail {read : ByteArray} {problem : Problem} (hsize : read.size ≠ 0)
    (h : takeLine read = fail problem) : finish (.line read) = (none, .broken problem) := by
  simp only [finish]
  rw [if_neg hsize, h]
  rfl

/-- A line that was read in part and gives a value gives it in the whole output too, if this
has no problem. -/
theorem interrupted_line {read : ByteArray} {phase : Phase} {v : Json}
    (h : takeLine read = ⟨phase, some v⟩) (newest : List Json) (bytes : List UInt8)
    (more : ByteArray)
    (hclean : (bytes.foldl Reader.step ⟨newest, .line (read ++ more)⟩).close.2 = .clean) :
    (v :: newest).reverse <+:
      (bytes.foldl Reader.step ⟨newest, .line (read ++ more)⟩).close.1 := by
  -- Until the line ends, `more` is what has come of it since.
  induction bytes generalizing more with
  | nil =>
      have hsize : (read ++ more).size ≠ 0 := by
        have hread := size_of_takeLine_value h
        rw [ByteArray.size_append]
        omega
      rw [List.foldl_nil] at hclean ⊢
      unfold Reader.close at hclean ⊢
      rcases takeLine_append h more with hvalue | ⟨problem, hfail⟩
      · rw [finish_value hsize hvalue]
        exact List.prefix_rfl
      · rw [finish_fail hsize hfail] at hclean
        cases hclean
  | cons b rest ih =>
      have hpush : (read ++ more).push b = read ++ more.push b :=
        ByteArray.ext (by simp)
      have hfailed : ∀ problem, (rest.foldl Reader.step ⟨newest, .failed problem⟩).close.2 ≠
          .clean := by
        intro problem
        rw [Reader.foldl_failed]
        exact nofun
      rw [List.foldl_cons, Reader.step_eq] at hclean ⊢
      unfold feed at hclean ⊢
      simp only at hclean ⊢
      split at hclean
      · exact absurd hclean (hfailed _)
      · next hroom =>
          rw [if_neg hroom]
          rw [hpush] at hclean ⊢
          split at hclean
          · next hend =>
              rw [if_pos hend]
              rcases takeLine_append h (more.push b) with hvalue | ⟨problem, hfail⟩
              · rw [hvalue]
                exact Reader.prefix_foldl_close rest ⟨v :: newest, .line .empty⟩
              · rw [hfail] at hclean
                exact absurd hclean (hfailed problem)
          · next hend =>
              rw [if_neg hend]
              exact ih (more.push b) hclean

/-- No value is empty. -/
theorem bodyStep_empty : bodyStep .empty = fail .bodyNotJson := by
  unfold bodyStep
  rw [← List.utf8Encode_nil, Text.fromUTF8?_utf8Encode]
  rfl

/-- The end of a header gives no value. -/
theorem takeHeader_value (size : Option Nat) (read : ByteArray) :
    (takeHeader size read).value = none := by
  unfold takeHeader
  split
  · rfl
  · split
    · unfold startBody
      split
      · rfl
      · split
        · rfl
        · split
          · rw [bodyStep_empty]
            rfl
          · rfl
    · split <;> rfl

/-- Of what may be left at the end, only a line gives a value. -/
theorem of_finish_value {phase : Phase} {v : Json} (h : (finish phase).1 = some v) :
    ∃ read next, phase = .line read ∧ takeLine read = ⟨next, some v⟩ := by
  cases phase with
  | line read =>
      simp only [finish] at h
      split at h
      · cases h
      · split at h
        · cases h
        · cases h
        · next next value _ _ htake =>
            subst h
            exact ⟨read, next, rfl, htake⟩
  | header size read =>
      have hnone := takeHeader_value size read
      simp only [finish] at h
      split at h
      · cases h
      · split at h
        · cases h
        · cases h
        · cases h
        · next htake =>
            rw [htake] at hnone
            exact absurd (h.symm.trans hnone) nofun
  | body due read => cases h
  | failed problem => cases h

/-- A service that dies while it writes makes nothing up: what is read of the first bytes of an
output without a problem is the beginning of what is read of all of it. -/
theorem readAll_of_prefix (written lost : ByteArray) (values : List Json)
    (h : readAll (written ++ lost) = (values, .clean)) :
    (readAll written).1 <+: values := by
  unfold readAll at h ⊢
  rw [Reader.values_close]
  rw [Reader.take_append, Reader.take_eq _ lost] at h
  generalize Reader.start.take written = r at h ⊢
  obtain ⟨newest, phase⟩ := r
  -- Only the value that the early end gives may be missing in the whole output.
  cases hlast : (finish phase).1 with
  | none =>
      have hread := Reader.prefix_foldl_close lost.data.toList ⟨newest, phase⟩
      rw [h] at hread
      exact hread
  | some v =>
      obtain ⟨read, next, rfl, htake⟩ := of_finish_value hlast
      have hline := interrupted_line htake newest lost.data.toList .empty
      rw [ByteArray.append_empty, h] at hline
      exact hline rfl

/-- The service dies before the end of a line; the object on it still counts. -/
theorem readAll_of_prefix_line :
    let written := "Content-Length: 7\r\n\r\n\x7b\"a\":1\x7d\x7b\"b\":2\x7d".toUTF8
    let lost := "\r\n\x7b\x7d\n".toUTF8
    let values := (readAll (written ++ lost)).1
    (readAll (written ++ lost)).2 = .clean ∧ values.length = 3 ∧
      (readAll written).1 <+: values ∧ (readAll written).1.length = 2 := by
  intro written lost values
  have hclean : (readAll (written ++ lost)).2 = .clean := by decide +kernel
  have hread : readAll (written ++ lost) = (values, .clean) := by
    rw [← hclean]
  exact ⟨hclean, by decide +kernel, readAll_of_prefix written lost values hread,
    by decide +kernel⟩

end Framing
end Notebook
