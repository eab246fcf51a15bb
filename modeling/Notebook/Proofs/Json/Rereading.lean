import Notebook.Proofs.Json.Prefixes
import Notebook.Proofs.Json.Values

/-!
# Texts that are read back

The compact text of a value is read as this value, if its numbers are integers of 64 bits; the
text of a float may be read as a neighbour.  A value ends where a comma or a closing bracket
follows it, or nothing at all, so its text is read whatever else comes behind.

* `literal_integerText`, `stringBody_quoted`: the texts of integers and strings.
* `value?_chars`: the text of a value, and the fuel that reading it takes.
* `parse?_text`: a formed value is read back from its text.
-/

set_option autoImplicit false

namespace Notebook
namespace Json

/-- Integers of 64 bits, with or without a sign. -/
def Number.Fits : Number → Prop
  | .integer i => -9223372036854775808 ≤ i ∧ i < 18446744073709551616
  | .float _ => False

/-- What may follow a value: nothing, or a character that ends it. -/
def Ended (cs : List Char) : Prop :=
  ∀ c ∈ cs.head?, c = ',' ∨ c = ']' ∨ c = '\x7d'

theorem ended_nil : Ended [] :=
  nofun

theorem ended_cons {c : Char} (hc : c = ',' ∨ c = ']' ∨ c = '\x7d') (cs : List Char) :
    Ended (c :: cs) := by
  intro d hd
  exact Option.some.inj hd ▸ hc

/-! ## Numbers -/

theorem le_ofDigitChars (ds : List Char) (acc : Nat) : acc ≤ Nat.ofDigitChars 10 ds acc := by
  induction ds generalizing acc with
  | nil => exact Nat.le_refl acc
  | cons d rest ih =>
      have hrest := ih (10 * acc + (d.toNat - '0'.toNat))
      rw [Nat.ofDigitChars_cons]
      omega

/-- Digits whose number fits 64 bits are all taken. -/
theorem significand_of_lt {ds : List Char} {acc : Nat}
    (h : Nat.ofDigitChars 10 ds acc < UInt64.size) :
    significand acc ds = (Nat.ofDigitChars 10 ds acc, []) := by
  induction ds generalizing acc with
  | nil => rfl
  | cons d rest ih =>
      rw [Nat.ofDigitChars_cons] at h ⊢
      have hstep : acc * 10 + digitValue d = 10 * acc + (d.toNat - '0'.toNat) := by
        rw [Nat.mul_comm, digitValue]
      have hle := le_ofDigitChars rest (10 * acc + (d.toNat - '0'.toNat))
      rw [significand, hstep, if_pos (by omega), ih h]

theorem isDigit_toDigits (n : Nat) : ∀ c ∈ Nat.toDigits 10 n, c.isDigit = true :=
  fun _ => Nat.isDigit_of_mem_toDigits (by decide) (by decide)

theorem spanDigits_ended {rest : List Char} (h : Ended rest) : spanDigits rest = ([], rest) := by
  cases rest with
  | nil => rfl
  | cons c tail =>
      have hdigit : c.isDigit = false := by
        rcases h c rfl with rfl | rfl | rfl <;> rfl
      simp [spanDigits, List.span_eq_takeWhile_dropWhile, hdigit]

theorem spanDigits_toDigits (n : Nat) {rest : List Char} (h : Ended rest) :
    spanDigits (Nat.toDigits 10 n ++ rest) = (Nat.toDigits 10 n, rest) := by
  have hrest := spanDigits_ended h
  unfold spanDigits at hrest ⊢
  rw [List.span_eq_takeWhile_dropWhile, Prod.mk.injEq] at hrest ⊢
  rw [List.takeWhile_append_of_pos (isDigit_toDigits n),
    List.dropWhile_append_of_pos (isDigit_toDigits n), hrest.1, hrest.2, List.append_nil]
  exact ⟨rfl, rfl⟩

theorem digitChar_ne_zero : ∀ d < 10, d ≠ 0 → d.digitChar ≠ '0' := by
  decide

/-- Only zero is written with a zero in front. -/
theorem toDigits_head (n : Nat) :
    ∃ d ds, Nat.toDigits 10 n = d :: ds ∧ d.isDigit = true ∧ (n ≠ 0 → d ≠ '0') := by
  induction n using Nat.strongRecOn with
  | _ n ih =>
      have hdigit := isDigit_toDigits n
      rw [Nat.toDigits_eq_if (by decide)] at hdigit ⊢
      split
      · next hlt =>
          rw [if_pos hlt] at hdigit
          exact ⟨n.digitChar, [], rfl, hdigit _ List.mem_cons_self, digitChar_ne_zero n hlt⟩
      · next hle =>
          obtain ⟨d, ds, heq, hisDigit, hd⟩ := ih (n / 10) (by omega)
          refine ⟨d, ds ++ [(n % 10).digitChar], ?_, hisDigit, fun _ => hd (by omega)⟩
          rw [heq, List.cons_append]

theorem wholeDigits_toDigits (n : Nat) {rest : List Char} (h : Ended rest) :
    wholeDigits (Nat.toDigits 10 n ++ rest) = some (Nat.toDigits 10 n, rest) := by
  by_cases hn : n = 0
  · subst hn
    rfl
  · obtain ⟨d, ds, heq, _, hd⟩ := toDigits_head n
    have hspan := spanDigits_toDigits n h
    rw [heq] at hspan ⊢
    unfold wholeDigits
    split
    · next hzero => exact absurd (List.cons.inj hzero).1 (hd hn)
    · rw [hspan]

/-- Digits alone, after which nothing follows that belongs to a number. -/
theorem unsignedLiteral_toDigits (negative : Bool) (n : Nat) {rest : List Char}
    (h : Ended rest) : unsignedLiteral negative (Nat.toDigits 10 n ++ rest) =
      some (⟨negative, Nat.toDigits 10 n, none, none⟩, rest) := by
  have hfraction : fractionDigits rest = some (none, rest) := by
    unfold fractionDigits
    split
    · rcases h '.' rfl with heq | heq | heq <;> cases heq
    · rfl
  have hexponent : exponentDigits rest = some (none, rest) := by
    cases rest with
    | nil => rfl
    | cons c tail =>
        have hmark : ¬(c = 'e' ∨ c = 'E') := by
          rcases h c rfl with rfl | rfl | rfl <;> decide
        simp only [exponentDigits, if_neg hmark]
  unfold unsignedLiteral
  rw [wholeDigits_toDigits n h]
  simp only [Option.bind_eq_bind, Option.bind_some, hfraction, hexponent]
  rfl

theorem literal_integerText (i : Int) {rest : List Char} (h : Ended rest) :
    literal (integerText i ++ rest) =
      some (⟨decide (i < 0), Nat.toDigits 10 i.natAbs, none, none⟩, rest) := by
  have hunsigned := fun negative => unsignedLiteral_toDigits negative i.natAbs h
  by_cases hi : i < 0
  · simp only [integerText, if_pos hi, List.cons_append, literal, hunsigned, decide_eq_true hi]
  · obtain ⟨d, ds, heq, hdigit, _⟩ := toDigits_head i.natAbs
    rw [integerText, if_neg hi, decide_eq_false hi, ← hunsigned, heq]
    unfold literal
    split
    · next hminus =>
        rw [(List.cons.inj hminus).1] at hdigit
        cases hdigit
    · rfl

/-- An integer of 64 bits is told from a float. -/
theorem number?_toDigits {i : Int} (h : (Number.integer i).Fits) :
    Literal.number? ⟨decide (i < 0), Nat.toDigits 10 i.natAbs, none, none⟩ =
      some (.integer i) := by
  have hvalue : Nat.ofDigitChars 10 (Nat.toDigits 10 i.natAbs) 0 = i.natAbs :=
    Nat.ofDigitChars_toDigits (by decide) (by decide)
  obtain ⟨hlow, hhigh⟩ := h
  have hsize : UInt64.size = 18446744073709551616 := rfl
  have hsignificand : significand 0 (Nat.toDigits 10 i.natAbs) = (i.natAbs, []) := by
    have hsmall : Nat.ofDigitChars 10 (Nat.toDigits 10 i.natAbs) 0 < UInt64.size := by omega
    rw [significand_of_lt hsmall, hvalue]
  unfold Literal.number?
  simp only [hsignificand]
  rw [if_pos]
  · congr 2
    split
    · next hi =>
        have hneg := of_decide_eq_true hi
        omega
    · next hi =>
        have hpos : ¬i < 0 := fun hneg => hi (decide_eq_true hneg)
        omega
  · by_cases hi : i < 0
    · have hzero : i.natAbs ≠ 0 := by omega
      have hle : ¬9223372036854775808 < i.natAbs := by omega
      simp [hi, hzero, hle]
    · simp [hi]

/-! ## Strings -/

/-- The piece that a written character is read as.  A control character without an escape of
its own is written by its number. -/
def pieceOf (c : Char) : Piece :=
  if c = '\n' ∨ c = '\r' ∨ c = '\t' ∨ c = '\x08' ∨ c = '\x0c' ∨ ¬c.toNat < 0x20 then .char c
  else .unit c.toNat

theorem pieces_short {c x : Char} (hunit : c ≠ 'u') (hescape : shortEscape c = some x)
    (acc : List Piece) (rest : List Char) :
    pieces acc ('\\' :: c :: rest) = pieces (.char x :: acc) rest := by
  rw [pieces.eq_4 _ _ _ fun _ _ _ _ _ hu _ => hunit hu, hescape]

theorem hexadecimal_control : ∀ n < 0x20,
    hexadecimal n = ['0', '0', (n / 16).digitChar, (n % 16).digitChar] ∧
      hexUnit '0' '0' (n / 16).digitChar (n % 16).digitChar = some n := by
  decide

theorem pieces_escaped (c : Char) (acc : List Piece) (rest : List Char) :
    pieces acc (escaped c ++ rest) = pieces (pieceOf c :: acc) rest := by
  by_cases hshort : c = '"' ∨ c = '\\' ∨ c = '\n' ∨ c = '\r' ∨ c = '\t' ∨ c = '\x08' ∨ c = '\x0c'
  · rcases hshort with rfl | rfl | rfl | rfl | rfl | rfl | rfl
    all_goals exact pieces_short (by decide) rfl acc rest
  · simp only [not_or] at hshort
    obtain ⟨hquote, hslash, hline, hreturn, htab, hback, hfeed⟩ := hshort
    by_cases hcontrol : c.toNat < 0x20
    · obtain ⟨hdigits, hunit⟩ := hexadecimal_control c.toNat hcontrol
      have hescaped : escaped c = '\\' :: 'u' :: hexadecimal c.toNat := by
        simp [escaped, hquote, hslash, hline, hreturn, htab, hback, hfeed, hcontrol]
      have hpiece : pieceOf c = .unit c.toNat := by
        simp [pieceOf, hline, hreturn, htab, hback, hfeed, hcontrol]
      rw [hescaped, hdigits, hpiece]
      simp only [List.cons_append, List.nil_append]
      rw [pieces, hunit]
    · have hescaped : escaped c = [c] := by
        simp [escaped, hquote, hslash, hline, hreturn, htab, hback, hfeed, hcontrol]
      have hpiece : pieceOf c = .char c := by simp [pieceOf, hcontrol]
      rw [hescaped, hpiece, List.singleton_append,
        pieces.eq_5 _ _ _ hquote (fun _ _ _ _ _ heq _ => hslash heq) (fun _ _ heq _ => hslash heq),
        if_neg fun h => h.elim hcontrol hslash]

theorem pieces_flatMap (cs : List Char) (acc : List Piece) (rest : List Char) :
    pieces acc (cs.flatMap escaped ++ '"' :: rest) =
      some (acc.reverse ++ cs.map pieceOf, rest) := by
  induction cs generalizing acc with
  | nil => simp [pieces]
  | cons c cs ih =>
      rw [List.flatMap_cons, List.append_assoc, pieces_escaped, ih]
      simp

/-- No half of a pair is written, so the pieces are the characters again. -/
theorem unpaired_pieceOf (cs acc : List Char) :
    unpaired acc (cs.map pieceOf) = some (acc.reverse ++ cs) := by
  induction cs generalizing acc with
  | nil => simp [unpaired]
  | cons c cs ih =>
      have hstep : unpaired acc (pieceOf c :: cs.map pieceOf) =
          unpaired (c :: acc) (cs.map pieceOf) := by
        unfold pieceOf
        split
        · rfl
        · next hcontrol =>
            simp only [not_or, not_not] at hcontrol
            have htrail : isTrail c.toNat = false := by
              simp only [isTrail, Bool.and_eq_false_iff, decide_eq_false_iff_not]
              omega
            have hlead : isLead c.toNat = false := by
              simp only [isLead, Bool.and_eq_false_iff, decide_eq_false_iff_not]
              omega
            rw [unpaired.eq_def]
            simp [htrail, hlead, Char.ofNat_toNat]
      rw [List.map_cons, hstep, ih]
      simp

theorem stringBody_quoted (s : String) (rest : List Char) :
    stringBody (s.toList.flatMap escaped ++ '"' :: rest) = some (some s, rest) := by
  unfold stringBody
  rw [pieces_flatMap]
  simp [unpaired_pieceOf]

/-! ## Values -/

theorem skipSpaces_cons {c : Char} (hc : isSpace c = false) (cs : List Char) :
    skipSpaces (c :: cs) = c :: cs := by
  simp [skipSpaces, hc]

variable {depth : Nat} {v : Json}

/-- The text of a value starts with neither a space nor the end of an array. -/
theorem chars_head (h : Formed Number.Fits depth v) :
    ∃ c cs, v.chars = c :: cs ∧ isSpace c = false ∧ c ≠ ']' := by
  cases h with
  | null => exact ⟨_, _, rfl, rfl, by decide⟩
  | bool b => cases b <;> exact ⟨_, _, rfl, rfl, by decide⟩
  | string s => exact ⟨_, _, rfl, rfl, by decide⟩
  | array _ => exact ⟨_, _, rfl, rfl, by decide⟩
  | object _ _ => exact ⟨_, _, rfl, rfl, by decide⟩
  | @number _ n hn =>
      cases n with
      | float x => cases hn
      | integer i =>
          change ∃ c cs, integerText i = c :: cs ∧ isSpace c = false ∧ c ≠ ']'
          unfold integerText
          split
          · exact ⟨_, _, rfl, rfl, by decide⟩
          · obtain ⟨d, ds, heq, hdigit, _⟩ := toDigits_head i.natAbs
            refine ⟨d, ds, heq, ?_, ?_⟩
            · by_contra hspace
              simp only [isSpace, Bool.not_eq_false, Bool.or_eq_true, beq_iff_eq] at hspace
              rcases hspace with ((rfl | rfl) | rfl) | rfl <;> cases hdigit
            · rintro rfl
              cases hdigit

/-- With enough fuel a value is read from its text, whatever comes behind its end. -/
def Reads (v : Json) : Prop :=
  ∀ fuel rest, Ended rest → v.chars.length ≤ fuel →
    Document.value? fuel (v.chars ++ rest) = some (v.toDocument, rest)

theorem reads_integer {i : Int} (h : (Number.integer i).Fits) :
    Reads (.number (.integer i)) := by
  intro fuel rest hrest hfuel
  have hformed : Formed Number.Fits 0 (.number (.integer i)) := .number h
  obtain ⟨c, cs, hhead, _, _⟩ := chars_head hformed
  cases fuel with
  | zero => simp [hhead] at hfuel
  | succ fuel =>
      change Document.value? (fuel + 1) (integerText i ++ rest) = _
      rw [Document.value?_of_literal (literal_integerText i hrest), number?_toDigits h]
      rfl

theorem reads_string (s : String) : Reads (.string s) := by
  intro fuel rest _ hfuel
  cases fuel with
  | zero => simp [chars, quoted] at hfuel
  | succ fuel =>
      have hbody := stringBody_quoted s rest
      simp only [chars, quoted, List.cons_append, List.append_assoc, List.nil_append,
        Document.value?, hbody]
      rfl

theorem itemChars_cons (item next : Json) (rest : List Json) :
    itemChars (item :: next :: rest) = item.chars ++ ',' :: itemChars (next :: rest) := rfl

theorem fieldChars_cons (name : String) (value : Json) (next : String × Json)
    (rest : List (String × Json)) : fieldChars ((name, value) :: next :: rest) =
      quoted name ++ ':' :: (value.chars ++ ',' :: fieldChars (next :: rest)) := by
  obtain ⟨n, v⟩ := next
  rfl

/-- Items start as the first of them does. -/
theorem itemChars_head {items : List Json} (hsome : items ≠ [])
    (h : ∀ v ∈ items, Formed Number.Fits depth v) :
    ∃ c cs, itemChars items = c :: cs ∧ isSpace c = false ∧ c ≠ ']' := by
  cases items with
  | nil => exact absurd rfl hsome
  | cons item rest =>
      obtain ⟨c, cs, hhead, hc⟩ := chars_head (h item List.mem_cons_self)
      cases rest with
      | nil => exact ⟨c, cs, hhead, hc⟩
      | cons next rest =>
          refine ⟨c, cs ++ ',' :: itemChars (next :: rest), ?_, hc⟩
          rw [itemChars_cons, hhead, List.cons_append]

/-- Fields start with the quote of a name. -/
theorem fieldChars_head {fields : List (String × Json)} (hsome : fields ≠ []) :
    ∃ cs, fieldChars fields = '"' :: cs := by
  cases fields with
  | nil => exact absurd rfl hsome
  | cons field rest =>
      cases rest with
      | nil => exact ⟨_, rfl⟩
      | cons next rest =>
          rw [fieldChars_cons]
          exact ⟨_, rfl⟩

/-- The items of an array that has some. -/
theorem items?_itemChars {items : List Json} (hsome : items ≠ [])
    (hformed : ∀ v ∈ items, Formed Number.Fits depth v) (hreads : ∀ v ∈ items, Reads v)
    (acc : List Document) (fuel : Nat) (rest : List Char)
    (hfuel : (itemChars items).length < fuel) :
    Document.items? fuel acc (itemChars items ++ ']' :: rest) =
      some (acc.reverse ++ listToDocument items, rest) := by
  -- What was read so far grows by an item, and the fuel drops by one, with every comma.
  induction items generalizing acc fuel with
  | nil => exact absurd rfl hsome
  | cons item later ih =>
      obtain ⟨hitem, hlater⟩ := List.forall_mem_cons.mp hreads
      have hformed' := (List.forall_mem_cons.mp hformed).2
      cases fuel with
      | zero => omega
      | succ fuel =>
          cases later with
          | nil =>
              have hlength : item.chars.length ≤ fuel := Nat.le_of_lt_succ hfuel
              have hread := hitem fuel (']' :: rest) (ended_cons (by decide) rest) hlength
              rw [itemChars, Document.items?, hread]
              simp only [skipSpaces_cons (c := ']') rfl]
              simp [listToDocument]
          | cons next later =>
              have hlength : item.chars.length ≤ fuel ∧
                  (itemChars (next :: later)).length < fuel := by
                rw [itemChars_cons, List.length_append, List.length_cons] at hfuel
                omega
              -- A comma comes first, so nothing of the next item is taken for a part of this one.
              have hread := hitem fuel (',' :: (itemChars (next :: later) ++ ']' :: rest))
                (ended_cons (by decide) _) hlength.1
              have hrest := ih (by simp) hformed' hlater (item.toDocument :: acc) fuel hlength.2
              obtain ⟨c, cs, hhead, hspace, _⟩ := itemChars_head (by simp) hformed'
              rw [itemChars_cons, List.append_assoc, List.cons_append, Document.items?, hread]
              rw [hhead, List.cons_append] at hrest ⊢
              simp only [skipSpaces_cons (c := ',') rfl, skipSpaces_cons hspace, hrest]
              simp [listToDocument]

/-- The fields of an object that has some. -/
theorem fields?_fieldChars {fields : List (String × Json)} (hsome : fields ≠ [])
    (hformed : ∀ field ∈ fields, Formed Number.Fits depth field.2)
    (hreads : ∀ field ∈ fields, Reads field.2) (acc : List (Option String × Document))
    (fuel : Nat) (rest : List Char) (hfuel : (fieldChars fields).length < fuel) :
    Document.fields? fuel acc (fieldChars fields ++ '\x7d' :: rest) =
      some (acc.reverse ++ fieldsToDocument fields, rest) := by
  induction fields generalizing acc fuel with
  | nil => exact absurd rfl hsome
  | cons field later ih =>
      obtain ⟨name, value⟩ := field
      obtain ⟨hvalue, hlater⟩ := List.forall_mem_cons.mp hreads
      obtain ⟨hformed, hformed'⟩ := List.forall_mem_cons.mp hformed
      obtain ⟨c, cs, hhead, hspace, _⟩ := chars_head hformed
      -- What stands before the value of the field, whatever comes behind it.
      have hname : ∀ more, skipSpaces (value.chars ++ more) = value.chars ++ more := by
        intro more
        rw [hhead, List.cons_append, skipSpaces_cons hspace]
      cases fuel with
      | zero => omega
      | succ fuel =>
          cases later with
          | nil =>
              have hlength : value.chars.length ≤ fuel := by
                simp only [fieldChars, List.length_append, List.length_cons] at hfuel
                omega
              have hread := hvalue fuel ('\x7d' :: rest) (ended_cons (by decide) rest) hlength
              have hbody := stringBody_quoted name (':' :: (value.chars ++ '\x7d' :: rest))
              simp only [fieldChars, quoted, List.cons_append, List.append_assoc,
                List.nil_append, Document.fields?, hbody, skipSpaces_cons (c := ':') rfl, hname,
                hread, skipSpaces_cons (c := '\x7d') rfl]
              simp [fieldsToDocument]
          | cons next later =>
              have hlength : value.chars.length ≤ fuel ∧
                  (fieldChars (next :: later)).length < fuel := by
                simp only [fieldChars_cons, List.length_append, List.length_cons] at hfuel
                omega
              have hread := hvalue fuel (',' :: (fieldChars (next :: later) ++ '\x7d' :: rest))
                (ended_cons (by decide) _) hlength.1
              have hbody := stringBody_quoted name
                (':' :: (value.chars ++ ',' :: (fieldChars (next :: later) ++ '\x7d' :: rest)))
              have hrest := ih (by simp) hformed' hlater ((some name, value.toDocument) :: acc) fuel
                hlength.2
              obtain ⟨cs', hhead'⟩ := fieldChars_head (List.cons_ne_nil next later)
              -- The next field starts with a quote, so no space is skipped before it.
              have hstart : skipSpaces (fieldChars (next :: later) ++ '\x7d' :: rest) =
                  fieldChars (next :: later) ++ '\x7d' :: rest := by
                rw [hhead', List.cons_append, skipSpaces_cons rfl]
              simp only [fieldChars_cons, quoted, List.cons_append, List.append_assoc,
                List.nil_append, Document.fields?, hbody, skipSpaces_cons (c := ':') rfl, hname,
                hread, skipSpaces_cons (c := ',') rfl, hstart, hrest]
              simp [fieldsToDocument]

/-- The text of a formed value is read as this value, whatever comes behind its end. -/
theorem value?_chars (h : Formed Number.Fits depth v) : Reads v := by
  induction h with
  | null =>
      intro fuel rest _ hfuel
      cases fuel with
      | zero => simp [chars] at hfuel
      | succ fuel => rfl
  | bool b =>
      intro fuel rest _ hfuel
      cases b <;> cases fuel with
      | zero => simp [chars] at hfuel
      | succ fuel => rfl
  | @number _ n hn =>
      cases n with
      | float x => cases hn
      | integer i => exact reads_integer hn
  | string s => exact reads_string s
  | @array _ items hitems ih =>
      intro fuel rest _ hfuel
      rw [chars, List.length_cons, List.length_append, List.length_singleton] at hfuel
      cases fuel with
      | zero => omega
      | succ fuel =>
          rw [chars, List.cons_append, List.append_assoc, List.singleton_append, toDocument]
          by_cases hsome : items = []
          · subst hsome
            rfl
          · have hread := items?_itemChars hsome hitems ih [] fuel rest (by omega)
            obtain ⟨c, cs, hhead, hspace, hclose⟩ := itemChars_head hsome hitems
            rw [hhead, List.cons_append] at hread ⊢
            simp only [Document.value?, skipSpaces_cons hspace]
            split
            · next heq => exact absurd (List.cons.inj heq).1 hclose
            · rw [hread]
              rfl
  | @object _ fields _ hfields ih =>
      intro fuel rest _ hfuel
      rw [chars, List.length_cons, List.length_append, List.length_singleton] at hfuel
      cases fuel with
      | zero => omega
      | succ fuel =>
          rw [chars, List.cons_append, List.append_assoc, List.singleton_append, toDocument]
          by_cases hsome : fields = []
          · subst hsome
            rfl
          · have hread := fields?_fieldChars hsome hfields ih [] fuel rest (by omega)
            obtain ⟨cs, hhead⟩ := fieldChars_head hsome
            rw [hhead, List.cons_append] at hread ⊢
            simp only [Document.value?, skipSpaces_cons (c := '"') rfl]
            split
            · next heq => cases (List.cons.inj heq).1
            · rw [hread]
              rfl

/-- The text of a formed value writes its document. -/
theorem parse?_text_toDocument (h : Formed Number.Fits depth v) :
    Document.parse? v.text = some v.toDocument := by
  obtain ⟨c, cs, hhead, hspace, _⟩ := chars_head h
  have hread := value?_chars h (v.chars.length + 1) [] ended_nil (by omega)
  rw [List.append_nil] at hread
  unfold Document.parse? Document.ofChars? text
  rw [String.toList_ofList]
  rw [hhead] at hread ⊢
  rw [skipSpaces_cons hspace, hread]
  rfl

/-- A formed value is read back from its text. -/
theorem parse?_text (h : Formed Number.Fits nestingLimit v) : parse? v.text = some v := by
  rw [parse?, parse?_text_toDocument h, Option.bind_some, toJson?_toDocument h]

end Json
end Notebook
