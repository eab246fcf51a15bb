import Mathlib.Data.List.TakeDrop
import Notebook.Json.Document

/-!
# Texts that go on

The reader of JSON text knows where a value ends from the value itself, except for a number,
which may go on with the next digit.  So a value that has been read, together with what it
leaves, is read from every longer text too, unless it is a number at the very end.

* `literal_append`, `pieces_append`, `keyword?_append`: the same for the tokens.
* `Document.extends_all`: the same for values, items and fields, whatever fuel is added.
* `parse?_of_prefix`: the text of an object that goes on writes the same object, if any.
-/

set_option autoImplicit false

namespace Notebook
namespace Json

variable {cs rest : List Char}

/-- The first character of a text that goes on is that of the text. -/
theorem append_ne_cons {c : Char} (hcs : cs ≠ []) (h : ∀ tail, cs = c :: tail → False)
    {more tail : List Char} (heq : cs ++ more = c :: tail) : False := by
  cases cs with
  | nil => exact hcs rfl
  | cons first left => exact h left (congrArg (· :: left) (List.cons.inj heq).1)

/-! ## Spaces and keywords -/

theorem skipSpaces_append (h : skipSpaces cs ≠ []) (more : List Char) :
    skipSpaces (cs ++ more) = skipSpaces cs ++ more := by
  unfold skipSpaces at h ⊢
  rw [List.dropWhile_append, if_neg (by simpa using h)]

theorem skipSpaces_append_of_eq {c : Char} (h : skipSpaces cs = c :: rest) (more : List Char) :
    skipSpaces (cs ++ more) = c :: (rest ++ more) := by
  rw [skipSpaces_append (by simp [h]), h, List.cons_append]

/-- Spaces before something that is read have something behind them. -/
theorem skipSpaces_ne_nil {α : Type} {x : α} (read : List Char → Option α)
    (hnil : read [] = none) (hread : read (skipSpaces cs) = some x) : skipSpaces cs ≠ [] := by
  intro hnone
  rw [hnone, hnil] at hread
  cases hread

theorem keyword?_append {word : List Char} (h : keyword? word cs = some rest)
    (more : List Char) : keyword? word (cs ++ more) = some (rest ++ more) := by
  unfold keyword? at h ⊢
  split at h
  · next hprefix =>
      obtain ⟨tail, rfl⟩ := List.isPrefixOf_iff_prefix.mp hprefix
      rw [List.drop_left] at h
      obtain rfl := Option.some.inj h
      rw [if_pos (by simp), List.append_assoc, List.drop_left]
  · cases h

/-! ## Numbers -/

theorem spanDigits_append {digits : List Char} (h : spanDigits cs = (digits, rest))
    (hrest : rest ≠ []) (more : List Char) :
    spanDigits (cs ++ more) = (digits, rest ++ more) := by
  unfold spanDigits at h ⊢
  rw [List.span_eq_takeWhile_dropWhile] at h ⊢
  obtain ⟨rfl, rfl⟩ := Prod.mk.inj h
  have hlength : (cs.takeWhile Char.isDigit).length ≠ cs.length := by
    intro hlength
    refine hrest (List.length_eq_zero_iff.mp ?_)
    have hboth := congrArg List.length (List.takeWhile_append_dropWhile (p := Char.isDigit) (l := cs))
    rw [List.length_append] at hboth
    omega
  rw [List.takeWhile_append, List.dropWhile_append, if_neg hlength,
    if_neg (by simpa using hrest)]

theorem wholeDigits_append {digits : List Char} (h : wholeDigits cs = some (digits, rest))
    (hrest : rest ≠ []) (more : List Char) :
    wholeDigits (cs ++ more) = some (digits, rest ++ more) := by
  unfold wholeDigits at h ⊢
  split at h
  · obtain ⟨rfl, rfl⟩ := Prod.mk.inj (Option.some.inj h)
    rfl
  · next hzero =>
      rcases hspan : spanDigits cs with ⟨_ | ⟨d, ds⟩, left⟩
      · rw [hspan] at h
        cases h
      · rw [hspan] at h
        obtain ⟨rfl, rfl⟩ := Prod.mk.inj (Option.some.inj h)
        have hcs : cs ≠ [] := by
          rintro rfl
          cases hspan
        split
        · next heq => exact (append_ne_cons hcs hzero heq).elim
        · rw [spanDigits_append hspan hrest]

theorem fractionDigits_append {digits : Option (List Char)}
    (h : fractionDigits cs = some (digits, rest)) (hrest : rest ≠ []) (more : List Char) :
    fractionDigits (cs ++ more) = some (digits, rest ++ more) := by
  unfold fractionDigits at h ⊢
  split at h
  · next tail =>
      rcases hspan : spanDigits tail with ⟨_ | ⟨d, ds⟩, left⟩
      · rw [hspan] at h
        cases h
      · rw [hspan] at h
        obtain ⟨rfl, rfl⟩ := Prod.mk.inj (Option.some.inj h)
        simp only [List.cons_append]
        rw [spanDigits_append hspan hrest]
  · next hpoint =>
      obtain ⟨rfl, rfl⟩ := Prod.mk.inj (Option.some.inj h)
      split
      · next heq => exact (append_ne_cons hrest hpoint heq).elim
      · rfl

theorem signedDigits_append {up : Bool} {digits : Option (Bool × List Char)}
    (h : signedDigits up cs = some (digits, rest)) (hrest : rest ≠ []) (more : List Char) :
    signedDigits up (cs ++ more) = some (digits, rest ++ more) := by
  unfold signedDigits at h ⊢
  rcases hspan : spanDigits cs with ⟨_ | ⟨d, ds⟩, left⟩
  · rw [hspan] at h
    cases h
  · rw [hspan] at h
    obtain ⟨rfl, rfl⟩ := Prod.mk.inj (Option.some.inj h)
    rw [spanDigits_append hspan hrest]

theorem exponentDigits_append {digits : Option (Bool × List Char)}
    (h : exponentDigits cs = some (digits, rest)) (hrest : rest ≠ []) (more : List Char) :
    exponentDigits (cs ++ more) = some (digits, rest ++ more) := by
  cases cs with
  | nil =>
      obtain ⟨rfl, rfl⟩ := Prod.mk.inj (Option.some.inj h)
      exact absurd rfl hrest
  | cons c tail =>
      simp only [exponentDigits, List.cons_append] at h ⊢
      split at h
      · next hmark =>
          rw [if_pos hmark]
          split at h
          · exact signedDigits_append h hrest more
          · exact signedDigits_append h hrest more
          · next hplus hminus =>
              have htail : tail ≠ [] := by
                rintro rfl
                cases h
              split
              · next heq => exact (append_ne_cons htail hplus heq).elim
              · next heq => exact (append_ne_cons htail hminus heq).elim
              · exact signedDigits_append h hrest more
      · next hmark =>
          obtain ⟨rfl, rfl⟩ := Prod.mk.inj (Option.some.inj h)
          rw [if_neg hmark]
          rfl

theorem unsignedLiteral_append {negative : Bool} {n : Literal}
    (h : unsignedLiteral negative cs = some (n, rest)) (hrest : rest ≠ []) (more : List Char) :
    unsignedLiteral negative (cs ++ more) = some (n, rest ++ more) := by
  obtain ⟨⟨whole, cs₁⟩, hwhole, h⟩ := Option.bind_eq_some_iff.mp h
  obtain ⟨⟨fraction, cs₂⟩, hfraction, h⟩ := Option.bind_eq_some_iff.mp h
  obtain ⟨⟨exponent, cs₃⟩, hexponent, h⟩ := Option.bind_eq_some_iff.mp h
  obtain ⟨rfl, rfl⟩ := Prod.mk.inj (Option.some.inj h)
  -- Where one part leaves nothing, the next ones leave nothing either.
  have hcs₂ : cs₂ ≠ [] := by
    rintro rfl
    exact hrest (Prod.mk.inj (Option.some.inj hexponent)).2.symm
  have hcs₁ : cs₁ ≠ [] := by
    rintro rfl
    exact hcs₂ (Prod.mk.inj (Option.some.inj hfraction)).2.symm
  unfold unsignedLiteral
  rw [wholeDigits_append hwhole hcs₁]
  simp only [Option.bind_eq_bind, Option.bind_some]
  rw [fractionDigits_append hfraction hcs₂]
  simp only [Option.bind_some]
  rw [exponentDigits_append hexponent hrest]
  rfl

theorem literal_append {n : Literal} (h : literal cs = some (n, rest)) (hrest : rest ≠ [])
    (more : List Char) : literal (cs ++ more) = some (n, rest ++ more) := by
  unfold literal at h ⊢
  split at h
  · exact unsignedLiteral_append h hrest more
  · next hminus =>
      have hcs : cs ≠ [] := by
        rintro rfl
        cases h
      split
      · next heq => exact (append_ne_cons hcs hminus heq).elim
      · exact unsignedLiteral_append h hrest more

/-! ## Strings -/

theorem pieces_append {acc ps : List Piece} (h : pieces acc cs = some (ps, rest))
    (more : List Char) : pieces acc (cs ++ more) = some (ps, rest ++ more) := by
  induction acc, cs using pieces.induct with
  | case1 acc => cases h
  | case2 acc tail =>
      obtain ⟨rfl, rfl⟩ := Prod.mk.inj (Option.some.inj h)
      rfl
  | case3 acc a b c d tail n hunit ih =>
      rw [pieces, hunit] at h
      simp only [List.cons_append]
      rw [pieces, hunit]
      exact ih h
  | case4 acc a b c d tail hunit =>
      rw [pieces, hunit] at h
      cases h
  | case5 acc c tail hunit x hescape ih =>
      rw [pieces.eq_4 _ _ _ hunit, hescape] at h
      -- The escape is short, so it is not that of a unit, whatever follows.
      have hshort : c ≠ 'u' := by
        rintro rfl
        cases hescape
      simp only [List.cons_append]
      rw [pieces.eq_4 _ _ _ fun _ _ _ _ _ hu _ => hshort hu, hescape]
      exact ih h
  | case6 acc c tail hunit hescape =>
      rw [pieces.eq_4 _ _ _ hunit, hescape] at h
      cases h
  | case7 acc c tail hquote hunit hescape hplain =>
      rw [pieces.eq_5 _ _ _ hquote hunit hescape, if_pos hplain] at h
      cases h
  | case8 acc c tail hquote hunit hescape hplain ih =>
      rw [pieces.eq_5 _ _ _ hquote hunit hescape, if_neg hplain] at h
      have hslash : c ≠ '\\' := fun heq => hplain (Or.inr heq)
      simp only [List.cons_append]
      rw [pieces.eq_5 _ _ _ hquote (fun _ _ _ _ _ heq _ => hslash heq) (fun _ _ heq _ => hslash heq),
        if_neg hplain]
      exact ih h

theorem stringBody_append {text : Option String} (h : stringBody cs = some (text, rest))
    (more : List Char) : stringBody (cs ++ more) = some (text, rest ++ more) := by
  unfold stringBody at h ⊢
  split at h
  · next ps left hpieces =>
      obtain ⟨rfl, rfl⟩ := Prod.mk.inj (Option.some.inj h)
      rw [pieces_append hpieces]
  · cases h

/-! ## Values -/

namespace Document

/-- A document after which a text may go on in a way that changes it. -/
def isNumber : Document → Bool
  | .number _ => true
  | _ => false

/-- What begins with a digit or a sign is read as a number. -/
theorem value?_of_literal {n : Literal} (h : literal cs = some (n, rest)) (fuel : Nat) :
    value? (fuel + 1) cs = some (.number n.number?, rest) := by
  unfold value?
  split
  all_goals first
    | cases h
    | rw [h]; rfl

theorem isNumber_of_brace {fuel : Nat} {doc : Document}
    (h : value? fuel ('\x7b' :: cs) = some (doc, rest)) : doc.isNumber = false := by
  cases fuel with
  | zero => cases h
  | succ fuel =>
      simp only [value?] at h
      split at h
      · obtain ⟨rfl, _⟩ := Prod.mk.inj (Option.some.inj h)
        rfl
      · obtain ⟨_, _, heq⟩ := Option.map_eq_some_iff.mp h
        obtain ⟨rfl, _⟩ := Prod.mk.inj heq
        rfl

/-- With `fuel`, everything that is read is read from longer texts too. -/
structure Extends (fuel : Nat) : Prop where
  value : ∀ cs doc rest, value? fuel cs = some (doc, rest) →
    (doc.isNumber = true → rest ≠ []) → ∀ more fuel', fuel ≤ fuel' →
      value? fuel' (cs ++ more) = some (doc, rest ++ more)
  items : ∀ acc cs items rest, items? fuel acc cs = some (items, rest) →
    ∀ more fuel', fuel ≤ fuel' →
      items? fuel' acc (cs ++ more) = some (items, rest ++ more)
  fields : ∀ acc cs fields rest, fields? fuel acc cs = some (fields, rest) →
    ∀ more fuel', fuel ≤ fuel' →
      fields? fuel' acc (cs ++ more) = some (fields, rest ++ more)

theorem value?_nil (fuel : Nat) : value? fuel [] = none := by
  cases fuel <;> rfl

theorem items?_nil (fuel : Nat) (acc : List Document) : items? fuel acc [] = none := by
  cases fuel with
  | zero => rfl
  | succ fuel => rw [items?, value?_nil]

theorem fields?_nil (fuel : Nat) (acc : List (Option String × Document)) :
    fields? fuel acc [] = none := by
  cases fuel <;> rfl

namespace Extends

variable {fuel fuel' : Nat}

/-! What is read after spaces. -/

theorem value_spaces (h : Extends fuel) {doc : Document}
    (hread : value? fuel (skipSpaces cs) = some (doc, rest)) (hrest : rest ≠ [])
    (more : List Char) (hle : fuel ≤ fuel') :
    value? fuel' (skipSpaces (cs ++ more)) = some (doc, rest ++ more) := by
  have hsome := skipSpaces_ne_nil (value? fuel) (value?_nil fuel) hread
  rw [skipSpaces_append hsome]
  exact h.value _ _ _ hread (fun _ => hrest) more fuel' hle

theorem items_spaces (h : Extends fuel) {acc items : List Document}
    (hread : items? fuel acc (skipSpaces cs) = some (items, rest)) (more : List Char)
    (hle : fuel ≤ fuel') :
    skipSpaces (cs ++ more) = skipSpaces cs ++ more ∧ skipSpaces cs ≠ [] ∧
      items? fuel' acc (skipSpaces cs ++ more) = some (items, rest ++ more) := by
  have hsome := skipSpaces_ne_nil (items? fuel acc) (items?_nil fuel acc) hread
  exact ⟨skipSpaces_append hsome more, hsome, h.items _ _ _ _ hread more fuel' hle⟩

theorem fields_spaces (h : Extends fuel) {acc fields : List (Option String × Document)}
    (hread : fields? fuel acc (skipSpaces cs) = some (fields, rest)) (more : List Char)
    (hle : fuel ≤ fuel') :
    skipSpaces (cs ++ more) = skipSpaces cs ++ more ∧ skipSpaces cs ≠ [] ∧
      fields? fuel' acc (skipSpaces cs ++ more) = some (fields, rest ++ more) := by
  have hsome := skipSpaces_ne_nil (fields? fuel acc) (fields?_nil fuel acc) hread
  exact ⟨skipSpaces_append hsome more, hsome, h.fields _ _ _ _ hread more fuel' hle⟩

/-! One more unit of fuel. -/

theorem value_succ (h : Extends fuel) {doc : Document}
    (hread : value? (fuel + 1) cs = some (doc, rest)) (hnumber : doc.isNumber = true → rest ≠ [])
    (more : List Char) (hle : fuel ≤ fuel') :
    value? (fuel' + 1) (cs ++ more) = some (doc, rest ++ more) := by
  unfold value? at hread
  split at hread
  · next tail =>
      obtain ⟨⟨text, left⟩, hbody, heq⟩ := Option.map_eq_some_iff.mp hread
      obtain ⟨rfl, rfl⟩ := Prod.mk.inj heq
      simp only [List.cons_append, value?]
      rw [stringBody_append hbody]
      rfl
  · next tail =>
      simp only [List.cons_append, value?]
      split at hread
      · next left hspaces =>
          obtain ⟨rfl, rfl⟩ := Prod.mk.inj (Option.some.inj hread)
          rw [skipSpaces_append_of_eq hspaces]
          rfl
      · next hclose =>
          obtain ⟨⟨items, left⟩, hitems, heq⟩ := Option.map_eq_some_iff.mp hread
          obtain ⟨rfl, rfl⟩ := Prod.mk.inj heq
          obtain ⟨hskip, hsome, hitems⟩ := h.items_spaces hitems more hle
          rw [hskip]
          split
          · next heq => exact (append_ne_cons hsome hclose heq).elim
          · rw [hitems]
            rfl
  · next tail =>
      simp only [List.cons_append, value?]
      split at hread
      · next left hspaces =>
          obtain ⟨rfl, rfl⟩ := Prod.mk.inj (Option.some.inj hread)
          rw [skipSpaces_append_of_eq hspaces]
          rfl
      · next hclose =>
          obtain ⟨⟨fields, left⟩, hfields, heq⟩ := Option.map_eq_some_iff.mp hread
          obtain ⟨rfl, rfl⟩ := Prod.mk.inj heq
          obtain ⟨hskip, hsome, hfields⟩ := h.fields_spaces hfields more hle
          rw [hskip]
          split
          · next heq => exact (append_ne_cons hsome hclose heq).elim
          · rw [hfields]
            rfl
  -- The three keywords.
  iterate 3
    · next tail =>
        obtain ⟨left, hword, heq⟩ := Option.map_eq_some_iff.mp hread
        obtain ⟨rfl, rfl⟩ := Prod.mk.inj heq
        simp only [List.cons_append, value?]
        rw [keyword?_append hword]
        rfl
  · obtain ⟨⟨n, left⟩, hliteral, heq⟩ := Option.map_eq_some_iff.mp hread
    obtain ⟨rfl, rfl⟩ := Prod.mk.inj heq
    exact value?_of_literal (literal_append hliteral (hnumber rfl) more) fuel'

theorem items_succ (h : Extends fuel) {acc items : List Document}
    (hread : items? (fuel + 1) acc cs = some (items, rest)) (more : List Char)
    (hle : fuel ≤ fuel') : items? (fuel' + 1) acc (cs ++ more) = some (items, rest ++ more) := by
  unfold items? at hread
  split at hread
  · cases hread
  · next item left hitem =>
      -- A closing bracket or a comma follows, so even a number has come to its end.
      have hsome : left ≠ [] := by
        rintro rfl
        cases hread
      rw [items?, h.value _ _ _ hitem (fun _ => hsome) more fuel' hle]
      split at hread
      · next hspaces =>
          obtain ⟨rfl, rfl⟩ := Prod.mk.inj (Option.some.inj hread)
          simp only
          rw [skipSpaces_append_of_eq hspaces]
          rfl
      · next tail hspaces =>
          obtain ⟨hskip, _, hitems⟩ := h.items_spaces hread more hle
          simp only
          rw [skipSpaces_append_of_eq hspaces]
          simp only
          rw [hskip, hitems]
      · cases hread

theorem fields_succ (h : Extends fuel) {acc fields : List (Option String × Document)}
    (hread : fields? (fuel + 1) acc cs = some (fields, rest)) (more : List Char)
    (hle : fuel ≤ fuel') :
    fields? (fuel' + 1) acc (cs ++ more) = some (fields, rest ++ more) := by
  unfold fields? at hread
  split at hread
  case h_2 => cases hread
  next tail =>
  split at hread
  case h_1 => cases hread
  next name left hname =>
  split at hread
  case h_2 => cases hread
  next afterColon hcolon =>
  split at hread
  case h_1 => cases hread
  next value afterValue hvalue =>
  have hsome : afterValue ≠ [] := by
    rintro rfl
    cases hread
  simp only [List.cons_append, fields?]
  rw [stringBody_append hname]
  simp only
  rw [skipSpaces_append_of_eq hcolon]
  simp only
  rw [h.value_spaces hvalue hsome more hle]
  simp only
  split at hread
  · next hspaces =>
      obtain ⟨rfl, rfl⟩ := Prod.mk.inj (Option.some.inj hread)
      rw [skipSpaces_append_of_eq hspaces]
      rfl
  · next tail hspaces =>
      obtain ⟨hskip, _, hfields⟩ := h.fields_spaces hread more hle
      rw [skipSpaces_append_of_eq hspaces]
      simp only
      rw [hskip, hfields]
  · cases hread

end Extends

/-- Whatever is read from a text is read from longer texts too. -/
theorem extends_all (fuel : Nat) : Extends fuel := by
  induction fuel with
  | zero => exact ⟨nofun, nofun, nofun⟩
  | succ fuel ih =>
      refine ⟨fun cs doc rest hread hnumber more fuel' hle => ?_,
        fun acc cs items rest hread more fuel' hle => ?_,
        fun acc cs fields rest hread more fuel' hle => ?_⟩
      all_goals obtain ⟨fuel', rfl⟩ := Nat.exists_eq_succ_of_ne_zero (Nat.ne_zero_of_lt hle)
      · exact ih.value_succ hread hnumber more (Nat.le_of_succ_le_succ hle)
      · exact ih.items_succ hread more (Nat.le_of_succ_le_succ hle)
      · exact ih.fields_succ hread more (Nat.le_of_succ_le_succ hle)

end Document

/-- A text that begins with the text of an object writes this object, or nothing. -/
theorem parse?_of_prefix {more : List Char} {v v' : Json}
    (h : parse? (String.ofList ('\x7b' :: cs)) = some v)
    (h' : parse? (String.ofList ('\x7b' :: (cs ++ more))) = some v') : v' = v := by
  obtain ⟨doc, hdoc, hv⟩ := Option.bind_eq_some_iff.mp h
  obtain ⟨doc', hdoc', hv'⟩ := Option.bind_eq_some_iff.mp h'
  have hbrace : ∀ tail, skipSpaces ('\x7b' :: tail) = '\x7b' :: tail := fun _ => rfl
  unfold Document.parse? Document.ofChars? at hdoc hdoc'
  rw [String.toList_ofList, hbrace] at hdoc hdoc'
  split at hdoc
  case h_2 => cases hdoc
  next doc₁ rest hread =>
  split at hdoc'
  case h_2 => cases hdoc'
  next doc₂ rest' hread' =>
  split at hdoc
  case isFalse => cases hdoc
  split at hdoc'
  case isFalse => cases hdoc'
  obtain rfl := Option.some.inj hdoc
  obtain rfl := Option.some.inj hdoc'
  have hobject : doc₁.isNumber = false := Document.isNumber_of_brace hread
  -- The fuel is the length of the text, so there is more of it for the longer one.
  have hlength : ('\x7b' :: cs).length + 1 ≤ ('\x7b' :: (cs ++ more)).length + 1 := by simp
  have hlonger := (Document.extends_all _).value _ _ _ hread
    (fun hnumber => by rw [hobject] at hnumber; cases hnumber) more _ hlength
  obtain ⟨rfl, _⟩ := Prod.mk.inj (Option.some.inj (hlonger.symm.trans hread'))
  exact Option.some.inj (hv'.symm.trans hv)

end Json
end Notebook
