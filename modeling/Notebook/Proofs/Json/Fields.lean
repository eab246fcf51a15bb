import Notebook.Json.Basic

/-!
# Fields of written objects

An object is written from a list of fields.  The value of a field is the last one that
the list gives it, wherever it stands among the others.  The fields of the object itself
are in ascending order, so none stands twice, and putting them in order again changes nothing.

* `field?_ofFields`: the fields of an object that is written from a list.
* `ascending_sortFields`, `sortFields_of_ascending`: the order of its fields.
-/

set_option autoImplicit false

namespace Notebook
namespace Json

/-- The value that a list of fields gives a name first. -/
def fieldOf? (name : String) (fields : List (String × Json)) : Option Json :=
  (fields.find? fun field => field.1 == name).map (·.2)

theorem fieldOf?_setField (name key : String) (value : Json) (fields : List (String × Json)) :
    fieldOf? key (setField name value fields) =
      if name = key then some value else fieldOf? key fields := by
  induction fields with
  | nil => by_cases h : name = key <;> simp [setField, fieldOf?, h]
  | cons field rest ih =>
      obtain ⟨other, old⟩ := field
      unfold setField
      by_cases hsame : name = other
      · subst hsame
        by_cases h : name = key <;> simp [fieldOf?, h]
      · rw [if_neg hsame]
        by_cases hless : name < other
        · rw [if_pos hless]
          by_cases h : name = key <;> simp [fieldOf?, h]
        · rw [if_neg hless]
          by_cases hother : other = key
          · have h : ¬name = key := fun h => hsame (h.trans hother.symm)
            simp [fieldOf?, hother, h]
          · have hrest : ∀ fields, fieldOf? key ((other, old) :: fields) = fieldOf? key fields := by
              intro fields
              simp [fieldOf?, hother]
            rw [hrest, hrest, ih]

/-- The last value that a list of fields gives a name is the value of the field. -/
@[simp]
theorem field?_ofFields (name : String) (fields : List (String × Json)) :
    (ofFields fields).field? name = fieldOf? name fields.reverse := by
  have hfold : ∀ done : List (String × Json),
      fieldOf? name (fields.foldl (fun done field => setField field.1 field.2 done) done) =
        (fieldOf? name fields.reverse).or (fieldOf? name done) := by
    induction fields with
    | nil => exact fun done => rfl
    | cons field rest ih =>
        intro done
        rw [List.foldl_cons, ih, fieldOf?_setField]
        simp only [fieldOf?, List.reverse_cons, List.find?_append]
        by_cases h : field.1 = name
        · cases rest.reverse.find? fun field => field.1 == name <;> simp [h]
        · cases rest.reverse.find? fun field => field.1 == name <;> simp [h]
  have hall := hfold []
  rw [show fieldOf? name [] = none from rfl, Option.or_none] at hall
  exact hall

/-! ## Order -/

/-- Fields in ascending order of their names, each name once. -/
def Ascending (fields : List (String × Json)) : Prop :=
  fields.Pairwise fun a b => a.1 < b.1

theorem mem_setField {name : String} {value : Json} {fields : List (String × Json)}
    {field : String × Json} (h : field ∈ setField name value fields) :
    field = (name, value) ∨ field ∈ fields := by
  induction fields with
  | nil => exact Or.inl (List.mem_singleton.mp h)
  | cons first rest ih =>
      unfold setField at h
      split at h
      · rcases List.mem_cons.mp h with hfield | hrest
        · exact Or.inl hfield
        · exact Or.inr (List.mem_cons_of_mem _ hrest)
      · split at h
        · exact List.mem_cons.mp h
        · rcases List.mem_cons.mp h with hfirst | hrest
          · exact Or.inr (hfirst ▸ List.mem_cons_self)
          · exact (ih hrest).imp id (List.mem_cons_of_mem _)

/-- No field comes in that was not written. -/
theorem mem_of_mem_sortFields {fields : List (String × Json)} {field : String × Json}
    (h : field ∈ sortFields fields) : field ∈ fields := by
  have hfold : ∀ done : List (String × Json),
      field ∈ fields.foldl (fun done field => setField field.1 field.2 done) done →
        field ∈ fields ∨ field ∈ done := by
    clear h
    induction fields with
    | nil => exact fun done => Or.inr
    | cons first rest ih =>
        intro done h
        rcases ih _ h with hrest | hset
        · exact Or.inl (List.mem_cons_of_mem _ hrest)
        · rcases mem_setField hset with hfirst | hdone
          · exact Or.inl (hfirst ▸ List.mem_cons_self)
          · exact Or.inr hdone
  exact (hfold [] h).resolve_right List.not_mem_nil

theorem Ascending.setField {fields : List (String × Json)} (h : Ascending fields)
    (name : String) (value : Json) : Ascending (setField name value fields) := by
  induction fields with
  | nil => exact List.pairwise_singleton _ _
  | cons first rest ih =>
      obtain ⟨other, old⟩ := first
      obtain ⟨hfirst, hrest⟩ := List.pairwise_cons.mp h
      unfold Json.setField
      split
      · next hsame =>
          subst hsame
          exact List.pairwise_cons.mpr ⟨hfirst, hrest⟩
      · next hne =>
          split
          · next hless =>
              refine List.pairwise_cons.mpr ⟨fun field hfield => ?_, h⟩
              rcases List.mem_cons.mp hfield with rfl | hmem
              · exact hless
              · exact String.lt_trans hless (hfirst field hmem)
          · next hnot =>
              have hless : other < name := Std.lt_of_le_of_ne hnot fun heq => hne heq.symm
              refine List.pairwise_cons.mpr ⟨fun field hfield => ?_, ih hrest⟩
              rcases mem_setField hfield with rfl | hmem
              · exact hless
              · exact hfirst field hmem

/-- The fields of an object are in order, however they were written. -/
theorem ascending_sortFields (fields : List (String × Json)) : Ascending (sortFields fields) := by
  have hfold : ∀ done : List (String × Json), Ascending done →
      Ascending (fields.foldl (fun done field => setField field.1 field.2 done) done) := by
    induction fields with
    | nil => exact fun done h => h
    | cons first rest ih => exact fun done h => ih _ (h.setField first.1 first.2)
  exact hfold [] List.Pairwise.nil

theorem setField_of_lt {name : String} {fields : List (String × Json)}
    (h : ∀ field ∈ fields, field.1 < name) (value : Json) :
    setField name value fields = fields ++ [(name, value)] := by
  induction fields with
  | nil => rfl
  | cons first rest ih =>
      obtain ⟨other, old⟩ := first
      obtain ⟨hfirst, hrest⟩ := List.forall_mem_cons.mp h
      have hne : ¬name = other := fun heq => String.lt_irrefl name (heq ▸ hfirst)
      have hnot : ¬name < other := fun hless => String.lt_irrefl _ (String.lt_trans hless hfirst)
      rw [setField, if_neg hne, if_neg hnot, ih hrest, List.cons_append]

/-- Fields that are in order stay as they are. -/
theorem sortFields_of_ascending {fields : List (String × Json)} (h : Ascending fields) :
    sortFields fields = fields := by
  -- What has been taken so far comes before what follows.
  have hfold : ∀ done : List (String × Json), Ascending (done ++ fields) →
      fields.foldl (fun done field => setField field.1 field.2 done) done = done ++ fields := by
    clear h
    induction fields with
    | nil => exact fun done _ => (List.append_nil done).symm
    | cons first rest ih =>
        intro done hall
        have hless : ∀ field ∈ done, field.1 < first.1 := fun field hfield =>
          (List.pairwise_append.mp hall).2.2 field hfield first List.mem_cons_self
        rw [List.foldl_cons, setField_of_lt hless, ih _ (by simpa using hall), List.append_assoc,
          List.singleton_append]
  exact hfold [] h

end Json
end Notebook
