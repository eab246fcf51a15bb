import Notebook.Frame
import Notebook.Proofs.Json.Fields

/-!
# Shapes of what is written

An intent is refused, and a notice reaches nobody, if its payload has not the shape of its
event.  Every payload has.

* `Schema.problem?_record_eq_none_iff` and its likes: which values have a shape.
* `Notice.shape`, `Intent.shape`: the payload of every notice and every intent has its shape.
* `Frame.encode_eq`: so every notice makes a frame.
-/

set_option autoImplicit false

namespace Notebook

namespace Schema

/-! ## Shapes of written values -/

@[simp]
theorem problem?_string (s : String) : problem? .string (.string s) = none := rfl

@[simp]
theorem problem?_keyword (words : List String) (s : String) :
    problem? (.keyword words) (.string s) =
      if s ∈ words then none else some (.otherWord (.string s)) := rfl

@[simp]
theorem problem?_oneOf (shapes : List Schema) (value : Json) :
    problem? (.oneOf shapes) value =
      if countFitting shapes value = 1 then none else some (.noShape value) := rfl

theorem problem?_list (item : Schema) (items : List Json) :
    problem? (.list item) (.array items) = items.findSome? (problem? item) := rfl

theorem problem?_nullable (shape : Schema) (value : Json) :
    problem? (.nullable shape) value = none ∨
      problem? (.nullable shape) value = problem? shape value := by
  cases value with
  | null => exact Or.inl rfl
  | _ => exact Or.inr rfl

theorem problem?_object (required : List String) (properties : List (String × Schema))
    (fields : List (String × Json)) :
    problem? (.record required properties) (.object fields) =
      match required.find? fun field => ((Json.object fields).field? field).isNone with
      | some field => some (.missing field)
      | none => propertyProblem? properties (.object fields) := rfl

@[simp]
theorem propertyProblem?_nil (value : Json) : propertyProblem? [] value = none := rfl

@[simp]
theorem propertyProblem?_cons (field : String) (shape : Schema)
    (rest : List (String × Schema)) (value : Json) :
    propertyProblem? ((field, shape) :: rest) value =
      match value.field? field with
      | none => propertyProblem? rest value
      | some part =>
        match problem? shape part with
        | some problem => some problem
        | none => propertyProblem? rest value := rfl

@[simp]
theorem countFitting_nil (value : Json) : countFitting [] value = 0 := rfl

@[simp]
theorem countFitting_cons (shape : Schema) (rest : List Schema) (value : Json) :
    countFitting (shape :: rest) value =
      (if (problem? shape value).isNone then 1 else 0) + countFitting rest value := rfl

/-- The problem of an object that was written from a list of fields. -/
@[simp]
theorem problem?_record (required : List String) (properties : List (String × Schema))
    (fields : List (String × Json)) :
    problem? (.record required properties) (Json.ofFields fields) =
      match required.find? fun field => (Json.fieldOf? field fields.reverse).isNone with
      | some field => some (.missing field)
      | none => propertyProblem? properties (Json.ofFields fields) := by
  simp only [← Json.field?_ofFields]
  exact problem?_object required properties _

@[simp]
theorem problem?_int (i : Int) : problem? .integer (.int i) = none := by
  change integerProblem? (.int i) = none
  simp [integerProblem?, Json.int, isWhole]

@[simp]
theorem problem?_nat (n : Nat) : problem? .natural (.nat n) = none := by
  change naturalProblem? (.nat n) = none
  simp [naturalProblem?, Json.nat, isWhole, isBelowZero]

/-- What may be missing has its shape if it has it when it is there. -/
theorem problem?_optional {α : Type} {shape : Schema} {encode : α → Json}
    (h : ∀ a, problem? shape (encode a) = none) (value : Option α) :
    problem? (.nullable shape) (Json.optional encode value) = none := by
  cases value with
  | none => rfl
  | some a =>
      rcases problem?_nullable shape (encode a) with hnone | hsame
      · exact hnone
      · exact hsame.trans (h a)

/-- A list has its shape if every item has. -/
theorem problem?_map {α : Type} {item : Schema} {encode : α → Json}
    (h : ∀ a, problem? item (encode a) = none) (items : List α) :
    problem? (.list item) (.array (items.map encode)) = none := by
  rw [problem?_list, List.findSome?_eq_none_iff]
  intro value hvalue
  obtain ⟨a, _, rfl⟩ := List.mem_map.mp hvalue
  exact h a

/-! ## Values of a shape -/

theorem problem?_string_eq_none_iff {value : Json} :
    problem? .string value = none ↔ ∃ s, value = .string s := by
  constructor
  · intro h
    cases value with
    | string s => exact ⟨s, rfl⟩
    | _ => cases h
  · rintro ⟨s, rfl⟩
    rfl

theorem problem?_keyword_eq_none_iff {words : List String} {value : Json} :
    problem? (.keyword words) value = none ↔ ∃ s ∈ words, value = .string s := by
  constructor
  · intro h
    cases value with
    | string s =>
        rw [problem?_keyword] at h
        split at h
        · next hs => exact ⟨s, hs, rfl⟩
        · cases h
    | _ => cases h
  · rintro ⟨s, hs, rfl⟩
    rw [problem?_keyword, if_pos hs]

theorem problem?_list_eq_none_iff {item : Schema} {value : Json} :
    problem? (.list item) value = none ↔
      ∃ items, value = .array items ∧ ∀ v ∈ items, problem? item v = none := by
  constructor
  · intro h
    cases value with
    | array items => exact ⟨items, rfl, List.findSome?_eq_none_iff.mp h⟩
    | _ => cases h
  · rintro ⟨items, rfl, hitems⟩
    exact List.findSome?_eq_none_iff.mpr hitems

theorem propertyProblem?_eq_none_iff {properties : List (String × Schema)} {value : Json} :
    propertyProblem? properties value = none ↔
      ∀ property ∈ properties, ∀ part, value.field? property.1 = some part →
        problem? property.2 part = none := by
  induction properties with
  | nil => simp
  | cons property rest ih =>
      obtain ⟨field, shape⟩ := property
      rw [propertyProblem?_cons, List.forall_mem_cons, ← ih]
      cases value.field? field with
      | none => simp
      | some part => cases hpart : problem? shape part <;> simp [hpart]

/-- An object has its shape if no required field is missing and every property that is there
has its own shape. -/
theorem problem?_record_eq_none_iff {required : List String}
    {properties : List (String × Schema)} {value : Json} :
    problem? (.record required properties) value = none ↔
      (∃ fields, value = .object fields) ∧
      (∀ field ∈ required, ∃ part, value.field? field = some part) ∧
      ∀ property ∈ properties, ∀ part, value.field? property.1 = some part →
        problem? property.2 part = none := by
  constructor
  · intro h
    cases value with
    | object fields =>
        rw [problem?_object] at h
        split at h
        · cases h
        · next hfind =>
            refine ⟨⟨fields, rfl⟩, fun field hfield => ?_, propertyProblem?_eq_none_iff.mp h⟩
            have hthere := List.find?_eq_none.mp hfind field hfield
            simpa [Option.isNone_iff_eq_none, Option.ne_none_iff_exists'] using hthere
    | _ => cases h
  · rintro ⟨⟨fields, rfl⟩, hrequired, hproperties⟩
    have hfind : (required.find? fun field => ((Json.object fields).field? field).isNone) =
        none := by
      refine List.find?_eq_none.mpr fun field hfield => ?_
      obtain ⟨part, hpart⟩ := hrequired field hfield
      simp [hpart]
    rw [problem?_object, hfind]
    exact propertyProblem?_eq_none_iff.mpr hproperties

theorem strings_of_list {value : Json} (h : problem? (.list .string) value = none) :
    ∃ items, value = Json.strings items := by
  obtain ⟨values, rfl, hvalues⟩ := problem?_list_eq_none_iff.mp h
  suffices hitems : ∃ items : List String, values = items.map Json.string by
    obtain ⟨items, rfl⟩ := hitems
    exact ⟨items, rfl⟩
  clear h
  induction values with
  | nil => exact ⟨[], rfl⟩
  | cons first rest ih =>
      obtain ⟨hfirst, hrest⟩ := List.forall_mem_cons.mp hvalues
      obtain ⟨s, rfl⟩ := problem?_string_eq_none_iff.mp hfirst
      obtain ⟨items, rfl⟩ := ih hrest
      exact ⟨s :: items, rfl⟩

section Record

variable {required : List String} {properties : List (String × Schema)} {value : Json}

/-- What an object of a record's shape has under the name of a property. -/
theorem property_of_record (h : problem? (.record required properties) value = none)
    {name : String} {shape : Schema} (hproperty : (name, shape) ∈ properties) {part : Json}
    (hpart : value.field? name = some part) : problem? shape part = none :=
  (problem?_record_eq_none_iff.mp h).2.2 (name, shape) hproperty part hpart

theorem string_of_record (h : problem? (.record required properties) value = none)
    (name : String) (hrequired : name ∈ required) (hproperty : (name, .string) ∈ properties) :
    ∃ s, value.field? name = some (.string s) := by
  obtain ⟨part, hpart⟩ := (problem?_record_eq_none_iff.mp h).2.1 name hrequired
  obtain ⟨s, rfl⟩ := problem?_string_eq_none_iff.mp (property_of_record h hproperty hpart)
  exact ⟨s, hpart⟩

theorem keyword_of_record (h : problem? (.record required properties) value = none)
    (name : String) (words : List String) (hrequired : name ∈ required)
    (hproperty : (name, .keyword words) ∈ properties) :
    ∃ s ∈ words, value.field? name = some (.string s) := by
  obtain ⟨part, hpart⟩ := (problem?_record_eq_none_iff.mp h).2.1 name hrequired
  obtain ⟨s, hs, rfl⟩ := problem?_keyword_eq_none_iff.mp (property_of_record h hproperty hpart)
  exact ⟨s, hs, hpart⟩

end Record

/-- If shapes fit at all, one of them does. -/
theorem exists_of_countFitting_ne_zero {shapes : List Schema} {value : Json}
    (h : countFitting shapes value ≠ 0) : ∃ shape ∈ shapes, problem? shape value = none := by
  induction shapes with
  | nil => exact absurd rfl h
  | cons shape rest ih =>
      by_cases hshape : problem? shape value = none
      · exact ⟨shape, List.mem_cons_self, hshape⟩
      · rw [countFitting_cons, if_neg (by simpa using hshape), Nat.zero_add] at h
        obtain ⟨other, hother, hfits⟩ := ih h
        exact ⟨other, List.mem_cons_of_mem _ hother, hfits⟩

/-! ## Shapes of the domain -/

theorem problem?_position (p : Position) : problem? position p.toJson = none := by
  simp [position, Position.toJson, Json.fieldOf?]

theorem problem?_quickInfo (q : QuickInfo) : problem? QuickInfo.schema q.toJson = none := by
  simp [QuickInfo.schema, QuickInfo.toJson, Json.fieldOf?, problem?_position]

theorem problem?_target (t : Target) : problem? Target.schema t.toJson = none := by
  simp [Target.schema, Target.toJson, Json.fieldOf?, problem?_position]

theorem problem?_completion (c : Completion) :
    problem? Completion.schema c.toJson = none := by
  have hinsert := problem?_optional problem?_string c.insertText
  simp [Completion.schema, Completion.toJson, Json.fieldOf?, hinsert]

theorem problem?_diagnostic (d : Diagnostic) : problem? diagnostic d.toJson = none := by
  have hseverity : d.severity.label ∈ ["error", "warning", "info", "hint"] := by
    cases d.severity <;> simp [Severity.label]
  simp only [List.mem_cons, List.not_mem_nil, or_false] at hseverity
  simp [diagnostic, Diagnostic.toJson, Json.fieldOf?, problem?_position, hseverity]

theorem problem?_cellStatus (status : CellStatus) :
    problem? cellStatus status.toJson = none := by
  cases status <;> simp [cellStatus, CellStatus.toJson, CellStatus.name]

/-- Every cell is written in the shape of a cell, and in only one of its four kinds. -/
theorem problem?_cell (c : Cell) : problem? cell c.toJson = none := by
  cases c with
  | title c =>
      simp [cell, textCell, codeCell, manifestCell, Cell.toJson, TextCell.fields,
        Json.fieldOf?]
  | markdown c =>
      simp [cell, textCell, codeCell, manifestCell, Cell.toJson, TextCell.fields,
        Json.fieldOf?]
  | code c =>
      have hstatus := problem?_cellStatus c.status
      have hlanguage : problem? (.keyword ["javascript", "typescript"]) c.language.toJson =
          none := by
        cases c.language <;> simp [Language.toJson, Language.name]
      simp [cell, textCell, codeCell, manifestCell, Cell.toJson, CodeCell.fields,
        Json.fieldOf?, hstatus, hlanguage]
  | manifest c =>
      have hstatus := problem?_cellStatus c.status
      simp [cell, textCell, codeCell, manifestCell, Cell.toJson, ManifestCell.fields,
        Json.fieldOf?, hstatus]

end Schema

/-- The payload of every notice has the shape of its event. -/
theorem Notice.shape (notice : Notice) :
    ∃ schema, Notice.schema? notice.event = some schema ∧
      schema.problem? notice.payload = none := by
  cases notice with
  | statusChanged cell status =>
      have hstatus := Schema.problem?_cellStatus status
      exact ⟨_, rfl, by simp [payload, Json.fieldOf?, hstatus]⟩
  | updated cell =>
      have hcell := Schema.problem?_cell cell
      exact ⟨_, rfl, by simp [payload, Json.fieldOf?, hcell]⟩
  | deleted cell => exact ⟨_, rfl, by simp [payload, Json.fieldOf?]⟩
  | output cell stream data =>
      have hstream : stream.name ∈ ["stdout", "stderr"] := by
        cases stream <;> simp [OutputStream.name]
      simp only [List.mem_cons, List.not_mem_nil, or_false] at hstream
      exact ⟨_, rfl, by simp [payload, Json.fieldOf?, hstream]⟩
  | failed cell message =>
      have hcell := Schema.problem?_optional
        (fun id : CellId => Schema.problem?_string id.text) cell
      exact ⟨_, rfl, by simp [payload, Json.fieldOf?, hcell]⟩
  | diagnostics cell items =>
      have hitems := Schema.problem?_map Schema.problem?_diagnostic items
      exact ⟨_, rfl, by simp [payload, findings, findingsSchema, Json.fieldOf?, hitems]⟩
  | suggestions cell items =>
      have hitems := Schema.problem?_map Schema.problem?_diagnostic items
      exact ⟨_, rfl, by simp [payload, findings, findingsSchema, Json.fieldOf?, hitems]⟩
  | quickinfo request info =>
      have hinfo := Schema.problem?_optional Schema.problem?_quickInfo info
      exact ⟨_, rfl, by simp [payload, Json.fieldOf?, hinfo]⟩
  | definition request location =>
      have htarget := Schema.problem?_optional Schema.problem?_target location
      exact ⟨_, rfl, by simp [payload, Json.fieldOf?, htarget]⟩
  | completions request entries =>
      have hentries := Schema.problem?_map Schema.problem?_completion entries
      exact ⟨_, rfl, by simp [payload, Json.fieldOf?, hentries]⟩
  | install status packages exitCode =>
      have hstatus : status.name ∈ ["installing", "complete", "failed"] := by
        cases status <;> simp [InstallStatus.name]
      have hcode := Schema.problem?_optional (fun code : Int32 => Schema.problem?_int code.toInt)
        exitCode
      have hpackages := Schema.problem?_map Schema.problem?_string packages
      simp only [List.mem_cons, List.not_mem_nil, or_false] at hstatus
      exact ⟨_, rfl, by
        simp [payload, Json.fieldOf?, Json.strings, hstatus, hcode, hpackages]⟩
  | service status =>
      have hstatus : status.name ∈ ["running", "stopped"] := by
        cases status <;> simp [ServiceStatus.name]
      simp only [List.mem_cons, List.not_mem_nil, or_false] at hstatus
      exact ⟨_, rfl, by simp [payload, Json.fieldOf?, hstatus]⟩

/-- The payload of every intent has the shape of its event. -/
theorem Intent.shape (intent : Intent) :
    ∃ schema, Intent.schema? intent.event = some schema ∧
      schema.problem? intent.payload = none := by
  cases intent with
  | create index cell =>
      have hcell := Schema.problem?_cell cell
      exact ⟨_, rfl, by simp [payload, Json.fieldOf?, hcell]⟩
  | install packages =>
      have hpackages := Schema.problem?_map Schema.problem?_string packages
      exact ⟨_, rfl, by simp [payload, Json.fieldOf?, Json.strings, hpackages]⟩
  | navigate navigation query =>
      have hquery : Schema.problem? querySchema (payload (.navigate navigation query)) = none := by
        simp [payload, querySchema, Json.fieldOf?]
      cases navigation <;> exact ⟨_, rfl, hquery⟩
  | _ => exact ⟨_, rfl, by simp [payload, cellPayload, cellSchema, Json.fieldOf?]⟩

/-- Every notice makes a frame. -/
theorem Frame.encode_eq (session : SessionId) (notice : Notice) :
    encode session notice = some (render session.topic notice.event notice.payload) := by
  obtain ⟨schema, hschema, hshape⟩ := notice.shape
  simp [encode, hschema, Schema.accepts, hshape]

end Notebook
