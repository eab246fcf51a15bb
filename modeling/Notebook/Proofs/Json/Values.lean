import Notebook.Json.Record
import Notebook.Proofs.Json.Fields

/-!
# Values as documents

A value that was read from a text has its objects in order, and containers do not nest too
deep in it.  `Formed` says so, and what is known of its numbers besides.  Such a value, taken
for a document, has the same value again, and a record is read off it by asking for its fields.

* `toJson?_toDocument`, `formed_of_toJson?`: values that come from documents are formed, and a
  formed value is that of its own document.
* `record?_object`, `record?_ofFields`: reading a record off a value.
-/

set_option autoImplicit false

namespace Notebook
namespace Json

/-- A value in which objects are in order, at most `depth` containers are nested and numbers
are as `P` says. -/
inductive Formed (P : Number → Prop) : Nat → Json → Prop where
  | null {depth : Nat} : Formed P depth .null
  | bool {depth : Nat} (b : Bool) : Formed P depth (.bool b)
  | number {depth : Nat} {n : Number} (hn : P n) : Formed P depth (.number n)
  | string {depth : Nat} (s : String) : Formed P depth (.string s)
  | array {depth : Nat} {items : List Json} (hitems : ∀ v ∈ items, Formed P depth v) :
      Formed P (depth + 1) (.array items)
  | object {depth : Nat} {fields : List (String × Json)} (horder : Ascending fields)
      (hfields : ∀ field ∈ fields, Formed P depth field.2) :
      Formed P (depth + 1) (.object fields)

/-- Whatever its numbers are. -/
abbrev Ordered : Nat → Json → Prop :=
  Formed fun _ => True

variable {P Q : Number → Prop} {depth depth' : Nat} {v : Json}

theorem Formed.mono (h : Formed P depth v) (hP : ∀ n, P n → Q n) (hle : depth ≤ depth') :
    Formed Q depth' v := by
  induction h generalizing depth' with
  | null => exact .null
  | bool b => exact .bool b
  | number hn => exact .number (hP _ hn)
  | string s => exact .string s
  | array _ ih =>
      cases depth' with
      | zero => omega
      | succ depth' => exact .array fun v hv => ih v hv (by omega)
  | object horder _ ih =>
      cases depth' with
      | zero => omega
      | succ depth' => exact .object horder fun field hfield => ih field hfield (by omega)

/-- An object that is written from formed values. -/
theorem formed_ofFields {fields : List (String × Json)}
    (h : ∀ field ∈ fields, Formed P depth field.2) : Formed P (depth + 1) (ofFields fields) :=
  .object (ascending_sortFields fields) fun field hfield => h field (mem_of_mem_sortFields hfield)

@[simp]
theorem ofFields_ne_null (fields : List (String × Json)) : ofFields fields ≠ .null := by
  intro h
  cases h

/-- What an object holds is nested once less. -/
theorem Formed.field (h : Formed P depth v) {name : String} {part : Json}
    (hpart : v.field? name = some part) : Formed P (depth - 1) part := by
  cases h with
  | object horder hfields =>
      obtain ⟨field, hfind, rfl⟩ := Option.map_eq_some_iff.mp hpart
      exact hfields field (List.mem_of_find?_eq_some hfind)
  | _ => cases hpart

/-! ## There and back -/

theorem listToJson?_listToDocument {items : List Json}
    (h : ∀ v ∈ items, v.toDocument.toJson? depth = some v) :
    Document.listToJson? depth (listToDocument items) = some items := by
  induction items with
  | nil => rfl
  | cons item rest ih =>
      obtain ⟨hitem, hrest⟩ := List.forall_mem_cons.mp h
      simp [listToDocument, Document.listToJson?, hitem, ih hrest]

theorem fieldsToJson?_fieldsToDocument {fields : List (String × Json)}
    (h : ∀ field ∈ fields, field.2.toDocument.toJson? depth = some field.2) :
    Document.fieldsToJson? depth (fieldsToDocument fields) = some fields := by
  induction fields with
  | nil => rfl
  | cons field rest ih =>
      obtain ⟨name, value⟩ := field
      obtain ⟨hvalue, hrest⟩ := List.forall_mem_cons.mp h
      simp [fieldsToDocument, Document.fieldsToJson?, hvalue, ih hrest]

/-- A formed value is the value of its own document. -/
theorem toJson?_toDocument (h : Formed P depth v) : v.toDocument.toJson? depth = some v := by
  induction h with
  | null => simp [toDocument, Document.toJson?]
  | bool b => simp [toDocument, Document.toJson?]
  | number hn => simp [toDocument, Document.toJson?]
  | string s => simp [toDocument, Document.toJson?]
  | array _ ih => simp [toDocument, Document.toJson?, listToJson?_listToDocument ih]
  | object horder _ ih =>
      simp [toDocument, Document.toJson?, fieldsToJson?_fieldsToDocument ih, ofFields,
        sortFields_of_ascending horder]

mutual

/-- What a document is read as has its objects in order and is not nested deeper. -/
theorem ordered_of_toJson? : ∀ (doc : Document) (depth : Nat) (v : Json),
    doc.toJson? depth = some v → Ordered depth v
  | .null, depth, v, h => by
      rw [Document.toJson?] at h
      exact Option.some.inj h ▸ .null
  | .bool b, depth, v, h => by
      rw [Document.toJson?] at h
      exact Option.some.inj h ▸ .bool b
  | .number n, depth, v, h => by
      rw [Document.toJson?] at h
      obtain ⟨n, _, rfl⟩ := Option.map_eq_some_iff.mp h
      exact .number trivial
  | .string s, depth, v, h => by
      rw [Document.toJson?] at h
      obtain ⟨s, _, rfl⟩ := Option.map_eq_some_iff.mp h
      exact .string s
  | .array items, 0, v, h => by
      rw [Document.toJson?] at h
      cases h
  | .array items, depth + 1, v, h => by
      rw [Document.toJson?] at h
      obtain ⟨values, hvalues, rfl⟩ := Option.map_eq_some_iff.mp h
      exact .array (ordered_of_listToJson? items depth values hvalues)
  | .object fields, 0, v, h => by
      rw [Document.toJson?] at h
      cases h
  | .object fields, depth + 1, v, h => by
      rw [Document.toJson?] at h
      obtain ⟨values, hvalues, rfl⟩ := Option.map_eq_some_iff.mp h
      exact formed_ofFields (ordered_of_fieldsToJson? fields depth values hvalues)

theorem ordered_of_listToJson? : ∀ (items : List Document) (depth : Nat) (values : List Json),
    Document.listToJson? depth items = some values → ∀ v ∈ values, Ordered depth v
  | [], depth, values, h => by
      obtain rfl := Option.some.inj h
      exact nofun
  | item :: rest, depth, values, h => by
      rw [Document.listToJson?] at h
      split at h
      · next v vs hv hvs =>
          obtain rfl := Option.some.inj h
          exact List.forall_mem_cons.mpr
            ⟨ordered_of_toJson? item depth v hv, ordered_of_listToJson? rest depth vs hvs⟩
      · cases h

theorem ordered_of_fieldsToJson? : ∀ (fields : List (Option String × Document)) (depth : Nat)
    (values : List (String × Json)), Document.fieldsToJson? depth fields = some values →
      ∀ field ∈ values, Ordered depth field.2
  | [], depth, values, h => by
      obtain rfl := Option.some.inj h
      exact nofun
  | (name, item) :: rest, depth, values, h => by
      unfold Document.fieldsToJson? at h
      split at h
      · next n v vs hv hvs =>
          obtain rfl := Option.some.inj h
          exact List.forall_mem_cons.mpr
            ⟨ordered_of_toJson? item depth v hv, ordered_of_fieldsToJson? rest depth vs hvs⟩
      · cases h

end

/-! ## Records -/

theorem mapM_eq_some {α β : Type} {f : α → Option β} {g : α → β} {items : List α}
    (h : ∀ a ∈ items, f a = some (g a)) : items.mapM f = some (items.map g) := by
  induction items with
  | nil => rfl
  | cons a rest ih =>
      obtain ⟨ha, hrest⟩ := List.forall_mem_cons.mp h
      rw [List.mapM_cons, ha, ih hrest]
      rfl

/-- What a record finds where an object has, or has not, a value. -/
def Found.of : Option Json → Found
  | none => .absent
  | some v => .given v.toDocument

theorem named_of_lt {name : String} {fields : List (String × Json)}
    (h : ∀ field ∈ fields, name < field.1) :
    Document.named name (fieldsToDocument fields) = [] := by
  induction fields with
  | nil => rfl
  | cons field rest ih =>
      obtain ⟨other, value⟩ := field
      obtain ⟨hless, hrest⟩ := List.forall_mem_cons.mp h
      have hne : other ≠ name := fun heq => String.lt_irrefl name (heq ▸ hless)
      have hnone := ih hrest
      unfold Document.named at hnone ⊢
      simpa [fieldsToDocument, hne] using hnone

/-- A name stands at most once in an object. -/
theorem named_fieldsToDocument {fields : List (String × Json)} (h : Ascending fields)
    (name : String) : Document.named name (fieldsToDocument fields) =
      (((Json.object fields).field? name).map toDocument).toList := by
  induction fields with
  | nil => rfl
  | cons field rest ih =>
      obtain ⟨other, value⟩ := field
      obtain ⟨hless, hrest⟩ := List.pairwise_cons.mp h
      by_cases hname : other = name
      · subst hname
        -- The names that follow are greater, so this one does not come again.
        have hnone := named_of_lt hless
        unfold Document.named at hnone ⊢
        simpa [fieldsToDocument, field?] using hnone
      · have hlater := ih hrest
        unfold Document.named at hlater ⊢
        simpa [fieldsToDocument, field?, hname] using hlater

theorem single?_fieldsToDocument {fields : List (String × Json)} (h : Ascending fields)
    (name : String) : Document.single? (fieldsToDocument fields) name =
      some (Found.of ((Json.object fields).field? name)) := by
  unfold Document.single?
  rw [named_fieldsToDocument h]
  cases (Json.object fields).field? name <;> rfl

theorem any_isNone_fieldsToDocument (fields : List (String × Json)) :
    (fieldsToDocument fields).any (fun field => field.1.isNone) = false := by
  induction fields with
  | nil => rfl
  | cons field rest ih =>
      obtain ⟨name, value⟩ := field
      simp [fieldsToDocument, ih]

/-- The fields of a record are those of the object. -/
theorem record?_object {fields : List (String × Json)} (h : Ascending fields)
    (names : List String) : (Json.object fields).toDocument.record? names =
      some (names.map fun name => Found.of ((Json.object fields).field? name)) := by
  simp only [toDocument, Document.record?, any_isNone_fieldsToDocument, Bool.false_eq_true,
    if_false]
  exact mapM_eq_some fun name _ => single?_fieldsToDocument h name

/-- A record without its tag is read as if the tag were not there. -/
theorem record?_untagged {fields : List (String × Json)} (h : Ascending fields) {tag : String}
    {names : List String} (htag : tag ∉ names) :
    (Document.object ((fieldsToDocument fields).filter fun field => field.1 != some tag)).record?
        names = (Json.object fields).toDocument.record? names := by
  have hany : ((fieldsToDocument fields).filter fun field => field.1 != some tag).any
      (fun field => field.1.isNone) = false := by
    have hall := any_isNone_fieldsToDocument fields
    rw [List.any_eq_false] at hall ⊢
    exact fun field hfield => hall field (List.mem_filter.mp hfield).1
  have hsingle : ∀ name ∈ names, Document.single?
      ((fieldsToDocument fields).filter fun field => field.1 != some tag) name =
        some (Found.of ((Json.object fields).field? name)) := by
    intro name hname
    have hne : name ≠ tag := fun heq => htag (heq ▸ hname)
    rw [← single?_fieldsToDocument h]
    unfold Document.single? Document.named
    rw [List.filter_filter]
    -- What has the name of a field has not the name of the tag.
    have hfilter : (fun field : Option String × Document =>
        field.1 == some name && field.1 != some tag) = fun field => field.1 == some name := by
      funext field
      by_cases heq : field.1 = some name <;> simp [heq, hne]
    rw [hfilter]
  rw [record?_object h]
  simp only [Document.record?, hany, Bool.false_eq_true, if_false]
  exact mapM_eq_some hsingle

/-- A record is read off an object whose fields were written in any order. -/
@[simp]
theorem record?_ofFields (fields : List (String × Json)) (names : List String) :
    (ofFields fields).toDocument.record? names =
      some (names.map fun name => Found.of (fieldOf? name fields.reverse)) := by
  simp only [← field?_ofFields]
  exact record?_object (ascending_sortFields fields) names

namespace Found

@[simp]
theorem required_of {α : Type} (read : Document → Option α) (v : Json) :
    (of (some v)).required read = read v.toDocument := by
  rw [of, required]

@[simp]
theorem orElse_of {α : Type} (default : α) (read : Document → Option α) (v : Json) :
    (of (some v)).orElse default read = read v.toDocument := by
  rw [of, orElse]

@[simp]
theorem orElse_absent {α : Type} (default : α) (read : Document → Option α) :
    (of none).orElse default read = some default := rfl

/-- What may be missing is read back if it is read back where it is there. -/
theorem optional_of {α : Type} {encode : α → Json} {read : Document → Option α}
    (hread : ∀ a, read (encode a).toDocument = some a) (hnull : ∀ a, encode a ≠ .null)
    (value : Option α) :
    (of (some (Json.optional encode value))).optional read = some value := by
  cases value with
  | none => rfl
  | some a =>
      have hdoc : (encode a).toDocument ≠ .null := by
        intro hdoc
        cases hencode : encode a with
        | null => exact hnull a hencode
        | _ =>
            rw [hencode, toDocument] at hdoc
            cases hdoc
      change (Found.given (encode a).toDocument).optional read = some (some a)
      unfold optional
      split
      · next heq => exact absurd (Found.given.inj heq) hdoc
      · next doc heq =>
          obtain rfl := Found.given.inj heq
          rw [hread a]
          rfl
      · next heq => cases heq
      · next heq => cases heq

end Found

/-! ## Simple values -/

@[simp]
theorem string?_toDocument (s : String) : (Json.string s).toDocument.string? = some s := rfl

@[simp]
theorem variant?_toDocument {α : Type} (route : Document.Route) (table : List (String × α))
    (name : String) : (Json.string name).toDocument.variant? route table =
      (table.find? (fun entry => entry.1 == name)).map (·.2) := rfl

/-- An integer of a range is read from there. -/
theorem integer?_toDocument {low high i : Int} (h : low ≤ i ∧ i < high) :
    (Json.int i).toDocument.integer? low high = some i :=
  if_pos h

@[simp]
theorem word64?_toDocument (n : UInt64) :
    (Json.nat n.toNat).toDocument.word64? = some n := by
  have hrange : (n.toNat : Int) < UInt64.size := by exact_mod_cast n.toNat_lt_size
  have hread := integer?_toDocument ⟨Int.natCast_nonneg n.toNat, hrange⟩
  unfold Document.word64?
  rw [show Json.nat n.toNat = Json.int n.toNat from rfl, hread]
  simp

@[simp]
theorem word32?_toDocument (n : UInt32) :
    (Json.nat n.toNat).toDocument.word32? = some n := by
  have hrange : (n.toNat : Int) < UInt32.size := by exact_mod_cast n.toNat_lt_size
  have hread := integer?_toDocument ⟨Int.natCast_nonneg n.toNat, hrange⟩
  unfold Document.word32?
  rw [show Json.nat n.toNat = Json.int n.toNat from rfl, hread]
  simp

@[simp]
theorem signed32?_toDocument (n : Int32) :
    (Json.int n.toInt).toDocument.signed32? = some n := by
  have hrange : -2147483648 ≤ n.toInt ∧ n.toInt < 2147483648 := ⟨n.le_toInt, n.toInt_lt⟩
  unfold Document.signed32?
  rw [integer?_toDocument hrange]
  simp

/-- A list is read back if every item is. -/
theorem list?_toDocument {α : Type} {encode : α → Json} {read : Document → Option α}
    (hread : ∀ a, read (encode a).toDocument = some a) (items : List α) :
    (Json.array (items.map encode)).toDocument.list? read = some items := by
  change (listToDocument (items.map encode)).mapM read = some items
  induction items with
  | nil => rfl
  | cons item rest ih =>
      rw [List.map_cons, listToDocument, List.mapM_cons, hread item, ih]
      rfl

end Json
end Notebook
