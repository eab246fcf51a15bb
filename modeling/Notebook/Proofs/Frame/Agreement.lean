import Notebook.Proofs.Frame.RoundTrip

/-!
# The schema and the reader agree

A payload is judged twice: its schema says whether it has the shape of its event, and then
the intent is read off it.  What the first accepts, the second reads, if the one number of
the event is a whole number of 64 bits in plain digits; for the schema a number may also be
larger or written with a point.

`Json.keep` is what the reader has of an object: the declared fields, and the defaults of
those that are missing.

* `Cell.ofDocument?_of_shape`: a value of the shape of a cell is read as the cell it declares.
* `Intent.ofKind?_of_shape`: a payload is read as the intent that it declares.
* `Frame.decode_of_accepts`: a frame with a payload that is accepted becomes a message.
-/

set_option autoImplicit false

namespace Notebook

open Json (Found Ordered fieldOf?)
open Json.Document (Route)

/-! ## Declared fields -/

namespace Json

/-- A field that a record declares. -/
structure Declared where
  name : String
  /-- What stands for the field where it is missing. -/
  default? : Option Json
  /-- What of its value is kept. -/
  part : Json → Json

/-- A field that is kept as it is, and has to be there. -/
def Declared.plain (name : String) : Declared :=
  ⟨name, none, id⟩

/-- A field that is kept as it is, or else has a default. -/
def Declared.defaulting (name : String) (value : Json) : Declared :=
  ⟨name, some value, id⟩

/-- What an object has under a declared field. -/
def Declared.of? (field : Declared) (v : Json) : Option Json :=
  ((v.field? field.name).map field.part).or field.default?

namespace Declared

variable (name : String) (value v : Json)

@[simp]
theorem name_plain : (plain name).name = name := rfl

@[simp]
theorem name_defaulting : (defaulting name value).name = name := rfl

@[simp]
theorem of?_plain : (plain name).of? v = v.field? name := by
  simp [of?, plain]

@[simp]
theorem of?_defaulting : (defaulting name value).of? v = (v.field? name).or (some value) := by
  simp [of?, defaulting]

end Declared

/-- An object restricted to declared fields, with the defaults of those that are missing. -/
def keep (fields : List Declared) (v : Json) : Json :=
  ofFields (fields.filterMap fun field => (field.of? v).map fun part => (field.name, part))

end Json

open Json (keep)
open Json.Declared (plain defaulting)

/-- The fields that the kinds of cell declare. -/
def CellKind.declared : CellKind → List Json.Declared
  | .title => [plain "type", plain "id", plain "text"]
  | .markdown => [plain "type", plain "id", plain "text"]
  | .code =>
    [plain "type", plain "id", plain "source", plain "filename", plain "language",
     defaulting "status" CellStatus.idle.toJson]
  | .manifest =>
    [plain "type", plain "id", plain "source", defaulting "status" CellStatus.idle.toJson]

/-- What is kept of a cell: the fields that the kind under `type` declares. -/
def Cell.kept (v : Json) : Json :=
  match ((v.field? "type").bind Json.string?).bind fun name =>
      CellKind.table.find? fun entry => entry.1 == name with
  | some (_, kind) => keep kind.declared v
  | none => v

namespace Intent

/-- The fields that the payloads of intents declare. -/
def Kind.declared : Kind → List Json.Declared
  | .execute => [plain "cell_id"]
  | .stop => [plain "cell_id"]
  | .create => [plain "index", ⟨"cell", none, Cell.kept⟩]
  | .rename => [plain "cell_id", plain "filename"]
  | .delete => [plain "cell_id"]
  | .edit => [plain "cell_id", plain "source"]
  | .install => [defaulting "packages" (.array [])]
  | .startService => []
  | .stopService => []
  | .requestDiagnostics => []
  | .navigate _ => [plain "correlation_id", plain "cell_id", plain "offset"]

/-- The field of a payload that holds a number. -/
def Kind.number? : Kind → Option String
  | .create => some "index"
  | .navigate _ => some "offset"
  | _ => none

/-- The kind of an event. -/
def Kind.ofEvent? (event : String) : Option Kind :=
  (table.find? fun entry => entry.1 == event).map (·.2)

end Intent

/-! ## Reading what a schema accepts -/

/-- A value of the shape of a record is an object, so its fields are found by name. -/
theorem Json.record?_of_shape {depth : Nat} {v : Json} (h : Ordered depth v)
    {required : List String} {properties : List (String × Schema)}
    (hshape : (Schema.record required properties).problem? v = none) (names : List String) :
    v.toDocument.record? names = some (names.map fun name => Found.of (v.field? name)) := by
  obtain ⟨⟨fields, rfl⟩, _⟩ := Schema.problem?_record_eq_none_iff.mp hshape
  cases h with
  | object horder _ => exact record?_object horder names

namespace Cell

variable {depth : Nat} {v : Json}

/-- A value of the shape of a text cell is read by its fields. -/
theorem textOf?_of_shape {kind : String} (h : Ordered depth v)
    (hshape : (Schema.textCell kind).problem? v = none) :
    ∃ c, textOf? v.toDocument = some c ∧ v.field? "type" = some (.string kind) ∧
      Json.ofFields (("type", .string kind) :: c.fields) = keep CellKind.title.declared v := by
  obtain ⟨_, hword, htype⟩ := Schema.keyword_of_record hshape "type" [kind] (by simp) (by simp)
  obtain ⟨id, hid⟩ := Schema.string_of_record hshape "id" (by simp) (by simp)
  obtain ⟨text, htext⟩ := Schema.string_of_record hshape "text" (by simp) (by simp)
  obtain rfl := List.mem_singleton.mp hword
  have hrecord := Json.record?_of_shape h hshape
  refine ⟨⟨⟨id⟩, text⟩, ?_, htype, ?_⟩
  · simp [textOf?, hrecord, hid, htext]
  · simp [TextCell.fields, keep, CellKind.declared, htype, hid, htext]

/-- A missing status is that of a cell that does not run. -/
theorem status_of_shape (hshape : ∀ part, v.field? "status" = some part →
      Schema.cellStatus.problem? part = none) :
    ∃ status : CellStatus,
      (Found.of (v.field? "status")).orElse .idle (·.variant? .held CellStatus.table) =
        some status ∧
      (v.field? "status").or (some CellStatus.idle.toJson) = some status.toJson := by
  -- A status that is there is one of two words; one that is missing is filled in by both sides.
  cases hstatus : v.field? "status" with
  | none => exact ⟨.idle, rfl, rfl⟩
  | some part =>
      obtain ⟨s, hs, rfl⟩ := Schema.problem?_keyword_eq_none_iff.mp (hshape part hstatus)
      obtain ⟨status, rfl⟩ : ∃ status : CellStatus, s = status.name := by
        simp only [List.mem_cons, List.not_mem_nil, or_false] at hs
        rcases hs with rfl | rfl
        · exact ⟨.idle, rfl⟩
        · exact ⟨.running, rfl⟩
      refine ⟨status, ?_, rfl⟩
      rw [Found.orElse_of]
      exact status.variant?_toJson .held

/-- A value of the shape of a code cell is read by its fields. -/
theorem codeOf?_of_shape (h : Ordered depth v) (hshape : Schema.codeCell.problem? v = none) :
    ∃ c, codeOf? v.toDocument = some c ∧ v.field? "type" = some (.string "code") ∧
      Json.ofFields (("type", .string "code") :: c.fields) = keep CellKind.code.declared v := by
  obtain ⟨_, hword, htype⟩ :=
    Schema.keyword_of_record hshape "type" ["code"] (by simp) (by simp)
  obtain ⟨id, hid⟩ := Schema.string_of_record hshape "id" (by simp) (by simp)
  obtain ⟨source, hsource⟩ := Schema.string_of_record hshape "source" (by simp) (by simp)
  obtain ⟨filename, hfilename⟩ := Schema.string_of_record hshape "filename" (by simp) (by simp)
  obtain ⟨name, hname, hlanguage⟩ := Schema.keyword_of_record hshape "language"
    ["javascript", "typescript"] (by simp) (by simp)
  obtain ⟨status, hstatus, hkept⟩ := status_of_shape fun _ hpart =>
    Schema.property_of_record hshape (by simp) hpart
  obtain rfl := List.mem_singleton.mp hword
  obtain ⟨language, hlanguage⟩ :
      ∃ language : Language, v.field? "language" = some language.toJson := by
    simp only [List.mem_cons, List.not_mem_nil, or_false] at hname
    rcases hname with rfl | rfl
    · exact ⟨.javascript, hlanguage⟩
    · exact ⟨.typescript, hlanguage⟩
  have hrecord := Json.record?_of_shape h hshape
  refine ⟨⟨⟨id⟩, source, filename, language, status⟩, ?_, htype, ?_⟩
  · simp [codeOf?, hrecord, hid, hsource, hfilename, hlanguage, hstatus]
  · simp [CodeCell.fields, keep, CellKind.declared, htype, hid, hsource, hfilename, hlanguage,
      hkept]

/-- A value of the shape of a manifest is read by its fields. -/
theorem manifestOf?_of_shape (h : Ordered depth v)
    (hshape : Schema.manifestCell.problem? v = none) :
    ∃ c, manifestOf? v.toDocument = some c ∧ v.field? "type" = some (.string "package-json") ∧
      Json.ofFields (("type", .string "package-json") :: c.fields) =
        keep CellKind.manifest.declared v := by
  obtain ⟨_, hword, htype⟩ :=
    Schema.keyword_of_record hshape "type" ["package-json"] (by simp) (by simp)
  obtain ⟨id, hid⟩ := Schema.string_of_record hshape "id" (by simp) (by simp)
  obtain ⟨source, hsource⟩ := Schema.string_of_record hshape "source" (by simp) (by simp)
  obtain ⟨status, hstatus, hkept⟩ := status_of_shape fun _ hpart =>
    Schema.property_of_record hshape (by simp) hpart
  obtain rfl := List.mem_singleton.mp hword
  have hrecord := Json.record?_of_shape h hshape
  refine ⟨⟨⟨id⟩, source, status⟩, ?_, htype, ?_⟩
  · simp [manifestOf?, hrecord, hid, hsource, hstatus]
  · simp [ManifestCell.fields, keep, CellKind.declared, htype, hid, hsource, hkept]

/-- What is read by the fields of its kind is read as a cell. -/
theorem ofDocument?_of_kind (route : Route) (h : Ordered depth v) {name : String}
    {kind : CellKind} {c : Cell} (htype : v.field? "type" = some (.string name))
    (hkind : CellKind.table.find? (fun entry => entry.1 == name) = some (name, kind))
    (hread : ofKind? kind v.toDocument = some c) (hkept : c.toJson = keep kind.declared v) :
    ofDocument? route depth v.toDocument = some c ∧ c.toJson = kept v := by
  constructor
  · rw [ofDocument?_object route h htype, hkind]
    exact hread
  · rw [hkept, kept, htype]
    simp [Json.string?, hkind]

/-- A value of the shape of a cell is read as the cell that it declares. -/
theorem ofDocument?_of_shape (route : Route) (h : Ordered depth v)
    (hshape : Schema.cell.problem? v = none) :
    ∃ c, ofDocument? route depth v.toDocument = some c ∧ c.toJson = kept v := by
  -- That no second shape fits is not needed: the kind is what stands under `type`.
  have hcount : Schema.countFitting [Schema.textCell "title", Schema.textCell "markdown",
      Schema.codeCell, Schema.manifestCell] v ≠ 0 := by
    intro hzero
    simp [Schema.cell, hzero] at hshape
  obtain ⟨shape, hmem, hfits⟩ := Schema.exists_of_countFitting_ne_zero hcount
  simp only [List.mem_cons, List.not_mem_nil, or_false] at hmem
  rcases hmem with rfl | rfl | rfl | rfl
  · obtain ⟨c, hread, htype, hkept⟩ := textOf?_of_shape h hfits
    exact ⟨.title c, ofDocument?_of_kind route h htype rfl (by simp [ofKind?, hread]) hkept⟩
  · obtain ⟨c, hread, htype, hkept⟩ := textOf?_of_shape h hfits
    exact ⟨.markdown c, ofDocument?_of_kind route h htype rfl (by simp [ofKind?, hread]) hkept⟩
  · obtain ⟨c, hread, htype, hkept⟩ := codeOf?_of_shape h hfits
    exact ⟨.code c, ofDocument?_of_kind route h htype rfl (by simp [ofKind?, hread]) hkept⟩
  · obtain ⟨c, hread, htype, hkept⟩ := manifestOf?_of_shape h hfits
    exact ⟨.manifest c, ofDocument?_of_kind route h htype rfl (by simp [ofKind?, hread]) hkept⟩

end Cell

namespace Intent

/-- The shape of the payloads of a kind. -/
def Kind.schema : Kind → Schema
  | .execute => cellSchema
  | .stop => cellSchema
  | .create => .record ["index", "cell"] [("cell", Schema.cell), ("index", .natural)]
  | .rename => .record ["cell_id", "filename"] [("cell_id", .string), ("filename", .string)]
  | .delete => cellSchema
  | .edit => .record ["cell_id", "source"] [("cell_id", .string), ("source", .string)]
  | .install => .record [] [("packages", .list .string)]
  | .startService => .record [] []
  | .stopService => .record [] []
  | .requestDiagnostics => .record [] []
  | .navigate _ => querySchema

/-- What a table has under a name stands in it with the name. -/
theorem mem_of_named {α : Type} {entries : List (String × α)} {name : String} {a : α}
    (h : (entries.find? fun entry => entry.1 == name).map (·.2) = some a) :
    (name, a) ∈ entries := by
  obtain ⟨entry, hfind, rfl⟩ := Option.map_eq_some_iff.mp h
  have hname := List.find?_some hfind
  obtain rfl : entry.1 = name := by simpa using hname
  exact List.mem_of_find?_eq_some hfind

/-- An event that has a schema has a kind. -/
theorem kind_of_schema? {event : String} {schema : Schema} (h : schema? event = some schema) :
    ∃ kind, Kind.ofEvent? event = some kind ∧ schema = kind.schema := by
  have hmem := mem_of_named h
  simp only [schemas, List.mem_cons, List.not_mem_nil, or_false, Prod.mk.injEq] at hmem
  obtain ⟨rfl, rfl⟩ | ⟨rfl, rfl⟩ | ⟨rfl, rfl⟩ | ⟨rfl, rfl⟩ | ⟨rfl, rfl⟩ | ⟨rfl, rfl⟩ | ⟨rfl, rfl⟩ |
    ⟨rfl, rfl⟩ | ⟨rfl, rfl⟩ | ⟨rfl, rfl⟩ | ⟨rfl, rfl⟩ | ⟨rfl, rfl⟩ | ⟨rfl, rfl⟩ := hmem <;>
    exact ⟨_, rfl, rfl⟩

/-- No two events have one kind. -/
theorem event_unique {event event' : String} {kind : Kind}
    (h : Kind.ofEvent? event = some kind) (h' : Kind.ofEvent? event' = some kind) :
    event = event' := by
  have hkinds : ∀ a ∈ table, ∀ b ∈ table, a.2 = b.2 → a.1 = b.1 := by decide
  exact hkinds _ (mem_of_named h) _ (mem_of_named h') rfl

variable {depth : Nat} {v : Json}

theorem cellOf?_of_shape (h : Ordered depth v) (hshape : cellSchema.problem? v = none) :
    ∃ cell, cellOf? v.toDocument = some cell ∧ cellPayload cell = keep [plain "cell_id"] v := by
  obtain ⟨cell, hcell⟩ := Schema.string_of_record hshape "cell_id" (by simp) (by simp)
  have hrecord := Json.record?_of_shape h hshape
  refine ⟨⟨cell⟩, ?_, ?_⟩
  · simp [cellOf?, hrecord, hcell]
  · simp [cellPayload, keep, hcell]

theorem cellAndText?_of_shape {field : String} (h : Ordered depth v)
    (hshape : (Schema.record ["cell_id", field]
      [("cell_id", .string), (field, .string)]).problem? v = none) :
    ∃ cell text, cellAndText? field v.toDocument = some (cell, text) ∧
      Json.ofFields [("cell_id", .string cell.text), (field, .string text)] =
        keep [plain "cell_id", plain field] v := by
  obtain ⟨cell, hcell⟩ := Schema.string_of_record hshape "cell_id" (by simp) (by simp)
  obtain ⟨text, htext⟩ := Schema.string_of_record hshape field (by simp) (by simp)
  have hrecord := Json.record?_of_shape h hshape
  refine ⟨⟨cell⟩, text, ?_, ?_⟩
  · simp [cellAndText?, hrecord, hcell, htext]
  · simp [keep, hcell, htext]

theorem nothing?_of_shape (h : Ordered depth v) (hshape : (Schema.record [] []).problem? v = none)
    (intent : Intent) : nothing? intent v.toDocument = some intent := by
  have hrecord := Json.record?_of_shape h hshape
  simp [nothing?, hrecord]

/-- A payload that has the shape of its event is read as the intent that it declares, if its
number fits. -/
theorem ofKind?_of_shape {kind : Kind} (h : Ordered (cellDepth + 1) v)
    (hshape : kind.schema.problem? v = none)
    (hnumber : ∀ field, kind.number? = some field →
      ∃ n : UInt64, v.field? field = some (.nat n.toNat)) :
    ∃ intent, ofKind? .direct kind v.toDocument = some intent ∧
      Kind.ofEvent? intent.event = some kind ∧ intent.payload = keep kind.declared v := by
  cases kind with
  | execute =>
      obtain ⟨cell, hread, hkept⟩ := cellOf?_of_shape h hshape
      exact ⟨.execute cell, by simp [ofKind?, hread], rfl, hkept⟩
  | stop =>
      obtain ⟨cell, hread, hkept⟩ := cellOf?_of_shape h hshape
      exact ⟨.stop cell, by simp [ofKind?, hread], rfl, hkept⟩
  | create =>
      have hrecord := Json.record?_of_shape h hshape
      obtain ⟨_, hrequired, _⟩ := Schema.problem?_record_eq_none_iff.mp hshape
      -- The schema leaves open how large the number is.
      obtain ⟨index, hindex⟩ := hnumber "index" rfl
      obtain ⟨part, hpart⟩ := hrequired "cell" (by simp)
      have hfits : Schema.cell.problem? part = none :=
        Schema.property_of_record hshape (by simp) hpart
      have hcell : Ordered cellDepth part := h.field hpart
      obtain ⟨cell, hread, hkept⟩ := Cell.ofDocument?_of_shape .direct hcell hfits
      refine ⟨.create index cell, ?_, rfl, ?_⟩
      · simp [ofKind?, hrecord, hindex, hpart, hread]
      · simp [payload, keep, Kind.declared, Json.Declared.of?, plain, hindex, hpart, hkept]
  | rename =>
      obtain ⟨cell, text, hread, hkept⟩ := cellAndText?_of_shape h hshape
      exact ⟨.rename cell text, by simp [ofKind?, hread], rfl, hkept⟩
  | delete =>
      obtain ⟨cell, hread, hkept⟩ := cellOf?_of_shape h hshape
      exact ⟨.delete cell, by simp [ofKind?, hread], rfl, hkept⟩
  | edit =>
      obtain ⟨cell, text, hread, hkept⟩ := cellAndText?_of_shape h hshape
      exact ⟨.edit cell text, by simp [ofKind?, hread], rfl, hkept⟩
  | install =>
      have hrecord := Json.record?_of_shape h hshape
      -- The schema requires nothing, so the list may be missing; then it is empty.
      cases hpackages : v.field? "packages" with
      | none =>
          refine ⟨.install [], ?_, rfl, ?_⟩
          · simp [ofKind?, hrecord, hpackages]
          · simp [payload, Json.strings, keep, Kind.declared, hpackages]
      | some part =>
          have hfits : (Schema.list .string).problem? part = none :=
            Schema.property_of_record hshape (by simp) hpackages
          obtain ⟨packages, rfl⟩ := Schema.strings_of_list hfits
          have hread := Json.list?_toDocument Json.string?_toDocument packages
          refine ⟨.install packages, ?_, rfl, ?_⟩
          · simp [ofKind?, hrecord, hpackages, Json.strings, hread]
          · simp [payload, keep, Kind.declared, hpackages]
  | startService => exact ⟨.startService, nothing?_of_shape h hshape _, rfl, rfl⟩
  | stopService => exact ⟨.stopService, nothing?_of_shape h hshape _, rfl, rfl⟩
  | requestDiagnostics => exact ⟨.requestDiagnostics, nothing?_of_shape h hshape _, rfl, rfl⟩
  | navigate navigation =>
      have hrecord := Json.record?_of_shape h hshape
      obtain ⟨request, hrequest⟩ :=
        Schema.string_of_record hshape "correlation_id" (by simp) (by simp)
      obtain ⟨cell, hcell⟩ := Schema.string_of_record hshape "cell_id" (by simp) (by simp)
      obtain ⟨offset, hoffset⟩ := hnumber "offset" rfl
      refine ⟨.navigate navigation ⟨⟨request⟩, ⟨cell⟩, offset⟩, ?_, ?_, ?_⟩
      · simp [ofKind?, queryOf?, hrecord, hrequest, hcell, hoffset]
      · cases navigation <;> rfl
      · simp [payload, keep, Kind.declared, hrequest, hcell, hoffset]

/-- What is kept of the payload of an event: the fields that the event declares. -/
def kept (event : String) (v : Json) : Json :=
  match Kind.ofEvent? event with
  | some kind => keep kind.declared v
  | none => v

end Intent

namespace Frame

/-- The payload of a frame has its objects in order. -/
theorem ordered_of_raw? {text : String} {raw : Raw} (h : raw? text = some raw) :
    Ordered (Json.nestingLimit - 1) raw.payload := by
  unfold raw? at h
  obtain ⟨doc, _, h⟩ := Option.bind_eq_some_iff.mp h
  split at h
  · next topic event found hrecord =>
      obtain ⟨_, _, h⟩ := Option.bind_eq_some_iff.mp h
      obtain ⟨_, _, h⟩ := Option.bind_eq_some_iff.mp h
      obtain ⟨payload, hpayload, h⟩ := Option.bind_eq_some_iff.mp h
      obtain rfl := Option.some.inj h
      cases found with
      | given doc => exact Json.ordered_of_toJson? doc _ _ hpayload
      | _ =>
          -- A missing payload is an empty object.
          obtain rfl := Option.some.inj hpayload
          exact .object List.Pairwise.nil (by simp)
  · cases h

/-- Whatever payload the schema of an event accepts becomes a message, if its number, where the
event has one, is written in plain digits and fits into 64 bits.  The payload of the intent is
what the event, and the kind of a cell in it, declare of the given one, with the defaults of
what is missing. -/
theorem decode_of_accepts {text : String} {raw : Raw} {session : SessionId} {schema : Schema}
    (hraw : raw? text = some raw) (hsession : SessionId.ofTopic? raw.topic = some session)
    (hschema : Intent.schema? raw.event = some schema)
    (haccepts : schema.accepts raw.payload = true)
    (hnumber : ∀ field, (Intent.Kind.ofEvent? raw.event).bind Intent.Kind.number? = some field →
      ∃ n : UInt64, raw.payload.field? field = some (.nat n.toNat)) :
    ∃ intent, decode text = .ok (.message ⟨session, intent⟩) ∧ intent.event = raw.event ∧
      intent.payload = Intent.kept raw.event raw.payload := by
  obtain ⟨kind, hkind, rfl⟩ := Intent.kind_of_schema? hschema
  have hshape : kind.schema.problem? raw.payload = none := by
    simpa [Schema.accepts] using haccepts
  rw [hkind] at hnumber
  obtain ⟨intent, hread, hevent, hkept⟩ :=
    Intent.ofKind?_of_shape (ordered_of_raw? hraw) hshape hnumber
  have hdocument : Intent.ofDocument? (Json.ofFields
      [("event", .string raw.event), ("payload", raw.payload)]).toDocument = some intent := by
    rw [Intent.ofDocument?_event]
    change (Intent.Kind.ofEvent? raw.event).bind _ = some intent
    rw [hkind]
    exact hread
  refine ⟨intent, decode_eq_message hraw hsession hschema hshape hdocument,
    Intent.event_unique hevent hkind, ?_⟩
  rw [hkept, Intent.kept, hkind]

/-- A code cell without its status, in a payload with fields that nobody declares. -/
theorem decode_of_accepts_create :
    let fields := [("type", Json.string "code"), ("id", .string "c"), ("source", .string ""),
      ("filename", .string "a.ts"), ("language", .string "typescript")]
    let payload := Json.ofFields [("note", .null), ("index", .nat 7),
      ("cell", Json.ofFields (("text", .bool true) :: fields))]
    let raw : Raw := ⟨"session:s", "create-cell", payload⟩
    let text := render raw.topic raw.event raw.payload
    raw? text = some raw ∧ SessionId.ofTopic? raw.topic = some ⟨"s"⟩ ∧
      Intent.schema? raw.event = some Intent.Kind.create.schema ∧
      Intent.Kind.create.schema.accepts raw.payload = true ∧
      (∀ field, (Intent.Kind.ofEvent? raw.event).bind Intent.Kind.number? = some field →
        ∃ n : UInt64, raw.payload.field? field = some (.nat n.toNat)) ∧
      ∃ intent, decode text = .ok (.message ⟨⟨"s"⟩, intent⟩) ∧ intent.event = "create-cell" ∧
        intent.payload = Json.ofFields [("index", .nat 7),
          ("cell", Json.ofFields (fields ++ [("status", .string "idle")]))] := by
  intro fields payload raw text
  have hraw : raw? text = some raw := by
    have hformed : Json.Formed Json.Number.Fits (Json.nestingLimit - 2)
        (Json.ofFields (("text", .bool true) :: fields)) :=
      Json.formed_ofFields (by simp [fields, Json.Formed.bool])
    have hindex : Json.Formed Json.Number.Fits (Json.nestingLimit - 2) (.nat 7) :=
      Json.formed_word64 7
    exact raw?_render (Json.formed_ofFields (by simpa [Json.Formed.null] using ⟨hindex, hformed⟩))
  have hsession : SessionId.ofTopic? raw.topic = some ⟨"s"⟩ := by
    decide
  have haccepts : Intent.Kind.create.schema.accepts raw.payload = true := by
    decide +kernel
  have hnumber : ∀ field,
      (Intent.Kind.ofEvent? raw.event).bind Intent.Kind.number? = some field →
        ∃ n : UInt64, raw.payload.field? field = some (.nat n.toNat) := by
    intro field hfield
    obtain rfl := Option.some.inj hfield
    exact ⟨7, by simp [raw, payload, fieldOf?]⟩
  have hcell : Cell.kept (Json.ofFields (("text", .bool true) :: fields)) =
      Json.ofFields (fields ++ [("status", .string "idle")]) := by
    simp [fields, Cell.kept, Json.string?, CellKind.table, keep, CellKind.declared, fieldOf?,
      CellStatus.toJson, CellStatus.name]
  have hkept : Intent.kept raw.event raw.payload = Json.ofFields
      [("index", .nat 7), ("cell", Json.ofFields (fields ++ [("status", .string "idle")]))] := by
    rw [← hcell]
    simp [raw, payload, Intent.kept, Intent.Kind.ofEvent?, Intent.table, keep,
      Intent.Kind.declared, Json.Declared.of?, plain, fieldOf?]
  obtain ⟨intent, hdecode, hevent, hpayload⟩ :=
    decode_of_accepts hraw hsession rfl haccepts hnumber
  exact ⟨hraw, hsession, rfl, haccepts, hnumber, intent, hdecode, hevent, hpayload.trans hkept⟩

end Frame

end Notebook
