import Notebook.Proofs.Json.Rereading
import Notebook.Proofs.Shapes

/-!
# Payloads that are read back

Every part of a payload is read back from the value that is written for it, and so are the
payloads of all intents and notices.  Their values are formed, with integers only, so the
same holds of their texts.

* `Intent.formed_payload`, `Notice.formed_payload`: the values of payloads are formed.
* `Cell.ofDocument?_object`: reading a cell is reading the fields of its kind.
* `Intent.ofDocument?_toJson`, `Notice.ofDocument?_toJson`: every event is read back with its
  payload.
-/

set_option autoImplicit false

namespace Notebook

open Json (Formed Number Found Ordered fieldOf?)
open Json.Document (Route)

/-! ## Formed values -/

section Formed

variable {depth : Nat}

@[simp]
theorem Json.formed_string (s : String) : Formed Number.Fits depth (.string s) :=
  .string s

@[simp]
theorem Json.formed_word64 (n : UInt64) : Formed Number.Fits depth (.nat n.toNat) := by
  have hn := n.toNat_lt
  exact .number ⟨by omega, by omega⟩

@[simp]
theorem Json.formed_word32 (n : UInt32) : Formed Number.Fits depth (.nat n.toNat) := by
  have hn := n.toNat_lt
  exact .number ⟨by omega, by omega⟩

@[simp]
theorem Json.formed_signed32 (n : Int32) : Formed Number.Fits depth (.int n.toInt) := by
  have hlow := n.le_toInt
  have hhigh := n.toInt_lt
  exact .number ⟨by omega, by omega⟩

theorem Json.formed_optional (depth : Nat) {α : Type} {encode : α → Json}
    (h : ∀ a, Formed Number.Fits depth (encode a)) (value : Option α) :
    Formed Number.Fits depth (Json.optional encode value) := by
  cases value with
  | none => exact .null
  | some a => exact h a

theorem Json.formed_map (depth : Nat) {α : Type} {encode : α → Json}
    (h : ∀ a, Formed Number.Fits depth (encode a)) (items : List α) :
    Formed Number.Fits (depth + 1) (.array (items.map encode)) := by
  refine .array fun v hv => ?_
  obtain ⟨a, _, rfl⟩ := List.mem_map.mp hv
  exact h a

@[simp]
theorem Position.formed_toJson (p : Position) : Formed Number.Fits (depth + 1) p.toJson :=
  Json.formed_ofFields (by simp)

@[simp]
theorem Diagnostic.formed_toJson (d : Diagnostic) : Formed Number.Fits (depth + 2) d.toJson :=
  Json.formed_ofFields (by simp)

@[simp]
theorem QuickInfo.formed_toJson (q : QuickInfo) : Formed Number.Fits (depth + 2) q.toJson :=
  Json.formed_ofFields (by simp)

@[simp]
theorem Target.formed_toJson (t : Target) : Formed Number.Fits (depth + 2) t.toJson :=
  Json.formed_ofFields (by simp)

@[simp]
theorem Completion.formed_toJson (c : Completion) : Formed Number.Fits (depth + 1) c.toJson := by
  have hinsert := Json.formed_optional depth Json.formed_string c.insertText
  exact Json.formed_ofFields (by simp [hinsert])

@[simp]
theorem Cell.formed_toJson (c : Cell) : Formed Number.Fits (depth + 1) c.toJson := by
  cases c with
  | title c => exact Json.formed_ofFields (by simp [TextCell.fields])
  | markdown c => exact Json.formed_ofFields (by simp [TextCell.fields])
  | code c =>
      exact Json.formed_ofFields
        (by simp [CodeCell.fields, Language.toJson, CellStatus.toJson])
  | manifest c => exact Json.formed_ofFields (by simp [ManifestCell.fields, CellStatus.toJson])

/-- The payload of an intent is formed. -/
theorem Intent.formed_payload (intent : Intent) :
    Formed Number.Fits (depth + 2) intent.payload := by
  cases intent with
  | install packages =>
      have hpackages := Json.formed_map depth Json.formed_string packages
      exact Json.formed_ofFields (by simp [Json.strings, hpackages])
  | _ => exact Json.formed_ofFields (by simp)

/-- The payload of a notice is formed. -/
theorem Notice.formed_payload (notice : Notice) :
    Formed Number.Fits (depth + 4) notice.payload := by
  cases notice with
  | statusChanged cell status => exact Json.formed_ofFields (by simp [CellStatus.toJson])
  | failed cell message =>
      have hcell := Json.formed_optional (depth + 3)
        (fun id : CellId => Json.formed_string id.text) cell
      exact Json.formed_ofFields (by simp [hcell])
  | diagnostics cell items =>
      have hitems := Json.formed_map (depth + 2) Diagnostic.formed_toJson items
      exact Json.formed_ofFields (by simp [hitems])
  | suggestions cell items =>
      have hitems := Json.formed_map (depth + 2) Diagnostic.formed_toJson items
      exact Json.formed_ofFields (by simp [hitems])
  | quickinfo request info =>
      have hinfo := Json.formed_optional (depth + 3) QuickInfo.formed_toJson info
      exact Json.formed_ofFields (by simp [hinfo])
  | definition request location =>
      have htarget := Json.formed_optional (depth + 3) Target.formed_toJson location
      exact Json.formed_ofFields (by simp [htarget])
  | completions request entries =>
      have hentries := Json.formed_map (depth + 2) Completion.formed_toJson entries
      exact Json.formed_ofFields (by simp [hentries])
  | install status packages exitCode =>
      have hpackages := Json.formed_map (depth + 2) Json.formed_string packages
      have hcode := Json.formed_optional (depth + 3) Json.formed_signed32 exitCode
      exact Json.formed_ofFields (by simp [Json.strings, hpackages, hcode])
  | _ => exact Json.formed_ofFields (by simp)

end Formed

/-! ## Parts -/

@[simp]
theorem Language.variant?_toJson (route : Route) (language : Language) :
    language.toJson.toDocument.variant? route Language.table = some language := by
  cases language <;> rfl

@[simp]
theorem CellStatus.variant?_toJson (route : Route) (status : CellStatus) :
    status.toJson.toDocument.variant? route CellStatus.table = some status := by
  cases status <;> rfl

@[simp]
theorem Severity.find?_label (severity : Severity) :
    (Severity.table.find? fun entry => entry.1 == severity.label).map (·.2) = some severity := by
  cases severity <;> simp [Severity.table, Severity.label]

@[simp]
theorem OutputStream.find?_name (stream : OutputStream) :
    (OutputStream.table.find? fun entry => entry.1 == stream.name).map (·.2) = some stream := by
  cases stream <;> simp [OutputStream.table, OutputStream.name]

@[simp]
theorem InstallStatus.find?_name (status : InstallStatus) :
    (InstallStatus.table.find? fun entry => entry.1 == status.name).map (·.2) = some status := by
  cases status <;> simp [InstallStatus.table, InstallStatus.name]

@[simp]
theorem ServiceStatus.find?_name (status : ServiceStatus) :
    (ServiceStatus.table.find? fun entry => entry.1 == status.name).map (·.2) = some status := by
  cases status <;> simp [ServiceStatus.table, ServiceStatus.name]

theorem CellId.optional_string? (cell : Option CellId) :
    (Found.of (some (Json.optional (fun id : CellId => .string id.text) cell))).optional
      (·.string?) = some (cell.map CellId.text) := by
  cases cell <;> rfl

@[simp]
theorem Position.ofDocument?_toJson (p : Position) :
    Position.ofDocument? p.toJson.toDocument = some p := by
  simp [Position.ofDocument?, Position.toJson, fieldOf?]

@[simp]
theorem Diagnostic.ofDocument?_toJson (route : Route) (d : Diagnostic) :
    Diagnostic.ofDocument? route d.toJson.toDocument = some d := by
  simp [Diagnostic.ofDocument?, Diagnostic.toJson, fieldOf?]

@[simp]
theorem QuickInfo.ofDocument?_toJson (q : QuickInfo) :
    QuickInfo.ofDocument? q.toJson.toDocument = some q := by
  simp [QuickInfo.ofDocument?, QuickInfo.toJson, fieldOf?]

@[simp]
theorem Target.ofDocument?_toJson (t : Target) :
    Target.ofDocument? t.toJson.toDocument = some t := by
  simp [Target.ofDocument?, Target.toJson, fieldOf?]

@[simp]
theorem Completion.ofDocument?_toJson (c : Completion) :
    Completion.ofDocument? c.toJson.toDocument = some c := by
  have hinsert := Found.optional_of Json.string?_toDocument (by simp) c.insertText
  simp [Completion.ofDocument?, Completion.toJson, fieldOf?, hinsert]

/-! ## Cells -/

/-- No field of a cell has the name of its kind. -/
theorem Cell.ofKind?_untagged {fields : List (String × Json)} (h : Json.Ascending fields)
    (kind : CellKind) :
    Cell.ofKind? kind
        (.object ((Json.fieldsToDocument fields).filter fun field => field.1 != some "type")) =
      Cell.ofKind? kind (Json.object fields).toDocument := by
  cases kind <;>
    simp [Cell.ofKind?, Cell.textOf?, Cell.codeOf?, Cell.manifestOf?, Json.record?_untagged h]

/-- An object is read as a cell by its fields. -/
theorem Cell.ofDocument?_object (route : Route) {depth : Nat} {v : Json} (h : Ordered depth v)
    {name : String} (hkind : v.field? "type" = some (.string name)) :
    Cell.ofDocument? route depth v.toDocument =
      ((CellKind.table.find? fun entry => entry.1 == name).map (·.2)).bind fun kind =>
        Cell.ofKind? kind v.toDocument := by
  have hreadable : v.toDocument.readable depth = true := by
    simp [Json.Document.readable, Json.toJson?_toDocument h]
  cases h with
  | object horder _ =>
      -- The kind is given once, since the names of an object in order are distinct.
      have hnamed := Json.named_fieldsToDocument horder "type"
      simp only [hkind, Option.map_some, Option.toList_some] at hnamed
      simp only [← Cell.ofKind?_untagged horder]
      unfold Cell.ofDocument?
      rw [if_pos hreadable]
      simp only [Json.toDocument, hnamed]
      rfl
  | _ => cases hkind

/-- Every cell is read back. -/
@[simp]
theorem Cell.ofDocument?_toJson (route : Route) (depth : Nat) (c : Cell) :
    Cell.ofDocument? route (depth + 1) c.toJson.toDocument = some c := by
  have hordered : Ordered (depth + 1) c.toJson :=
    c.formed_toJson.mono (fun _ _ => trivial) (Nat.le_refl _)
  cases c with
  | title c =>
      have hkind : (toJson (.title c)).field? "type" = some (.string "title") := by
        simp [toJson, TextCell.fields, fieldOf?]
      rw [ofDocument?_object route hordered hkind]
      simp [CellKind.table, ofKind?, toJson, textOf?, TextCell.fields, fieldOf?]
  | markdown c =>
      have hkind : (toJson (.markdown c)).field? "type" = some (.string "markdown") := by
        simp [toJson, TextCell.fields, fieldOf?]
      rw [ofDocument?_object route hordered hkind]
      simp [CellKind.table, ofKind?, toJson, textOf?, TextCell.fields, fieldOf?]
  | code c =>
      have hkind : (toJson (.code c)).field? "type" = some (.string "code") := by
        simp [toJson, CodeCell.fields, fieldOf?]
      rw [ofDocument?_object route hordered hkind]
      simp [CellKind.table, ofKind?, toJson, codeOf?, CodeCell.fields, fieldOf?]
  | manifest c =>
      have hkind : (toJson (.manifest c)).field? "type" = some (.string "package-json") := by
        simp [toJson, ManifestCell.fields, fieldOf?]
      rw [ofDocument?_object route hordered hkind]
      simp [CellKind.table, ofKind?, toJson, manifestOf?, ManifestCell.fields, fieldOf?]

/-! ## Events -/

/-- The payload of an intent is read back. -/
theorem Intent.ofKind?_payload (route : Route) (intent : Intent) :
    ∃ kind, Intent.table.find? (fun entry => entry.1 == intent.event) = some (intent.event, kind) ∧
      Intent.ofKind? route kind intent.payload.toDocument = some intent := by
  cases intent with
  | create index cell =>
      refine ⟨.create, rfl, ?_⟩
      simp [ofKind?, payload, fieldOf?, cellDepth, Json.nestingLimit]
  | install packages =>
      have hpackages := Json.list?_toDocument Json.string?_toDocument packages
      refine ⟨.install, rfl, ?_⟩
      simp [ofKind?, payload, fieldOf?, Json.strings, hpackages]
  | navigate navigation query =>
      refine ⟨.navigate navigation, by cases navigation <;> rfl, ?_⟩
      simp [ofKind?, payload, fieldOf?, queryOf?]
  | _ =>
      exact ⟨_, rfl, by
        simp [ofKind?, payload, cellPayload, fieldOf?, cellOf?, cellAndText?, nothing?]⟩

/-- The payload of a notice is read back. -/
theorem Notice.ofKind?_payload (route : Route) (notice : Notice) :
    ∃ kind, Notice.table.find? (fun entry => entry.1 == notice.event) = some (notice.event, kind) ∧
      Notice.ofKind? route kind notice.payload.toDocument = some notice := by
  cases notice with
  | updated cell =>
      refine ⟨.updated, rfl, ?_⟩
      simp [ofKind?, payload, fieldOf?, Json.nestingLimit]
  | failed cell message =>
      have hback : (cell.map CellId.text).map CellId.mk = cell := by
        cases cell <;> rfl
      refine ⟨.failed, rfl, ?_⟩
      simp [ofKind?, payload, fieldOf?, CellId.optional_string?, hback]
  | diagnostics cell items =>
      have hitems := Json.list?_toDocument (Diagnostic.ofDocument?_toJson route) items
      refine ⟨.diagnostics, rfl, ?_⟩
      simp [ofKind?, payload, findings, findings?, fieldOf?, hitems]
  | suggestions cell items =>
      have hitems := Json.list?_toDocument (Diagnostic.ofDocument?_toJson route) items
      refine ⟨.suggestions, rfl, ?_⟩
      simp [ofKind?, payload, findings, findings?, fieldOf?, hitems]
  | quickinfo request info =>
      have hinfo := Found.optional_of QuickInfo.ofDocument?_toJson (by simp [QuickInfo.toJson]) info
      refine ⟨.quickinfo, rfl, ?_⟩
      simp [ofKind?, payload, fieldOf?, hinfo]
  | definition request location =>
      have htarget := Found.optional_of Target.ofDocument?_toJson (by simp [Target.toJson]) location
      refine ⟨.definition, rfl, ?_⟩
      simp [ofKind?, payload, fieldOf?, htarget]
  | completions request entries =>
      have hentries := Json.list?_toDocument Completion.ofDocument?_toJson entries
      refine ⟨.completions, rfl, ?_⟩
      simp [ofKind?, payload, fieldOf?, hentries]
  | install status packages exitCode =>
      have hpackages := Json.list?_toDocument Json.string?_toDocument packages
      have hcode := Found.optional_of Json.signed32?_toDocument (by simp [Json.int]) exitCode
      refine ⟨.install, rfl, ?_⟩
      simp [ofKind?, payload, fieldOf?, Json.strings, hpackages, hcode]
  | _ => exact ⟨_, rfl, by simp [ofKind?, payload, fieldOf?]⟩

/-- The event of an object that is written with a payload stands before it, so the payload is
read directly. -/
theorem Json.tagged?_event (event : String) (payload : Json) (depth : Nat) :
    (Json.ofFields [("event", .string event), ("payload", payload)]).toDocument.tagged?
        "event" "payload" depth =
      some ⟨.string (some event), payload.toDocument, .direct⟩ := by
  have hless : "event" < "payload" := by decide
  have horder : Json.Ascending [("event", .string event), ("payload", payload)] :=
    List.pairwise_pair.mpr hless
  unfold Json.ofFields
  rw [Json.sortFields_of_ascending horder]
  rfl

theorem Intent.ofDocument?_event (event : String) (payload : Json) :
    Intent.ofDocument?
        (Json.ofFields [("event", .string event), ("payload", payload)]).toDocument =
      ((Intent.table.find? fun entry => entry.1 == event).map (·.2)).bind fun kind =>
        Intent.ofKind? .direct kind payload.toDocument := by
  unfold Intent.ofDocument?
  rw [Json.tagged?_event]
  rfl

theorem Notice.ofDocument?_event (event : String) (payload : Json) :
    Notice.ofDocument?
        (Json.ofFields [("event", .string event), ("payload", payload)]).toDocument =
      ((Notice.table.find? fun entry => entry.1 == event).map (·.2)).bind fun kind =>
        Notice.ofKind? .direct kind payload.toDocument := by
  unfold Notice.ofDocument?
  rw [Json.tagged?_event]
  rfl

/-- Every intent is read back. -/
theorem Intent.ofDocument?_toJson (intent : Intent) :
    Intent.ofDocument? intent.toJson.toDocument = some intent := by
  obtain ⟨kind, hkind, hread⟩ := intent.ofKind?_payload .direct
  rw [Intent.toJson, Intent.ofDocument?_event, hkind]
  exact hread

/-- Every notice is read back. -/
theorem Notice.ofDocument?_toJson (notice : Notice) :
    Notice.ofDocument? notice.toJson.toDocument = some notice := by
  obtain ⟨kind, hkind, hread⟩ := notice.ofKind?_payload .direct
  rw [Notice.toJson, Notice.ofDocument?_event, hkind]
  exact hread

end Notebook
