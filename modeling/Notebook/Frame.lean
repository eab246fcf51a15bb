import Notebook.Intent
import Notebook.Notice

/-!
# Frames

A frame carries a topic, an event and a payload.  `Frame.decode` reads what a client
sends: it refuses, in this order, text that is no frame, a topic that is no session's,
an event that sessions do not accept, and a payload of the wrong shape.
`Frame.encode` writes what subscribers receive.
-/

namespace Notebook

/-- An intent addressed to a session. -/
structure Message where
  session : SessionId
  intent : Intent
  deriving DecidableEq, Repr, Inhabited

/-- What a client sends. -/
inductive Frame where
  | subscribe (topic : String)
  | unsubscribe (topic : String)
  | message (message : Message)
  deriving DecidableEq, Repr, Inhabited

namespace Frame

/-- What is wrong with a payload. -/
inductive PayloadProblem where
  /-- It has not the shape of the event. -/
  | shape (problem : Schema.Problem)
  /-- A whole number is written with a fraction or an exponent. -/
  | float (value : Json)
  deriving Repr

/-- Why a frame is refused. -/
inductive Refusal where
  | malformed
  | unknownTopic (topic : String)
  | unknownEvent (event : String)
  | invalidPayload (event : String) (problem : PayloadProblem)
  deriving Repr

/-- The wording of what is wrong with a payload. -/
def PayloadProblem.message : PayloadProblem → String
  | .shape problem => problem.message
  | .float value => "invalid type: floating point `" ++ value.text ++ "`, expected usize"

/-- The wording of a refusal. -/
def Refusal.message : Refusal → String
  | .malformed => "malformed frame: not an object with topic, event and payload"
  | .unknownTopic topic => s!"unknown topic '{topic}'"
  | .unknownEvent event => s!"'{event}' is not a recognized inbound event"
  | .invalidPayload event problem =>
    s!"invalid payload for '{event}': " ++ problem.message

/-! ## Reading -/

/-- A frame before its event is understood. -/
structure Raw where
  topic : String
  event : String
  payload : Json
  deriving Repr

/-- The frame that a text writes; a missing payload is an empty object. -/
def raw? (text : String) : Option Raw := do
  let doc ← Json.Document.parse? text
  match doc.record? ["topic", "event", "payload"] with
  | some [topic, event, payload] => do
    let topic ← topic.required (·.string?)
    let event ← event.required (·.string?)
    let payload ← payload.orElse (.object []) (·.toJson? (Json.nestingLimit - 1))
    pure ⟨topic, event, payload⟩
  | _ => none

/-- The number that keeps a payload of the right shape from being read. -/
def numberOf (payload : Json) : Json :=
  ((payload.field? "index").orElse fun _ => payload.field? "offset").getD .null

/-- Reads the intent of an event whose payload has passed its schema. -/
def intentOf (event : String) (payload : Json) : Except Refusal Intent :=
  let written := Json.ofFields [("event", .string event), ("payload", payload)]
  match Intent.ofDocument? written.toDocument with
  | some intent => .ok intent
  | none => .error (.invalidPayload event (.float (numberOf payload)))

/-- Reads what a client sends. -/
def decode (text : String) : Except Refusal Frame :=
  match raw? text with
  | none => .error .malformed
  | some raw =>
    match SessionId.ofTopic? raw.topic with
    | none => .error (.unknownTopic raw.topic)
    | some session =>
      if raw.event = "subscribe" then .ok (.subscribe raw.topic)
      else if raw.event = "unsubscribe" then .ok (.unsubscribe raw.topic)
      else
        match Intent.schema? raw.event with
        | none => .error (.unknownEvent raw.event)
        | some schema =>
          match schema.problem? raw.payload with
          | some problem => .error (.invalidPayload raw.event (.shape problem))
          | none => (intentOf raw.event raw.payload).map fun intent =>
              .message ⟨session, intent⟩

/-! ## Writing -/

/-- The text of a frame. -/
def render (topic event : String) (payload : Json) : String :=
  (Json.ofFields
    [("topic", .string topic), ("event", .string event), ("payload", payload)]).text

/-- The text of a frame that tells one client what was refused. -/
def renderError (topic : Option String) (message : String) : String :=
  (Json.ofFields
    [("topic", Json.optional .string topic), ("event", .string "error"),
     ("payload", Json.ofFields [("message", .string message)])]).text

/-- The text that the subscribers of a session receive; nothing when the payload has
not the shape of its event. -/
def encode (session : SessionId) (notice : Notice) : Option String :=
  match Notice.schema? notice.event with
  | none => none
  | some schema =>
    if schema.accepts notice.payload then
      some (render session.topic notice.event notice.payload)
    else none

end Frame
end Notebook
