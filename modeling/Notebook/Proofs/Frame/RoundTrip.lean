import Notebook.Proofs.Frame.Payloads

/-!
# Frames that are read back

A frame is a line of text.  Parsing it gives back its topic, its event and its payload,
because the text of a formed value is read as that value; and these give back the session
and what was said.

* `Frame.parse?_render`: the value that the text of a frame writes.
* `Frame.decode_render`: every intent arrives in the session it was written for.
* `Frame.encode_readable`: every notice makes a frame, from which it can be read back.
-/

set_option autoImplicit false

namespace Notebook

open Json (Formed Number Found fieldOf?)

/-- The session of a topic is read off it. -/
theorem SessionId.ofTopic?_topic {session : SessionId} (hname : session.text ≠ "") :
    SessionId.ofTopic? session.topic = some session := by
  have hlist : session.topic.toList = topicStart.toList ++ session.text.toList := by
    simp [SessionId.topic]
  unfold SessionId.ofTopic?
  rw [hlist, if_pos (by simp), List.drop_left]
  -- Without its start the topic is the name, which has at least one character.
  cases hchars : session.text.toList with
  | nil => exact absurd (String.toList_eq_nil_iff.mp hchars) hname
  | cons c rest =>
      change some (SessionId.mk (String.ofList (c :: rest))) = some session
      rw [← hchars, String.ofList_toList]

theorem SessionId.topic_injective : Function.Injective SessionId.topic := by
  intro s t h
  have hlist : topicStart.toList ++ s.text.toList = topicStart.toList ++ t.text.toList := by
    simpa [SessionId.topic] using congrArg String.toList h
  have htext := String.toList_inj.mp (List.append_cancel_left hlist)
  cases s
  cases t
  exact congrArg SessionId.mk htext

namespace Frame

variable {topic event : String} {payload : Json}

/-- The value of a frame. -/
def value (topic event : String) (payload : Json) : Json :=
  Json.ofFields [("topic", .string topic), ("event", .string event), ("payload", payload)]

theorem formed_value {depth : Nat} (h : Formed Number.Fits depth payload) (topic event : String) :
    Formed Number.Fits (depth + 1) (value topic event payload) :=
  Json.formed_ofFields (by simp [h])

@[simp]
theorem topic_value : (value topic event payload).field? "topic" = some (.string topic) := by
  simp [value, fieldOf?]

@[simp]
theorem event_value : (value topic event payload).field? "event" = some (.string event) := by
  simp [value, fieldOf?]

@[simp]
theorem payload_value : (value topic event payload).field? "payload" = some payload := by
  simp [value, fieldOf?]

/-- The text of a frame is read as its value. -/
theorem parse?_render (h : Formed Number.Fits (Json.nestingLimit - 1) payload) :
    Json.parse? (render topic event payload) = some (value topic event payload) :=
  Json.parse?_text (formed_value h topic event)

/-- The text of a frame is read as the frame. -/
theorem raw?_render (h : Formed Number.Fits (Json.nestingLimit - 1) payload) :
    raw? (render topic event payload) = some ⟨topic, event, payload⟩ := by
  have hdoc : Json.Document.parse? (render topic event payload) =
      some (value topic event payload).toDocument :=
    Json.parse?_text_toDocument (formed_value h topic event)
  have hpayload : payload.toDocument.toJson? (Json.nestingLimit - 1) = some payload :=
    Json.toJson?_toDocument h
  unfold raw?
  simp [hdoc, value, fieldOf?, hpayload]

/-- A frame becomes a message when its intent is read. -/
theorem decode_eq_message {text : String} {raw : Raw} {session : SessionId} {schema : Schema}
    {intent : Intent} (hraw : raw? text = some raw)
    (hsession : SessionId.ofTopic? raw.topic = some session)
    (hschema : Intent.schema? raw.event = some schema)
    (hshape : schema.problem? raw.payload = none)
    (hread : Intent.ofDocument? (Json.ofFields
      [("event", .string raw.event), ("payload", raw.payload)]).toDocument = some intent) :
    decode text = .ok (.message ⟨session, intent⟩) := by
  have hintent : intentOf raw.event raw.payload = .ok intent := by
    simp only [intentOf, hread]
  -- The events that concern the subscription have no schema.
  have hsubscribe : raw.event ≠ "subscribe" := by
    intro heq
    rw [heq] at hschema
    cases hschema
  have hunsubscribe : raw.event ≠ "unsubscribe" := by
    intro heq
    rw [heq] at hschema
    cases hschema
  simp only [decode, hraw, hsession, if_neg hsubscribe, if_neg hunsubscribe, hschema, hshape,
    hintent]
  rfl

/-- Every intent that is written for a session arrives there as it is. -/
theorem decode_render (session : SessionId) (hname : session.text ≠ "") (intent : Intent) :
    decode (render session.topic intent.event intent.payload) =
      .ok (.message ⟨session, intent⟩) := by
  obtain ⟨schema, hschema, hshape⟩ := intent.shape
  exact decode_eq_message (raw?_render intent.formed_payload) (SessionId.ofTopic?_topic hname)
    hschema hshape intent.ofDocument?_toJson

/-- A new code cell, with a quotation mark to escape and an index of 64 bits. -/
theorem decode_render_create :
    let session : SessionId := ⟨"s"⟩
    let intent : Intent := .create 18446744073709551615
      (.code ⟨⟨"c"⟩, "console.log(\"\")", "a.ts", .typescript, .idle⟩)
    session.text ≠ "" ∧
      decode (render session.topic intent.event intent.payload) =
        .ok (.message ⟨session, intent⟩) :=
  ⟨by decide, decode_render ⟨"s"⟩ (by decide) _⟩

/-- Every notice makes a frame, whose text has the topic of the session, the event and a
payload that are read as the notice; so no two messages make the same frame. -/
theorem encode_readable :
    (∀ (session : SessionId) (notice : Notice), ∃ text frame payload,
      encode session notice = some text ∧
      Json.parse? text = some frame ∧
      frame.field? "topic" = some (.string session.topic) ∧
      frame.field? "event" = some (.string notice.event) ∧
      frame.field? "payload" = some payload ∧
      Notice.ofDocument?
          (Json.ofFields [("event", .string notice.event), ("payload", payload)]).toDocument =
        some notice) ∧
    Function.Injective fun message : SessionId × Notice => encode message.1 message.2 := by
  have hframe : ∀ (session : SessionId) (notice : Notice),
      Json.parse? (render session.topic notice.event notice.payload) =
        some (value session.topic notice.event notice.payload) :=
    fun session notice => parse?_render notice.formed_payload
  constructor
  · intro session notice
    exact ⟨_, _, notice.payload, encode_eq session notice, hframe session notice, topic_value,
      event_value, payload_value, notice.ofDocument?_toJson⟩
  · -- The text determines the value of the frame, and this the session and the notice.
    rintro ⟨s, n⟩ ⟨t, m⟩ h
    simp only [encode_eq, Option.some.injEq] at h
    have hvalue : value s.topic n.event n.payload = value t.topic m.event m.payload := by
      have hparse := hframe s n
      rw [h, hframe t m] at hparse
      exact (Option.some.inj hparse).symm
    have htopic : s.topic = t.topic := by
      simpa using congrArg (Json.field? "topic") hvalue
    have hevent : n.event = m.event := by
      simpa using congrArg (Json.field? "event") hvalue
    have hpayload : n.payload = m.payload := by
      simpa using congrArg (Json.field? "payload") hvalue
    have hsame : n.toJson = m.toJson := by
      simp only [Notice.toJson, hevent, hpayload]
    have hnotice : some n = some m := by
      rw [← n.ofDocument?_toJson, hsame, m.ofDocument?_toJson]
    rw [SessionId.topic_injective htopic, Option.some.inj hnotice]

end Frame
end Notebook
