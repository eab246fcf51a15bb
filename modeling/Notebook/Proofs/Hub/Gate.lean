import Notebook.Proofs.Hub.Lines

/-!
# Frames from clients

A text that a client sends is applied to a hub by `Hub.handleText`.  The hub hands a message
on to its dispatcher if the client is subscribed to the session of the message, and only then.
Whatever is refused is answered with one frame to the sender; nobody else notices the text.

* `handleText_error`, `handleText_subscribe`, `handleText_unsubscribe`, `handleText_message`:
  what a hub makes of a text, by the frame that it is.
* `handleText_logging`: the calls of a dispatcher can be recorded without a difference.
* `mem_calls_iff`: the calls of the dispatcher for a text.
* `Refused.handleText_fst`: a refusal is an error frame for the sender.
* `only_subscribers_dispatch`: all of it, after every history of operations and texts.
-/

set_option autoImplicit false

namespace Notebook
namespace Hub

variable {σ : Type} {dispatch : ConnectionId → Message → σ → Option String × σ}
variable {h : Hub} {c : ConnectionId} {text : String} {s : σ}

/-! ## One frame -/

section Frames

theorem handleText_error {refusal : Frame.Refusal} (hdecode : Frame.decode text = .error refusal) :
    handleText dispatch h c text s = ((h.sendError c none refusal.message).2, s) := by
  simp only [handleText, hdecode]

/-- A subscription changes nothing if it is refused. -/
theorem subscribe_snd {topic : String} (hrefused : (h.subscribe c topic).1 = false) :
    (h.subscribe c topic).2 = h := by
  unfold subscribe at hrefused ⊢
  split
  · next hsession htopics => simp [hsession, htopics] at hrefused
  · rfl

theorem handleText_subscribe {topic : String}
    (hdecode : Frame.decode text = .ok (.subscribe topic)) :
    handleText dispatch h c text s =
      (if (h.subscribe c topic).1 then (h.subscribe c topic).2
        else (h.sendError c (some topic) "subscription refused").2, s) := by
  simp only [handleText, hdecode]
  split
  · next hub hsubscribe => simp [hsubscribe]
  · next hub hsubscribe =>
      obtain rfl : hub = h := by
        rw [← subscribe_snd (congrArg Prod.fst hsubscribe), hsubscribe]
      simp [hsubscribe]

theorem handleText_unsubscribe {topic : String}
    (hdecode : Frame.decode text = .ok (.unsubscribe topic)) :
    handleText dispatch h c text s = ((h.unsubscribe c topic).2, s) := by
  simp only [handleText, hdecode]

/-- The dispatcher decides about the message of a subscriber. -/
theorem handleText_message {message : Message}
    (hdecode : Frame.decode text = .ok (.message message)) :
    handleText dispatch h c text s =
      if h.isSubscribed c message.session.topic then
        ((dispatch c message s).1.elim h fun reason =>
          (h.sendError c (some message.session.topic) reason).2, (dispatch c message s).2)
      else
        ((h.sendError c (some message.session.topic) "not subscribed to topic").2, s) := by
  simp only [handleText, hdecode]
  split
  · obtain ⟨answer, s'⟩ := dispatch c message s
    cases answer <;> rfl
  · rfl

end Frames

/-! ## Calls of the dispatcher -/

section Calls

variable (dispatch)

/-- The dispatcher, with a record of its calls. -/
def logging (c : ConnectionId) (message : Message) (x : σ × List (ConnectionId × Message)) :
    Option String × σ × List (ConnectionId × Message) :=
  ((dispatch c message x.1).1, (dispatch c message x.1).2, x.2 ++ [(c, message)])

/-- The calls of the dispatcher for a text. -/
def calls (h : Hub) (c : ConnectionId) (text : String) (s : σ) :
    List (ConnectionId × Message) :=
  (handleText (logging dispatch) h c text (s, [])).2.2

variable (h c text s)

/-- The dispatcher is called at most once. -/
theorem calls_eq : calls dispatch h c text s =
    match Frame.decode text with
    | .ok (.message message) =>
      if h.isSubscribed c message.session.topic then [(c, message)] else []
    | _ => [] := by
  unfold calls
  -- Only a message gets as far as the dispatcher; the rest is settled by the hub.
  cases hdecode : Frame.decode text with
  | error refusal => rw [handleText_error hdecode]
  | ok frame =>
      cases frame with
      | subscribe topic => rw [handleText_subscribe hdecode]
      | unsubscribe topic => rw [handleText_unsubscribe hdecode]
      | message message =>
          rw [handleText_message hdecode]
          dsimp only
          split <;> rfl

/-- What a hub and its dispatcher do is not changed by the record, which gets the calls. -/
theorem handleText_logging (log : List (ConnectionId × Message)) :
    handleText (logging dispatch) h c text (s, log) =
      ((handleText dispatch h c text s).1, (handleText dispatch h c text s).2,
        log ++ calls dispatch h c text s) := by
  rw [calls_eq]
  cases hdecode : Frame.decode text with
  | error refusal => simp [handleText_error hdecode]
  | ok frame =>
      cases frame with
      | subscribe topic => simp [handleText_subscribe hdecode]
      | unsubscribe topic => simp [handleText_unsubscribe hdecode]
      | message message =>
          rw [handleText_message hdecode, handleText_message hdecode]
          dsimp only
          split
          · rfl
          · simp

end Calls

/-- The dispatcher is called by subscribers with what they sent. -/
theorem mem_calls_iff (hh : Indexed h) (d : ConnectionId) (message : Message) :
    (d, message) ∈ calls dispatch h c text s ↔
      d = c ∧ Frame.decode text = .ok (.message message) ∧
        ∃ topics, h.subscriptions.find? c = some topics ∧ message.session.topic ∈ topics := by
  -- The gate asks the index by topic, the statement the one by connection.
  rw [calls_eq, ← hh.agree]
  cases hdecode : Frame.decode text with
  | error refusal => simp
  | ok frame =>
      cases frame with
      | message sent =>
          simp only [isSubscribed, decide_eq_true_eq, Except.ok.injEq, Frame.message.injEq]
          constructor
          · intro hmem
            split at hmem
            · next hin =>
                obtain ⟨rfl, rfl⟩ := Prod.mk.inj (List.mem_singleton.mp hmem)
                exact ⟨rfl, rfl, hin⟩
            · cases hmem
          · rintro ⟨rfl, rfl, hin⟩
            rw [if_pos hin]
            exact List.mem_singleton_self _
      | _ => simp

/-! ## Who is concerned -/

/-- What a text does to a hub is one operation of the sender, if anything. -/
theorem handleText_cases (dispatch : ConnectionId → Message → σ → Option String × σ) (h : Hub)
    (c : ConnectionId) (text : String) (s : σ) :
    (handleText dispatch h c text s).1 = h ∨
      ∃ op, (handleText dispatch h c text s).1 = h.apply op ∧
        ((∃ topic, op = .subscribe c topic) ∨ (∃ topic, op = .unsubscribe c topic) ∨
          ∃ topic message, op = .sendError c topic message) := by
  cases hdecode : Frame.decode text with
  | error refusal =>
      rw [handleText_error hdecode]
      exact Or.inr ⟨.sendError c _ _, rfl, Or.inr (Or.inr ⟨_, _, rfl⟩)⟩
  | ok frame =>
      cases frame with
      | subscribe topic =>
          rw [handleText_subscribe hdecode]
          dsimp only
          split
          · exact Or.inr ⟨.subscribe c topic, rfl, Or.inl ⟨topic, rfl⟩⟩
          · exact Or.inr ⟨.sendError c _ _, rfl, Or.inr (Or.inr ⟨_, _, rfl⟩)⟩
      | unsubscribe topic =>
          rw [handleText_unsubscribe hdecode]
          exact Or.inr ⟨.unsubscribe c topic, rfl, Or.inr (Or.inl ⟨topic, rfl⟩)⟩
      | message message =>
          rw [handleText_message hdecode]
          split
          · cases (dispatch c message s).1 with
            | none => exact Or.inl rfl
            | some reason => exact Or.inr ⟨.sendError c _ reason, rfl, Or.inr (Or.inr ⟨_, _, rfl⟩)⟩
          · exact Or.inr ⟨.sendError c _ _, rfl, Or.inr (Or.inr ⟨_, _, rfl⟩)⟩

theorem Indexed.handleText (hh : Indexed h)
    (dispatch : ConnectionId → Message → σ → Option String × σ) (c : ConnectionId) (text : String)
    (s : σ) : Indexed (Hub.handleText dispatch h c text s).1 := by
  rcases handleText_cases dispatch h c text s with heq | ⟨op, heq, _⟩
  · rwa [heq]
  · rw [heq]
    exact hh.apply op

/-- A text does nothing to the other clients. -/
theorem line_handleText (dispatch : ConnectionId → Message → σ → Option String × σ) (h : Hub)
    (c : ConnectionId) (text : String) (s : σ) {d : ConnectionId} (hd : d ≠ c) :
    (handleText dispatch h c text s).1.line d = h.line d := by
  have hcd : ¬ c = d := fun heq => hd heq.symm
  rcases handleText_cases dispatch h c text s with
    heq | ⟨_, heq, ⟨topic, rfl⟩ | ⟨topic, rfl⟩ | ⟨topic, message, rfl⟩⟩
  · rw [heq]
  · rw [heq]
    exact (line_subscribe h d c topic).trans (if_neg hcd)
  · rw [heq]
    exact (line_unsubscribe h d c topic).trans (if_neg hcd)
  · rw [heq]
    exact (line_sendTo h d c _).trans (if_neg hcd)

/-! ## Refusals -/

/-- A text is refused: the topic and the message of the answer. -/
inductive Refused (dispatch : ConnectionId → Message → σ → Option String × σ) (h : Hub)
    (c : ConnectionId) (text : String) (s : σ) : Option String → String → Prop where
  /-- It is no frame, or has an unknown topic, an unknown event or a bad payload. -/
  | undecodable {refusal : Frame.Refusal} (hdecode : Frame.decode text = .error refusal) :
      Refused dispatch h c text s none refusal.message
  /-- It asks for a topic that is no session's, or the client is not connected. -/
  | subscription {topic : String} (hdecode : Frame.decode text = .ok (.subscribe topic))
      (hno : SessionId.ofTopic? topic = none ∨ h.isConnected c = false) :
      Refused dispatch h c text s (some topic) "subscription refused"
  /-- It is a message from a client that is not subscribed. -/
  | unsubscribed {message : Message} (hdecode : Frame.decode text = .ok (.message message))
      (hno : ¬ ∃ topics, h.subscriptions.find? c = some topics ∧ message.session.topic ∈ topics) :
      Refused dispatch h c text s (some message.session.topic) "not subscribed to topic"
  /-- The dispatcher rejects the message. -/
  | rejected {message : Message} {reason : String}
      (hdecode : Frame.decode text = .ok (.message message))
      (hsubscribed : ∃ topics, h.subscriptions.find? c = some topics ∧
        message.session.topic ∈ topics)
      (hreason : (dispatch c message s).1 = some reason) :
      Refused dispatch h c text s (some message.session.topic) reason

/-- What becomes of a hub `h` that has a frame for one client. -/
inductive Answered (h : Hub) (c : ConnectionId) (frame : String) (h' : Hub) : Prop where
  /-- The client is gone already, and nothing is done. -/
  | gone (hno : h.isConnected c = false) (hsame : h' = h)
  /-- The frame is queued last. -/
  | queued (hyes : h.isConnected c = true)
      (hroom : (h.inboxOf c).receiving = true ∧ (h.inboxOf c).frames.length < h.capacity)
      (htopics : h'.subscriptions.find? c = h.subscriptions.find? c)
      (hinbox : h'.inboxOf c =
        { h.inboxOf c with frames := (h.inboxOf c).frames ++ [frame] })
  /-- The queue cannot take the frame, and the client is removed. -/
  | removed (hyes : h.isConnected c = true)
      (hfull : (h.inboxOf c).receiving = false ∨ h.capacity ≤ (h.inboxOf c).frames.length)
      (hno : h'.isConnected c = false) (hnone : ∀ topic, h'.isSubscribed c topic = false)
      (hinbox : h'.inboxOf c = h.inboxOf c)

theorem answered_sendTo (hh : Indexed h) (c : ConnectionId) (frame : String) :
    Answered h c frame (h.sendTo c frame).2 := by
  have hline : (h.sendTo c frame).2.line c = (h.line c).accept h.capacity frame :=
    (line_sendTo h c c frame).trans (if_pos rfl)
  cases hconnected : h.isConnected c with
  | false =>
      refine .gone hconnected ?_
      rw [sendTo, hconnected, if_neg Bool.false_ne_true]
  | true =>
      rcases (h.line c).accept_cases h.capacity frame with
        ⟨_, hreceiving, hroom, heq⟩ | ⟨hfull, heq⟩
      · rw [heq] at hline
        exact .queued hconnected ⟨hreceiving, hroom⟩ (congrArg Line.topics hline)
          (congrArg Line.inbox hline)
      · rw [heq] at hline
        refine .removed hconnected (hfull hconnected) ?_ (fun topic => ?_)
          (congrArg Line.inbox hline)
        · rw [isConnected_eq, hline]
          rfl
        · have hh' : Indexed (h.sendTo c frame).2 := hh.apply (.sendTo c frame)
          rw [hh'.isSubscribed_eq, hline]
          exact decide_eq_false List.not_mem_nil

theorem subscribe_fst (h : Hub) (c : ConnectionId) (topic : String) :
    (h.subscribe c topic).1 = false ↔
      SessionId.ofTopic? topic = none ∨ h.isConnected c = false := by
  unfold subscribe isConnected Table.contains
  cases SessionId.ofTopic? topic <;> cases h.subscriptions.find? c <;> simp

/-- A refusal is an error frame for the sender. -/
theorem Refused.handleText_fst (hh : Indexed h) {topic : Option String} {message : String}
    (hrefused : Refused dispatch h c text s topic message) :
    (handleText dispatch h c text s).1 = (h.sendError c topic message).2 := by
  cases hrefused with
  | undecodable hdecode => rw [handleText_error hdecode]
  | subscription hdecode hno =>
      rw [handleText_subscribe hdecode, (subscribe_fst h c _).mpr hno]
      rfl
  | unsubscribed hdecode hno =>
      rw [← hh.agree] at hno
      rw [handleText_message hdecode, isSubscribed, decide_eq_false hno]
      rfl
  | rejected hdecode hsubscribed hreason =>
      rw [← hh.agree] at hsubscribed
      rw [handleText_message hdecode, isSubscribed, decide_eq_true hsubscribed, hreason]
      rfl

/-- What a hub makes of a text that it does not refuse leaves the queue of the sender as it was,
and the sender connected. -/
theorem line_handleText_of_accepted (hh : Indexed h)
    (haccepted : ∀ topic message, ¬ Refused dispatch h c text s topic message) :
    ((handleText dispatch h c text s).1.line c).inbox = (h.line c).inbox ∧
      (handleText dispatch h c text s).1.isConnected c = h.isConnected c := by
  rw [isConnected_eq, isConnected_eq]
  -- In each case what is not excluded by a refusal leaves the inbox alone.
  cases hdecode : Frame.decode text with
  | error refusal => exact absurd (.undecodable hdecode) (haccepted _ _)
  | ok frame =>
      cases frame with
      | subscribe topic =>
          have hyes : (h.subscribe c topic).1 = true := by
            rw [← Bool.not_eq_false, subscribe_fst]
            exact fun hno => haccepted _ _ (.subscription hdecode hno)
          rw [handleText_subscribe hdecode, if_pos hyes, line_subscribe, if_pos rfl, Line.step]
          split <;> simp
      | unsubscribe topic =>
          rw [handleText_unsubscribe hdecode, line_unsubscribe, if_pos rfl, Line.step]
          simp
      | message message =>
          by_cases hsubscribed : ∃ topics, h.subscriptions.find? c = some topics ∧
              message.session.topic ∈ topics
          · have hmember := (hh.agree c _).mpr hsubscribed
            rw [handleText_message hdecode, isSubscribed, decide_eq_true hmember, if_pos rfl]
            cases hanswer : (dispatch c message s).1 with
            | none => exact ⟨rfl, rfl⟩
            | some reason => exact absurd (.rejected hdecode hsubscribed hanswer) (haccepted _ _)
          · exact absurd (.unsubscribed hdecode hsubscribed) (haccepted _ _)

/-! ## Histories -/

/-- What happens to a hub: something is done with it, or a client sends a text. -/
inductive Input where
  | op (op : Op)
  | text (c : ConnectionId) (text : String)

/-- A hub and its dispatcher after something happened. -/
def feed (dispatch : ConnectionId → Message → σ → Option String × σ) (x : Hub × σ) :
    Input → Hub × σ
  | .op op => (x.1.apply op, x.2)
  | .text c text => handleText dispatch x.1 c text x.2

/-- A hub and its dispatcher after a history. -/
def serve (dispatch : ConnectionId → Message → σ → Option String × σ) (x : Hub × σ)
    (inputs : List Input) : Hub × σ :=
  inputs.foldl (feed dispatch) x

theorem Indexed.serve {x : Hub × σ} (hx : Indexed x.1)
    (dispatch : ConnectionId → Message → σ → Option String × σ) (inputs : List Input) :
    Indexed (Hub.serve dispatch x inputs).1 := by
  induction inputs generalizing x with
  | nil => exact hx
  | cons input rest ih =>
      refine ih (x := feed dispatch x input) ?_
      cases input with
      | op op => exact hx.apply op
      | text c text => exact hx.handleText dispatch c text x.2

/-- After every history, the dispatcher is called for a text if it is a message and the client
that sent it is connected and subscribed to the session: once, with the client and the message.
The topics and the queue of every other client stay as they were.  What is refused makes one
error frame in the queue of the sender; a queue that cannot take it stays as it is, and its
client is removed. -/
theorem only_subscribers_dispatch (capacity : Nat)
    (dispatch : ConnectionId → Message → σ → Option String × σ) (s₀ : σ) (inputs : List Input)
    (c : ConnectionId) (text : String) :
    let h := (serve dispatch (empty capacity, s₀) inputs).1
    let s := (serve dispatch (empty capacity, s₀) inputs).2
    let h' := (handleText dispatch h c text s).1
    (∀ log, handleText (logging dispatch) h c text (s, log) =
      (h', (handleText dispatch h c text s).2, log ++ calls dispatch h c text s)) ∧
    (∀ d message, (d, message) ∈ calls dispatch h c text s ↔
      d = c ∧ Frame.decode text = .ok (.message message) ∧
        ∃ topics, h.subscriptions.find? c = some topics ∧ message.session.topic ∈ topics) ∧
    (calls dispatch h c text s).length ≤ 1 ∧
    (∀ d, d ≠ c → h'.line d = h.line d ∧
      ∀ topic, h'.isSubscribed d topic = h.isSubscribed d topic) ∧
    ((∀ topic message, ¬ Refused dispatch h c text s topic message) →
      h'.inboxOf c = h.inboxOf c ∧ h'.isConnected c = h.isConnected c) ∧
    ∀ topic message, Refused dispatch h c text s topic message →
      Answered h c (Frame.renderError topic message) h' := by
  intro h s h'
  have hh : Indexed h := (indexed_empty capacity).serve dispatch inputs
  have hh' : Indexed h' := hh.handleText dispatch c text s
  refine ⟨handleText_logging dispatch h c text s, mem_calls_iff hh, ?_, ?_,
    line_handleText_of_accepted hh, ?_⟩
  · rw [calls_eq]
    split
    · split <;> simp
    · simp
  · intro d hd
    have hline := line_handleText dispatch h c text s hd
    refine ⟨hline, fun topic => ?_⟩
    rw [hh.isSubscribed_eq, hh'.isSubscribed_eq, hline]
  · intro topic message hrefused
    have heq : h' = (h.sendTo c (Frame.renderError topic message)).2 :=
      hrefused.handleText_fst hh
    rw [heq]
    exact answered_sendTo hh c _

end Hub
end Notebook
