import Notebook.Proofs.Gathering
import Notebook.Proofs.Hub.Indexes
import Mathlib.Data.List.Induction

/-!
# One connection of a hub

`Hub.line` is what a hub holds for one connection: its topics and its inbox.  An operation is
a deed on a line, or does not concern it.  A frame goes to every member of a topic, and to
nobody twice, because the indexes agree; so what becomes of a line is a matter of the deeds
on it, whatever is done with the other connections.

* `line_sendTo`, `line_deliver`: who is not addressed is left as it was.
* `line_apply`: an operation does to a line what its deed does.
* `line_after`: what a history makes of a line.
* `isConnected_apply`: which operations remove a client.
* `isSubscribed_after`: a connected client is subscribed to what it has asked for and not given up.
* `indexes_agree`: the two indexes after every history.
-/

set_option autoImplicit false

namespace Notebook

/-! ## Inboxes -/

namespace Inbox

/-- What is taken off an inbox. -/
def taking (inbox : Inbox) (limit : Option Nat) : List String :=
  if inbox.receiving then inbox.frames.take (limit.getD (inbox.frames.length + 1)) else []

/-- The inbox after that. -/
def leaving (inbox : Inbox) (limit : Option Nat) : Inbox :=
  if inbox.receiving then
    { inbox with frames := inbox.frames.drop (limit.getD (inbox.frames.length + 1)) }
  else inbox

/-- The inbox of a client that stops receiving. -/
def shut (inbox : Inbox) : Inbox :=
  if inbox.receiving then ⟨[], false⟩ else inbox

/-- Nothing is lost by taking. -/
theorem taking_append_leaving (inbox : Inbox) (limit : Option Nat) :
    inbox.taking limit ++ (inbox.leaving limit).frames = inbox.frames := by
  unfold taking leaving
  split
  · exact List.take_append_drop _ _
  · rfl

@[simp]
theorem receiving_leaving (inbox : Inbox) (limit : Option Nat) :
    (inbox.leaving limit).receiving = inbox.receiving := by
  unfold leaving
  split <;> rfl

end Inbox

namespace Hub

/-- A frame is queued last, if the client receives and has room. -/
theorem offer_eq (capacity : Nat) (inbox : Inbox) (frame : String) :
    Inbox.offer capacity inbox frame =
      if inbox.receiving ∧ inbox.frames.length < capacity then
        some { inbox with frames := inbox.frames ++ [frame] }
      else none := rfl

/-- The inbox of a client; who never was connected does not receive. -/
def inboxOf (h : Hub) (c : ConnectionId) : Inbox :=
  (h.inboxes.find? c).getD ⟨[], false⟩

theorem inboxOf_set (h : Hub) (c d : ConnectionId) (inbox : Inbox) :
    ((h.inboxes.set d inbox).find? c).getD ⟨[], false⟩ = if d = c then inbox else h.inboxOf c := by
  rw [Table.find?_set]
  split <;> rfl

theorem bind_offer (h : Hub) (c : ConnectionId) (frame : String) :
    (h.inboxes.find? c).bind (Inbox.offer h.capacity · frame) =
      Inbox.offer h.capacity (h.inboxOf c) frame := by
  unfold inboxOf
  cases h.inboxes.find? c <;> rfl

/-! ## Lines and deeds -/

/-- What a hub holds for one connection. -/
structure Line where
  /-- Its topics, as long as it is connected. -/
  topics : Option (List String)
  inbox : Inbox

/-- What is done with one connection. -/
inductive Deed where
  | disconnect
  | subscribe (topic : String)
  | unsubscribe (topic : String)
  | broadcast (session : SessionId) (notice : Notice)
  | send (frame : String)
  | receive (limit : Option Nat)
  | stopReceiving
  deriving DecidableEq, Repr

/-- What an operation is for a connection, if it concerns it. -/
def Op.on (c : ConnectionId) : Op → Option Deed
  | .connect => none
  | .disconnect d => if d = c then some .disconnect else none
  | .subscribe d topic => if d = c then some (.subscribe topic) else none
  | .unsubscribe d topic => if d = c then some (.unsubscribe topic) else none
  | .broadcast session notice => some (.broadcast session notice)
  | .sendTo d frame => if d = c then some (.send frame) else none
  | .sendError d topic message =>
    if d = c then some (.send (Frame.renderError topic message)) else none
  | .receive d limit => if d = c then some (.receive limit) else none
  | .stopReceiving d => if d = c then some .stopReceiving else none

/-- The line of a connection. -/
def line (h : Hub) (c : ConnectionId) : Line :=
  ⟨h.subscriptions.find? c, h.inboxOf c⟩

namespace Line

/-- The frame that a deed has for the client. -/
def due (l : Line) : Deed → Option String
  | .broadcast session notice =>
    if session.topic ∈ l.topics.getD [] then Frame.encode session notice else none
  | .send frame => some frame
  | _ => none

/-- A frame is queued for a connected client, or the client is removed. -/
def accept (capacity : Nat) (l : Line) (frame : String) : Line :=
  if l.topics.isSome then
    match Inbox.offer capacity l.inbox frame with
    | some inbox => { l with inbox := inbox }
    | none => { l with topics := none }
  else l

/-- The line after a deed. -/
def step (capacity : Nat) (l : Line) : Deed → Line
  | .disconnect => { l with topics := none }
  | .subscribe topic =>
    if (SessionId.ofTopic? topic).isSome then { l with topics := l.topics.map (including topic) }
    else l
  | .unsubscribe topic => { l with topics := l.topics.map (·.filter (· ≠ topic)) }
  | .broadcast session notice =>
    (l.due (.broadcast session notice)).elim l (l.accept capacity)
  | .send frame => l.accept capacity frame
  | .receive limit => { l with inbox := l.inbox.leaving limit }
  | .stopReceiving => { l with inbox := l.inbox.shut }

end Line

theorem isConnected_eq (h : Hub) (c : ConnectionId) :
    h.isConnected c = (h.line c).topics.isSome := rfl

theorem line_disconnect (h : Hub) (c d : ConnectionId) :
    (h.disconnect d).line c =
      if d = c then { h.line c with topics := none } else h.line c := by
  unfold line inboxOf
  rw [subscriptions_disconnect, inboxes_disconnect]
  split <;> rfl

theorem line_withInbox (h : Hub) (c d : ConnectionId) (inbox : Inbox) :
    ({ h with inboxes := h.inboxes.set d inbox } : Hub).line c =
      if d = c then { h.line c with inbox := inbox } else h.line c := by
  unfold line
  change Line.mk _ (((h.inboxes.set d inbox).find? c).getD _) = _
  rw [inboxOf_set]
  split <;> rfl

/-! ## Frames -/

/-- A frame for one client does nothing to the others. -/
theorem line_sendTo (h : Hub) (c d : ConnectionId) (frame : String) :
    (h.sendTo d frame).2.line c =
      if d = c then (h.line c).accept h.capacity frame else h.line c := by
  rcases sendTo_cases h d frame with ⟨hno, heq⟩ | ⟨hyes, ⟨inbox, hinbox, heq⟩ | ⟨hnone, heq⟩⟩
  · rw [heq]
    split
    · next hd =>
        rw [hd, isConnected_eq] at hno
        rw [Line.accept, hno, if_neg Bool.false_ne_true]
    · rfl
  · rw [heq, line_withInbox]
    split
    · next hd =>
        rw [hd, isConnected_eq] at hyes
        rw [hd, bind_offer] at hinbox
        change Inbox.offer _ (h.line c).inbox frame = _ at hinbox
        rw [Line.accept, hyes, if_pos rfl, hinbox]
    · rfl
  · rw [heq, line_disconnect]
    split
    · next hd =>
        rw [hd, isConnected_eq] at hyes
        rw [hd, bind_offer] at hnone
        change Inbox.offer _ (h.line c).inbox frame = _ at hnone
        rw [Line.accept, hyes, if_pos rfl, hnone]
    · rfl

theorem capacity_sendTo (h : Hub) (c : ConnectionId) (frame : String) :
    (h.sendTo c frame).2.capacity = h.capacity := by
  rcases sendTo_cases h c frame with ⟨_, heq⟩ | ⟨_, ⟨inbox, _, heq⟩ | ⟨_, heq⟩⟩
  · rw [heq]
  · rw [heq]
  · rw [heq, capacity_disconnect]

/-- A frame for several clients is a frame for each of them, and nothing to the others. -/
theorem line_deliver (frame : String) (c : ConnectionId) {ids : List ConnectionId}
    (hids : ids.Nodup) (h : Hub) :
    (h.deliver frame ids).2.line c =
      if c ∈ ids then (h.line c).accept h.capacity frame else h.line c := by
  induction ids generalizing h with
  | nil => rfl
  | cons d rest ih =>
      obtain ⟨hd, hrest⟩ := List.nodup_cons.mp hids
      rw [deliver_cons, ih hrest, line_sendTo, capacity_sendTo]
      by_cases hdc : d = c
      · subst hdc
        simp [hd]
      · have hcd : c ≠ d := fun e => hdc e.symm
        simp [hdc, hcd]

/-! ## Operations -/

/-- The frame that an operation has for a client. -/
def frameFor (h : Hub) (c : ConnectionId) : Op → Option String
  | .broadcast session notice =>
    if h.isSubscribed c session.topic then Frame.encode session notice else none
  | .sendTo d frame => if d = c then some frame else none
  | .sendError d topic message => if d = c then some (Frame.renderError topic message) else none
  | _ => none

theorem Indexed.mem_membersOf_iff {h : Hub} (hh : Indexed h) (c : ConnectionId) (topic : String) :
    c ∈ h.membersOf topic ↔ topic ∈ (h.line c).topics.getD [] := by
  rw [hh.agree]
  change _ ↔ topic ∈ (h.subscriptions.find? c).getD []
  cases h.subscriptions.find? c <;> simp

/-- To what a client is subscribed is known from its line. -/
theorem Indexed.isSubscribed_eq {h : Hub} (hh : Indexed h) (c : ConnectionId) (topic : String) :
    h.isSubscribed c topic = decide (topic ∈ (h.line c).topics.getD []) :=
  decide_eq_decide.mpr (hh.mem_membersOf_iff c topic)

theorem frameFor_eq {h : Hub} (hh : Indexed h) (c : ConnectionId) (op : Op) :
    h.frameFor c op = (op.on c).bind (h.line c).due := by
  cases op with
  | broadcast session notice =>
      simp only [frameFor, Op.on, Option.bind_some, Line.due, hh.isSubscribed_eq,
        decide_eq_true_eq]
  | connect => rfl
  | _ =>
      simp only [frameFor, Op.on]
      split <;> rfl

theorem line_receive (h : Hub) (c d : ConnectionId) (limit : Option Nat) :
    (h.receive d limit).2.2.line c =
      if d = c then { h.line c with inbox := (h.inboxOf c).leaving limit } else h.line c := by
  by_cases hd : d = c
  · subst hd
    rw [if_pos rfl]
    unfold receive
    split
    · next hnone => simp [line, inboxOf, hnone, Inbox.leaving]
    · next inbox hinbox =>
        have hof : h.inboxOf d = inbox := by rw [inboxOf, hinbox, Option.getD_some]
        rw [hof]
        split
        · next hreceiving =>
            rw [line_withInbox, if_pos rfl, Inbox.leaving, if_pos hreceiving]
        · next hnot => rw [Inbox.leaving, if_neg hnot, line, hof]
  · rw [if_neg hd]
    unfold receive
    split
    · rfl
    · split
      · rw [line_withInbox, if_neg hd]
      · rfl

/-- What a client receives. -/
theorem receive_fst (h : Hub) (c : ConnectionId) (limit : Option Nat) :
    (h.receive c limit).1 = (h.inboxOf c).taking limit := by
  unfold receive inboxOf
  split
  · next hnone => simp [hnone, Inbox.taking]
  · next inbox hinbox =>
      rw [hinbox, Option.getD_some, Inbox.taking]
      split <;> rfl

theorem line_stopReceiving (h : Hub) (c d : ConnectionId) :
    (h.stopReceiving d).2.line c =
      if d = c then { h.line c with inbox := (h.inboxOf c).shut } else h.line c := by
  by_cases hd : d = c
  · subst hd
    rw [if_pos rfl]
    unfold stopReceiving
    split
    · next hinbox =>
        rw [line_withInbox, if_pos rfl]
        simp [inboxOf, hinbox, Inbox.shut]
    · next hnot =>
        have hshut : (h.inboxOf d).shut = h.inboxOf d := by
          unfold inboxOf Inbox.shut
          cases hfind : h.inboxes.find? d with
          | none => rfl
          | some inbox =>
              obtain ⟨frames, receiving⟩ := inbox
              cases receiving with
              | false => rfl
              | true => exact absurd hfind (hnot frames)
        rw [hshut, line]
  · rw [if_neg hd]
    unfold stopReceiving
    split
    · rw [line_withInbox, if_neg hd]
    · rfl

theorem line_subscribe (h : Hub) (c d : ConnectionId) (topic : String) :
    (h.subscribe d topic).2.line c =
      if d = c then (h.line c).step h.capacity (.subscribe topic) else h.line c := by
  unfold subscribe
  split
  · next session topics hsession htopics =>
      change Line.mk ((h.subscriptions.set d (including topic topics)).find? c) _ = _
      rw [Table.find?_set]
      split
      · next hd =>
          subst hd
          simp [Line.step, line, hsession, htopics, inboxOf]
      · rfl
  · next hnot =>
      split
      · next hd =>
          subst hd
          cases hsession : SessionId.ofTopic? topic with
          | none => simp [Line.step, hsession]
          | some session =>
              cases htopics : h.subscriptions.find? d with
              | none => simp [Line.step, line, htopics]
              | some topics => exact absurd htopics (hnot session topics hsession)
      · rfl

theorem line_unsubscribe (h : Hub) (c d : ConnectionId) (topic : String) :
    (h.unsubscribe d topic).2.line c =
      if d = c then (h.line c).step h.capacity (.unsubscribe topic) else h.line c := by
  unfold unsubscribe
  split
  · next hnone =>
      split
      · next hd =>
          subst hd
          simp [Line.step, line, hnone]
      · rfl
  · next topics htopics =>
      split
      · change Line.mk ((h.subscriptions.set d (topics.filter (· ≠ topic))).find? c) _ = _
        rw [Table.find?_set]
        split
        · next hd =>
            subst hd
            simp [Line.step, line, htopics, inboxOf]
        · rfl
      · next hnot =>
          split
          · next hd =>
              subst hd
              -- Nothing is taken out of topics among which this one is not.
              have hself : topics.filter (· ≠ topic) = topics :=
                List.filter_eq_self.mpr fun other hother => by
                  rw [decide_eq_true_iff]
                  rintro rfl
                  exact hnot hother
              simp only [Line.step, line, htopics, Option.map_some, hself]
          · rfl

variable {n : Nat} {c : ConnectionId} {h : Hub}

/-- An operation does to a line what its deed does. -/
theorem line_apply (hs : Serves n c h) (op : Op) :
    (h.apply op).line c = (op.on c).elim (h.line c) ((h.line c).step n) := by
  obtain ⟨hh, hc, rfl⟩ := hs
  have helim : ∀ (d : ConnectionId) (deed : Deed),
      (if d = c then some deed else none).elim (h.line c) ((h.line c).step h.capacity) =
        if d = c then (h.line c).step h.capacity deed else h.line c := by
    intro d deed
    split <;> rfl
  cases op with
  | connect =>
      have hne : (⟨h.connected⟩ : ConnectionId) ≠ c := by
        rintro rfl
        exact Nat.lt_irrefl _ hc
      change Line.mk ((h.subscriptions.set _ _).find? c) (((h.inboxes.set _ _).find? c).getD _) = _
      rw [Table.find?_set, if_neg hne, inboxOf_set, if_neg hne]
      rfl
  | disconnect d => exact (line_disconnect h c d).trans (helim d .disconnect).symm
  | subscribe d topic => exact (line_subscribe h c d topic).trans (helim d (.subscribe topic)).symm
  | unsubscribe d topic =>
      exact (line_unsubscribe h c d topic).trans (helim d (.unsubscribe topic)).symm
  | sendTo d frame => exact (line_sendTo h c d frame).trans (helim d (.send frame)).symm
  | sendError d topic message => exact (line_sendTo h c d _).trans (helim d (.send _)).symm
  | receive d limit => exact (line_receive h c d limit).trans (helim d (.receive limit)).symm
  | stopReceiving d => exact (line_stopReceiving h c d).trans (helim d .stopReceiving).symm
  | broadcast session notice =>
      simp only [apply, broadcast, Op.on, Option.elim_some, Line.step, Line.due]
      cases Frame.encode session notice with
      | none => simp
      | some frame =>
          -- Nobody is a member twice, so the line takes the frame once.
          simp only [line_deliver frame c (hh.nodup session.topic) h, hh.mem_membersOf_iff]
          split <;> rfl

/-- What a history makes of a line. -/
theorem line_after (hs : Serves n c h) (ops : List Op) :
    (h.after ops).line c = (ops.filterMap (Op.on c)).foldl (Line.step n) (h.line c) :=
  foldl_view (line · c) (fun _ op hs => Serves.apply hs op)
    (fun _ op hs => line_apply hs op) hs ops

/-! ## Who is removed -/

/-- A client is removed when it is disconnected, and when a frame comes for it that nobody
receives or for which there is no room. -/
def Removes (n : Nat) (h : Hub) (c : ConnectionId) (op : Op) : Prop :=
  op = .disconnect c ∨
    (h.frameFor c op).isSome = true ∧
      ((h.inboxOf c).receiving = false ∨ n ≤ (h.inboxOf c).frames.length)

namespace Line

/-- Whether a deed removes the client. -/
def Removes (n : Nat) (l : Line) (deed : Deed) : Prop :=
  deed = .disconnect ∨
    (l.due deed).isSome = true ∧ (l.inbox.receiving = false ∨ n ≤ l.inbox.frames.length)

/-- A frame is queued last, or the client is connected no more. -/
theorem accept_cases (n : Nat) (l : Line) (frame : String) :
    (l.topics.isSome = true ∧ l.inbox.receiving = true ∧ l.inbox.frames.length < n ∧
      l.accept n frame =
        { l with inbox := { l.inbox with frames := l.inbox.frames ++ [frame] } }) ∨
    (l.topics.isSome = true → l.inbox.receiving = false ∨ n ≤ l.inbox.frames.length) ∧
      l.accept n frame = { l with topics := none } := by
  unfold accept
  rw [offer_eq]
  split
  · next htopics =>
      split
      · next inbox hinbox =>
          split at hinbox
          · next hroom =>
              obtain rfl := Option.some.inj hinbox
              exact Or.inl ⟨htopics, hroom.1, hroom.2, rfl⟩
          · cases hinbox
      · next hnone =>
          split at hnone
          · cases hnone
          · next hnot =>
              refine Or.inr ⟨fun _ => ?_, rfl⟩
              rwa [not_and_or, Bool.not_eq_true, Nat.not_lt] at hnot
  · next htopics =>
      obtain ⟨topics, inbox⟩ := l
      cases topics with
      | none => exact Or.inr ⟨fun h => absurd h Bool.false_ne_true, rfl⟩
      | some topics => exact absurd rfl htopics

theorem topics_accept (n : Nat) (l : Line) (frame : String) :
    (l.accept n frame).topics.isSome = true ↔
      l.topics.isSome = true ∧ ¬ (l.inbox.receiving = false ∨ n ≤ l.inbox.frames.length) := by
  rcases accept_cases n l frame with ⟨hyes, hreceiving, hroom, heq⟩ | ⟨hno, heq⟩
  · rw [heq, hreceiving, hyes]
    simpa using hroom
  · rw [heq]
    exact ⟨fun hnone => absurd hnone Bool.false_ne_true, fun ⟨hyes, hnot⟩ => absurd (hno hyes) hnot⟩

/-- A line stays connected until a deed removes the client. -/
theorem topics_step (n : Nat) (l : Line) (deed : Deed) :
    (l.step n deed).topics.isSome = true ↔ l.topics.isSome = true ∧ ¬ l.Removes n deed := by
  cases deed with
  | disconnect => simp [step, Removes]
  | subscribe topic =>
      simp only [step, Removes, due]
      split <;> simp
  | send frame => simpa [step, Removes, due] using topics_accept n l frame
  | broadcast session notice =>
      rw [step, Removes]
      cases hdue : l.due (.broadcast session notice) with
      | none => simp
      | some frame => simpa using topics_accept n l frame
  | _ => simp [step, Removes, due]

end Line

theorem on_eq_some_iff (c : ConnectionId) (op : Op) :
    (op.on c = some .disconnect ↔ op = .disconnect c) ∧
      (op.on c = some .stopReceiving ↔ op = .stopReceiving c) := by
  cases op with
  | connect => simp [Op.on]
  | broadcast session notice => simp [Op.on]
  | _ =>
      simp only [Op.on]
      split <;> simp_all

theorem removes_iff (hh : Indexed h) (op : Op) :
    Removes n h c op ↔ ∃ deed, op.on c = some deed ∧ (h.line c).Removes n deed := by
  have hinbox : (h.line c).inbox = h.inboxOf c := rfl
  simp only [Removes, Line.Removes, frameFor_eq hh, ← (on_eq_some_iff c op).1, hinbox]
  cases op.on c <;> simp

/-- A client stays connected until an operation removes it, and then for ever not. -/
theorem isConnected_apply (hs : Serves n c h) (op : Op) :
    (h.apply op).isConnected c = true ↔ h.isConnected c = true ∧ ¬ Removes n h c op := by
  rw [isConnected_eq, isConnected_eq, line_apply hs, removes_iff hs.indexed]
  cases hop : op.on c with
  | none => simp
  | some deed => simpa using (h.line c).topics_step n deed

/-- Who has been removed does not come back. -/
theorem isConnected_after (hs : Serves n c h) (hc : h.isConnected c = false) (ops : List Op) :
    (h.after ops).isConnected c = false := by
  have hgone : Serves n c (h.after ops) ∧ (h.after ops).isConnected c = false := by
    refine after_preserves (P := fun h => Serves n c h ∧ h.isConnected c = false) ?_ ⟨hs, hc⟩ ops
    intro h op ⟨hs, hc⟩
    refine ⟨hs.apply op, Bool.eq_false_iff.mpr fun hyes => ?_⟩
    rw [((isConnected_apply hs op).mp hyes).1] at hc
    cases hc
  exact hgone.2

/-! ## Who is subscribed -/

namespace Line

/-- A connected client has the topics that it had and one that it asks for, except one that it
gives up. -/
theorem mem_topics_step (n : Nat) (l : Line) (deed : Deed) (topic : String) :
    topic ∈ (l.step n deed).topics.getD [] ↔
      (l.step n deed).topics.isSome = true ∧
        (deed = .subscribe topic ∧ (SessionId.ofTopic? topic).isSome = true ∨
          topic ∈ l.topics.getD [] ∧ deed ≠ .unsubscribe topic) := by
  have hsame : ∀ topics : Option (List String),
      topic ∈ topics.getD [] ↔ topics.isSome = true ∧ topic ∈ topics.getD [] := by
    intro topics
    cases topics <;> simp
  have haccept : ∀ frame, topic ∈ (l.accept n frame).topics.getD [] ↔
      (l.accept n frame).topics.isSome = true ∧ topic ∈ l.topics.getD [] := by
    intro frame
    rcases accept_cases n l frame with ⟨_, _, _, heq⟩ | ⟨_, heq⟩
    · rw [heq]
      exact hsame l.topics
    · simp [heq]
  -- A deed that is not about topics leaves them alone or removes the client.
  cases deed with
  | disconnect => simp [step]
  | subscribe topic' =>
      rw [step]
      split
      · next hsession =>
          cases l.topics with
          | none => simp
          | some topics =>
              simp only [Option.map_some, Option.getD_some, mem_including, Option.isSome_some]
              grind
      · next hsession =>
          rw [hsame l.topics]
          grind
  | unsubscribe topic' =>
      rw [step]
      cases l.topics with
      | none => simp
      | some topics =>
          simp only [Option.map_some, Option.getD_some, List.mem_filter, Option.isSome_some]
          grind
  | broadcast session notice =>
      rw [step]
      cases l.due (.broadcast session notice) with
      | none => simpa using hsame l.topics
      | some frame => simpa using haccept frame
  | send frame => simpa [step] using haccept frame
  | receive limit => simpa [step] using hsame l.topics
  | stopReceiving => simpa [step] using hsame l.topics

end Line

theorem on_eq_subscribe_iff (c : ConnectionId) (op : Op) (topic : String) :
    (op.on c = some (.subscribe topic) ↔ op = .subscribe c topic) ∧
      (op.on c = some (.unsubscribe topic) ↔ op = .unsubscribe c topic) := by
  cases op with
  | connect => simp [Op.on]
  | broadcast session notice => simp [Op.on]
  | _ =>
      simp only [Op.on]
      split <;> simp_all

/-- What an operation does to the subscriptions of a client. -/
theorem isSubscribed_apply (hs : Serves n c h) (op : Op) (topic : String) :
    (h.apply op).isSubscribed c topic = true ↔
      (h.apply op).isConnected c = true ∧
        (op = .subscribe c topic ∧ (SessionId.ofTopic? topic).isSome = true ∨
          h.isSubscribed c topic = true ∧ op ≠ .unsubscribe c topic) := by
  have hsame : topic ∈ (h.line c).topics.getD [] → (h.line c).topics.isSome = true := by
    cases (h.line c).topics <;> simp
  obtain ⟨hon, hoff⟩ := on_eq_subscribe_iff c op topic
  simp only [(hs.apply op).indexed.isSubscribed_eq, hs.indexed.isSubscribed_eq,
    decide_eq_true_eq, isConnected_eq, line_apply hs, ← hon, ne_eq, ← hoff]
  cases op.on c with
  | none => simpa using hsame
  | some deed => simpa using (h.line c).mem_topics_step n deed topic

/-- A client has asked for a topic, and not given it up since. -/
def Asks (c : ConnectionId) (topic : String) (ops : List Op) : Prop :=
  ∃ earlier later, ops = earlier ++ .subscribe c topic :: later ∧ Op.unsubscribe c topic ∉ later

theorem not_asks_nil (c : ConnectionId) (topic : String) : ¬ Asks c topic [] := by
  rintro ⟨earlier, later, hsplit, -⟩
  cases earlier <;> cases hsplit

theorem asks_snoc (c : ConnectionId) (topic : String) (ops : List Op) (op : Op) :
    Asks c topic (ops ++ [op]) ↔
      op = .subscribe c topic ∨ Asks c topic ops ∧ op ≠ .unsubscribe c topic := by
  constructor
  · rintro ⟨earlier, later, hsplit, hkept⟩
    -- Either this operation asks for the topic, or one before it has.
    cases later using List.reverseRecOn with
    | nil => exact Or.inl (List.singleton_inj.mp (List.append_inj' hsplit rfl).2)
    | append_singleton later last =>
        rw [← List.cons_append, ← List.append_assoc] at hsplit
        obtain ⟨rfl, hlast⟩ := List.append_inj' hsplit rfl
        obtain rfl := List.singleton_inj.mp hlast
        rw [List.mem_append, List.mem_singleton, not_or] at hkept
        exact Or.inr ⟨⟨earlier, later, rfl, hkept.1⟩, fun heq => hkept.2 heq.symm⟩
  · rintro (rfl | ⟨⟨earlier, later, rfl, hkept⟩, hop⟩)
    · exact ⟨ops, [], rfl, List.not_mem_nil⟩
    · refine ⟨earlier, later ++ [op], by simp, ?_⟩
      rw [List.mem_append, List.mem_singleton, not_or]
      exact ⟨hkept, fun heq => hop heq.symm⟩

/-- As long as a client is connected, it is subscribed to the topics of sessions for which it has
asked and which it has not given up since. -/
theorem isSubscribed_after (hs : Serves n c h) (topic : String)
    (hnone : h.isSubscribed c topic = false) (ops : List Op) :
    (h.after ops).isSubscribed c topic = true ↔
      (h.after ops).isConnected c = true ∧ (SessionId.ofTopic? topic).isSome = true ∧
        Asks c topic ops := by
  induction ops using List.reverseRecOn with
  | nil => exact iff_of_false (by simpa [after] using hnone) fun h => not_asks_nil c topic h.2.2
  | append_singleton ops op ih =>
      have hstays := isConnected_apply (hs.after ops) op
      rw [after_snoc, isSubscribed_apply (hs.after ops), ih, asks_snoc]
      tauto

/-! ## Both indexes -/

/-- In every hub, both indexes agree: the members of a topic are those who are connected and
have it among their topics.  No topic is listed without members, every topic is a session's,
and who was disconnected, or removed when a frame came that its queue did not take, is
listed nowhere and subscribed to nothing. -/
theorem indexes_agree (capacity : Nat) (ops : List Op) :
    let h := (empty capacity).after ops
    (∀ c topic, c ∈ h.membersOf topic ↔
      ∃ topics, h.subscriptions.find? c = some topics ∧ topic ∈ topics) ∧
    (∀ topic, h.members.find? topic ≠ some []) ∧
    (∀ topic, topic ∈ h.members.keys ∨
        (∃ c topics, h.subscriptions.find? c = some topics ∧ topic ∈ topics) →
      ∃ name, name ≠ "" ∧ topic = "session:" ++ name) ∧
    ∀ earlier op later c, ops = earlier ++ op :: later →
      ((empty capacity).after earlier).isConnected c = true →
      Removes (max 1 capacity) ((empty capacity).after earlier) c op →
      h.isConnected c = false ∧ (∀ topic, c ∉ h.membersOf topic) ∧
        ∀ topic, h.isSubscribed c topic = false := by
  intro h
  have hh : Indexed h := (indexed_empty capacity).after ops
  refine ⟨hh.agree, ?_, ?_, ?_⟩
  · intro topic hnil
    exact (hh.tidy topic [] hnil).1 rfl
  · intro topic hlisted
    have hsome : ∃ ids, h.members.find? topic = some ids := by
      rcases hlisted with hkey | hown
      · rw [← Option.ne_none_iff_exists', ne_eq, Table.find?_eq_none_iff]
        exact not_not_intro hkey
      · obtain ⟨c, hown⟩ := hown
        cases hfind : h.members.find? topic with
        | some ids => exact ⟨ids, rfl⟩
        | none =>
            have hmem : c ∈ h.membersOf topic := (hh.agree c topic).mpr hown
            simp [membersOf, hfind] at hmem
    obtain ⟨ids, hids⟩ := hsome
    obtain ⟨session, hsession⟩ := Option.isSome_iff_exists.mp (hh.tidy topic ids hids).2
    obtain ⟨hname, htopic⟩ := topic_of_ofTopic? hsession
    exact ⟨session.text, hname, htopic⟩
  · intro earlier op later c hsplit hc hremoves
    -- The client is gone after the operation, and so it is after the rest of the history.
    have hs := serves_of_isConnected capacity earlier hc
    have hgone : h.isConnected c = false := by
      change ((empty capacity).after ops).isConnected c = false
      rw [hsplit, after_append, after_cons]
      refine isConnected_after (hs.apply op) (Bool.eq_false_iff.mpr fun hyes => ?_) later
      exact ((isConnected_apply hs op).mp hyes).2 hremoves
    have hnone : h.subscriptions.find? c = none := (Table.contains_eq_false_iff _ c).mp hgone
    have hnot : ∀ topic, c ∉ h.membersOf topic := fun topic =>
      hh.not_mem fun topics htopics => by
        rw [hnone] at htopics
        cases htopics
    exact ⟨hgone, hnot, fun topic => decide_eq_false (hnot topic)⟩

-- Both indexes forget a client that a second frame finds without room.
example :
    let h := (empty 0).after
      [.connect, .subscribe ⟨0⟩ "session:a", .sendTo ⟨0⟩ "x", .sendTo ⟨0⟩ "y"]
    h.subscriptions = .empty ∧ h.members = .empty := by decide

end Hub
end Notebook
