import Notebook.Proofs.Hub.Lines
import Notebook.Proofs.Shapes

/-!
# Who remains after a broadcast

A broadcast offers a frame to the queue of every member of a topic.  A queue takes it if it
`Inbox.hasRoom`; who does not take it is removed, from this topic and from all others.  Which
members remain is known before the first frame is queued, since nobody is a member twice and a
queue does not depend on the others.

* `sendTo_fst`, `deliver_fst`: how many queues take a frame.
* `line_broadcast`: what a broadcast makes of one connection.
* `mem_membersOf_broadcast`: who is a member afterwards.
* `broadcast_counts_who_remains`: the count, the members and everybody else.
-/

set_option autoImplicit false

namespace Notebook

/-- Whether a queue takes one more frame. -/
def Inbox.hasRoom (capacity : Nat) (inbox : Inbox) : Bool :=
  inbox.receiving && decide (inbox.frames.length < capacity)

/-- The queue with one more frame. -/
def Inbox.queue (inbox : Inbox) (frame : String) : Inbox :=
  { inbox with frames := inbox.frames ++ [frame] }

theorem Inbox.hasRoom_eq_false_iff {capacity : Nat} {inbox : Inbox} :
    inbox.hasRoom capacity = false ↔
      inbox.receiving = false ∨ capacity ≤ inbox.frames.length := by
  rw [hasRoom, Bool.and_eq_false_iff, decide_eq_false_iff_not, Nat.not_lt]

namespace Hub

/-- Whether the queue of a client takes one more frame. -/
def takes (h : Hub) (c : ConnectionId) : Bool :=
  (h.inboxOf c).hasRoom h.capacity

/-- The members of a topic whose queues take a frame. -/
def takers (h : Hub) (topic : String) : List ConnectionId :=
  (h.membersOf topic).filter h.takes

theorem offer_of_hasRoom (capacity : Nat) (inbox : Inbox) (frame : String) :
    Inbox.offer capacity inbox frame =
      if inbox.hasRoom capacity then some (inbox.queue frame) else none := by
  simp [offer_eq, Inbox.hasRoom, Inbox.queue]

/-- A frame is queued for a connected client, or the client is removed. -/
theorem Line.accept_of_connected {l : Line} (hconnected : l.topics.isSome = true) (n : Nat)
    (frame : String) :
    l.accept n frame =
      if l.inbox.hasRoom n then { l with inbox := l.inbox.queue frame }
      else { l with topics := none } := by
  rw [accept, if_pos hconnected, offer_of_hasRoom]
  cases l.inbox.hasRoom n <;> rfl

/-! ## Counting -/

variable {h : Hub} {c d : ConnectionId} {frame : String}

/-- A connected client gets a frame if its queue takes it. -/
theorem sendTo_fst (hc : h.isConnected c = true) (frame : String) :
    (h.sendTo c frame).1 = h.takes c := by
  unfold sendTo takes
  rw [if_pos hc, bind_offer, offer_of_hasRoom]
  cases (h.inboxOf c).hasRoom h.capacity <;> rfl

/-- A frame for one client changes nothing about the queues of the others. -/
theorem takes_sendTo (hne : c ≠ d) (frame : String) :
    (h.sendTo c frame).2.takes d = h.takes d ∧
      (h.sendTo c frame).2.isConnected d = h.isConnected d := by
  have hline := line_sendTo h d c frame
  rw [if_neg hne] at hline
  have hinbox : (h.sendTo c frame).2.inboxOf d = h.inboxOf d := congrArg Line.inbox hline
  exact ⟨by rw [takes, takes, hinbox, capacity_sendTo], by rw [isConnected_eq, isConnected_eq, hline]⟩

theorem deliver_cons_fst (h : Hub) (frame : String) (c : ConnectionId)
    (rest : List ConnectionId) :
    (h.deliver frame (c :: rest)).1 =
      if (h.sendTo c frame).1 then ((h.sendTo c frame).2.deliver frame rest).1 + 1
      else ((h.sendTo c frame).2.deliver frame rest).1 := rfl

/-- Of several clients that are connected, those are counted whose queues take the frame. -/
theorem deliver_fst {ids : List ConnectionId} (hids : ids.Nodup)
    (hconnected : ∀ c ∈ ids, h.isConnected c = true) (frame : String) :
    (h.deliver frame ids).1 = (ids.filter h.takes).length := by
  induction ids generalizing h with
  | nil => rfl
  | cons c rest ih =>
      obtain ⟨hc, hrest⟩ := List.nodup_cons.mp hids
      have hothers : ∀ d ∈ rest, (h.sendTo c frame).2.takes d = h.takes d ∧
          (h.sendTo c frame).2.isConnected d = h.isConnected d := fun d hd =>
        takes_sendTo (by rintro rfl; exact hc hd) frame
      have hlater : ∀ d ∈ rest, (h.sendTo c frame).2.isConnected d = true := fun d hd =>
        (hothers d hd).2.trans (hconnected d (List.mem_cons_of_mem c hd))
      have hcount := ih hrest hlater
      rw [List.filter_congr fun d hd => (hothers d hd).1] at hcount
      rw [deliver_cons_fst, hcount, sendTo_fst (hconnected c List.mem_cons_self) frame, List.filter_cons]
      split <;> rfl

/-! ## Broadcasting -/

theorem Indexed.isConnected (hh : Indexed h) {topic : String} (hc : c ∈ h.membersOf topic) :
    h.isConnected c = true := by
  obtain ⟨topics, htopics, -⟩ := (hh.agree c topic).mp hc
  rw [Hub.isConnected, Table.contains, htopics]
  rfl

theorem mem_takers_iff {topic : String} :
    c ∈ h.takers topic ↔ c ∈ h.membersOf topic ∧ h.takes c = true :=
  List.mem_filter

variable {session : SessionId} {notice : Notice}

theorem broadcast_eq (hframe : Frame.encode session notice = some frame) :
    h.broadcast session notice = h.deliver frame (h.membersOf session.topic) := by
  rw [broadcast, hframe]

/-- A member whose queue takes the frame keeps all topics, and one whose queue does not loses them.
Nothing becomes of those who are no members. -/
theorem line_broadcast (hh : Indexed h) (hframe : Frame.encode session notice = some frame)
    (c : ConnectionId) :
    (h.broadcast session notice).2.line c =
      if c ∈ h.takers session.topic then { h.line c with inbox := (h.inboxOf c).queue frame }
      else if c ∈ h.membersOf session.topic then { h.line c with topics := none }
      else h.line c := by
  rw [broadcast_eq hframe, line_deliver frame c (hh.nodup session.topic)]
  by_cases hc : c ∈ h.membersOf session.topic
  · have hconnected : (h.line c).topics.isSome = true := hh.isConnected hc
    rw [if_pos hc, if_pos hc, Line.accept_of_connected hconnected]
    by_cases htakes : h.takes c = true
    · rw [if_pos (mem_takers_iff.mpr ⟨hc, htakes⟩)]
      exact if_pos htakes
    · rw [if_neg fun hmem => htakes (mem_takers_iff.mp hmem).2]
      exact if_neg htakes
  · rw [if_neg hc, if_neg hc, if_neg fun hmem => hc (mem_takers_iff.mp hmem).1]

/-- The members afterwards are those whose queues have taken the frame. -/
theorem mem_membersOf_broadcast (hh : Indexed h) (c : ConnectionId) :
    c ∈ (h.broadcast session notice).2.membersOf session.topic ↔ c ∈ h.takers session.topic := by
  have hh' : Indexed (h.broadcast session notice).2 := hh.apply (.broadcast session notice)
  rw [hh'.mem_membersOf_iff, line_broadcast hh (Frame.encode_eq session notice)]
  split
  · next htakes =>
      have hmember := (mem_takers_iff.mp htakes).1
      exact iff_of_true ((hh.mem_membersOf_iff c session.topic).mp hmember) htakes
  · next hnot =>
      split
      · simp [hnot]
      · next hno =>
          rw [hh.mem_membersOf_iff] at hno
          exact iff_of_false hno hnot

/-- A broadcast in a hub whose indexes agree offers a frame to the queue of every member of the
topic.  The answer is the number of queues that took it, and these are the members afterwards: the
frame is last in their queues, and all other queues are as before.  A member that does not
receive, or whose queue is full, is connected no more and listed for no topic.  Everybody else
keeps the same topics and is listed for the same topics.  And the indexes still agree. -/
theorem broadcast_counts_who_remains (h : Hub) (hh : Indexed h) (session : SessionId)
    (notice : Notice) :
    let topic := session.topic
    let count := (h.broadcast session notice).1
    let h' := (h.broadcast session notice).2
    (∃ frame, Frame.encode session notice = some frame ∧ ∀ c,
      h'.inboxOf c = if c ∈ h.takers topic then (h.inboxOf c).queue frame else h.inboxOf c) ∧
    count = (h.takers topic).length ∧ h'.subscriberCount topic = count ∧
    (∀ c, h'.isSubscribed c topic = true ↔ c ∈ h.takers topic) ∧
    (∀ c ∈ h.membersOf topic,
      (h.inboxOf c).receiving = false ∨ h.capacity ≤ (h.inboxOf c).frames.length →
        h'.isConnected c = false ∧ ∀ other, h'.isSubscribed c other = false) ∧
    (∀ c, c ∉ h.membersOf topic ∨ c ∈ h.takers topic →
      h'.subscriptions.find? c = h.subscriptions.find? c ∧
        ∀ other, h'.isSubscribed c other = h.isSubscribed c other) ∧
    Indexed h' := by
  intro topic count h'
  have hframe := Frame.encode_eq session notice
  have hline := line_broadcast hh hframe
  have hremains : ∀ c, c ∈ h'.membersOf topic ↔ c ∈ h.takers topic := mem_membersOf_broadcast hh
  have hh' : Indexed h' := hh.apply (.broadcast session notice)
  have hcount : count = (h.takers topic).length := by
    change (h.broadcast session notice).1 = _
    rw [broadcast_eq hframe]
    exact deliver_fst (hh.nodup topic) (fun c hc => hh.isConnected hc) _
  have hmembers : (h'.membersOf topic).Perm (h.takers topic) :=
    (List.perm_ext_iff_of_nodup (hh'.nodup topic) ((hh.nodup topic).filter _)).mpr hremains
  have hstays : ∀ c, c ∉ h.membersOf topic ∨ c ∈ h.takers topic →
      (h'.line c).topics = (h.line c).topics := fun c hc => by
    rw [hline c]
    split
    · rfl
    · next hnot => rw [if_neg (hc.resolve_right hnot)]
  refine ⟨⟨_, hframe, fun c => ?_⟩, hcount, hmembers.length_eq.trans hcount.symm, fun c => ?_,
    fun c hc hrefuses => ?_, fun c hc => ⟨hstays c hc, fun other => ?_⟩, hh'⟩
  · change (h'.line c).inbox = _
    rw [hline c]
    split
    · rfl
    · split <;> rfl
  · rw [isSubscribed, decide_eq_true_iff, hremains]
  · have hnot : c ∉ h.takers topic := fun hmem => by
      have htakes := (mem_takers_iff.mp hmem).2
      rw [takes, Inbox.hasRoom_eq_false_iff.mpr hrefuses] at htakes
      cases htakes
    have hgone : (h'.line c).topics = none := by
      rw [hline c, if_neg hnot, if_pos hc]
    refine ⟨by rw [isConnected_eq, hgone]; rfl, fun other => ?_⟩
    rw [hh'.isSubscribed_eq, hgone]
    exact decide_eq_false List.not_mem_nil
  · rw [hh.isSubscribed_eq, hh'.isSubscribed_eq, hstays c hc]

/-- Of three members one is full and has another topic, one has stopped receiving, and one takes
the frame. -/
theorem broadcast_counts_who_remains_mixed :
    let h := (empty 1).after [.connect, .connect, .connect, .subscribe ⟨0⟩ "session:a",
      .subscribe ⟨1⟩ "session:a", .subscribe ⟨2⟩ "session:a", .subscribe ⟨0⟩ "session:b",
      .sendTo ⟨0⟩ "x", .stopReceiving ⟨1⟩]
    let result := h.broadcast ⟨"a"⟩ (.deleted ⟨"c"⟩)
    Indexed h ∧ result.1 = 1 ∧ result.2.subscriberCount "session:a" = 1 ∧
      (∀ c ∈ [(⟨0⟩ : ConnectionId), ⟨1⟩], result.2.isConnected c = false ∧
        ∀ other, result.2.isSubscribed c other = false) ∧
      (∀ other, result.2.isSubscribed ⟨2⟩ other = h.isSubscribed ⟨2⟩ other) ∧
      Indexed result.2 := by
  intro h result
  have hh : Indexed h := (indexed_empty 1).after _
  obtain ⟨-, hcount, hmembers, -, hgone, hstays, hh'⟩ :=
    broadcast_counts_who_remains h hh ⟨"a"⟩ (.deleted ⟨"c"⟩)
  have hone : result.1 = 1 := hcount.trans (by decide +kernel)
  refine ⟨hh, hone, hmembers.trans hone, fun c hc => ?_, (hstays ⟨2⟩ ?_).2, hh'⟩
  · refine hgone c ?_ ?_
    · exact (by decide +kernel : ∀ c ∈ [(⟨0⟩ : ConnectionId), ⟨1⟩],
        c ∈ h.membersOf (SessionId.topic ⟨"a"⟩)) c hc
    · exact (by decide +kernel : ∀ c ∈ [(⟨0⟩ : ConnectionId), ⟨1⟩],
        (h.inboxOf c).receiving = false ∨ h.capacity ≤ (h.inboxOf c).frames.length) c hc
  · exact Or.inr (by decide +kernel)

end Hub
end Notebook
