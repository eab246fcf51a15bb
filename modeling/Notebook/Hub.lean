import Notebook.Frame
import Notebook.Table

/-!
# The hub

Clients are connected to a hub, subscribe to topics and receive frames.  Every
connection has a bounded queue; a connection that does not keep up, or has stopped
receiving, is removed as soon as a frame cannot be queued, so that nobody waits for
it.  Its receiver still gets what was queued before.

Subscriptions are indexed twice, by connection and by topic; both indexes change
together.
-/

namespace Notebook

/-- A connection to a hub, numbered in the order of arrival. -/
structure ConnectionId where
  number : Nat
  deriving DecidableEq, Repr, Inhabited

/-- Frames under way to a client. -/
structure Inbox where
  frames : List String
  /-- Whether the client still receives. -/
  receiving : Bool
  deriving DecidableEq, Repr, Inhabited

/-- Who is connected, and who is subscribed to what. -/
structure Hub where
  capacity : Nat
  connected : Nat
  /-- The topics of each connection. -/
  subscriptions : Table ConnectionId (List String)
  /-- The subscribers of each topic. -/
  members : Table String (List ConnectionId)
  inboxes : Table ConnectionId Inbox
  deriving DecidableEq, Repr, Inhabited

namespace Hub

/-- A hub without connections; queues hold at least one frame. -/
def empty (capacity : Nat) : Hub :=
  ⟨max 1 capacity, 0, .empty, .empty, .empty⟩

/-! ## Connections -/

/-- Takes a member out of a topic, and the topic out when nobody is left. -/
def leaveTopic (members : Table String (List ConnectionId)) (c : ConnectionId)
    (topic : String) : Table String (List ConnectionId) :=
  match members.find? topic with
  | none => members
  | some ids =>
    match ids.filter (· ≠ c) with
    | [] => members.erase topic
    | rest => members.set topic rest

/-- Adds a client. -/
def connect (h : Hub) : ConnectionId × Hub :=
  let c : ConnectionId := ⟨h.connected⟩
  (c, { h with
    connected := h.connected + 1
    subscriptions := h.subscriptions.set c []
    inboxes := h.inboxes.set c ⟨[], true⟩ })

/-- Whether a client is connected. -/
def isConnected (h : Hub) (c : ConnectionId) : Bool :=
  h.subscriptions.contains c

/-- Removes a client with all its subscriptions. -/
def disconnect (h : Hub) (c : ConnectionId) : Hub :=
  match h.subscriptions.find? c with
  | none => h
  | some topics =>
    { h with
      subscriptions := h.subscriptions.erase c
      members := topics.foldl (fun members topic => leaveTopic members c topic) h.members }

/-- The number of connections. -/
def connectionCount (h : Hub) : Nat :=
  h.subscriptions.size

/-! ## Subscriptions -/

/-- The list with one more member. -/
def including {α : Type} [DecidableEq α] (a : α) (items : List α) : List α :=
  if a ∈ items then items else items ++ [a]

/-- The members of a topic. -/
def membersOf (h : Hub) (topic : String) : List ConnectionId :=
  (h.members.find? topic).getD []

/-- Subscribes a client to the topic of a session.  Refused when the client is not
connected or the topic is no session's. -/
def subscribe (h : Hub) (c : ConnectionId) (topic : String) : Bool × Hub :=
  match SessionId.ofTopic? topic, h.subscriptions.find? c with
  | some _, some topics =>
    (true, { h with
      subscriptions := h.subscriptions.set c (including topic topics)
      members := h.members.set topic (including c (h.membersOf topic)) })
  | _, _ => (false, h)

/-- Ends a subscription; the answer says whether there was one. -/
def unsubscribe (h : Hub) (c : ConnectionId) (topic : String) : Bool × Hub :=
  match h.subscriptions.find? c with
  | none => (false, h)
  | some topics =>
    if topic ∈ topics then
      (true, { h with
        subscriptions := h.subscriptions.set c (topics.filter (· ≠ topic))
        members := leaveTopic h.members c topic })
    else (false, h)

/-- Whether a client is subscribed to a topic. -/
def isSubscribed (h : Hub) (c : ConnectionId) (topic : String) : Bool :=
  c ∈ h.membersOf topic

/-- The number of subscribers of a topic. -/
def subscriberCount (h : Hub) (topic : String) : Nat :=
  (h.membersOf topic).length

/-! ## Delivery -/

/-- Queues a frame, unless the queue is full or nobody receives. -/
def Inbox.offer (capacity : Nat) (inbox : Inbox) (frame : String) : Option Inbox :=
  if inbox.receiving ∧ inbox.frames.length < capacity then
    some { inbox with frames := inbox.frames ++ [frame] }
  else none

/-- Queues a frame for a connected client.  A client whose queue does not take it is
removed. -/
def sendTo (h : Hub) (c : ConnectionId) (frame : String) : Bool × Hub :=
  if h.isConnected c then
    match (h.inboxes.find? c).bind (Inbox.offer h.capacity · frame) with
    | some inbox => (true, { h with inboxes := h.inboxes.set c inbox })
    | none => (false, h.disconnect c)
  else (false, h)

/-- Queues a frame for each of several clients; counts the queues that took it. -/
def deliver (h : Hub) (frame : String) : List ConnectionId → Nat × Hub
  | [] => (0, h)
  | c :: rest =>
    let (taken, h) := h.sendTo c frame
    let (count, h) := deliver h frame rest
    (if taken then count + 1 else count, h)

/-- Tells the subscribers of a session; counts those who were told. -/
def broadcast (h : Hub) (session : SessionId) (notice : Notice) : Nat × Hub :=
  match Frame.encode session notice with
  | none => (0, h)
  | some frame => h.deliver frame (h.membersOf session.topic)

/-- Tells one client that its frame was refused. -/
def sendError (h : Hub) (c : ConnectionId) (topic : Option String) (message : String) :
    Bool × Hub :=
  h.sendTo c (Frame.renderError topic message)

/-! ## Receiving -/

/-- What a client finds at the end of what it received. -/
inductive End where
  /-- Nobody looked further. -/
  | more
  /-- Frames may still come. -/
  | empty
  /-- No frame will come. -/
  | closed
  deriving DecidableEq, Repr

/-- The name of an end. -/
def End.name : End → String
  | .more => "more"
  | .empty => "empty"
  | .closed => "closed"

/-- Takes up to `limit` frames off a queue. -/
def receive (h : Hub) (c : ConnectionId) (limit : Option Nat) :
    List String × End × Hub :=
  match h.inboxes.find? c with
  | none => ([], .more, h)
  | some inbox =>
    if inbox.receiving then
      let count := limit.getD (inbox.frames.length + 1)
      let taken := inbox.frames.take count
      let last :=
        if count ≤ inbox.frames.length then End.more
        else if h.isConnected c then End.empty else End.closed
      (taken, last,
        { h with inboxes := h.inboxes.set c { inbox with frames := inbox.frames.drop count } })
    else ([], .more, h)

/-- Stops receiving; the answer says whether the client received before. -/
def stopReceiving (h : Hub) (c : ConnectionId) : Bool × Hub :=
  match h.inboxes.find? c with
  | some ⟨_, true⟩ => (true, { h with inboxes := h.inboxes.set c ⟨[], false⟩ })
  | _ => (false, h)

/-! ## Frames from clients -/

/-- Applies a frame that a client sends.  An intent is handed to `dispatch` if the
client is subscribed to its session; a reason that comes back is a rejection. -/
def handleText {σ : Type} (dispatch : ConnectionId → Message → σ → Option String × σ)
    (h : Hub) (c : ConnectionId) (text : String) (s : σ) : Hub × σ :=
  match Frame.decode text with
  | .error refusal => ((h.sendError c none refusal.message).2, s)
  | .ok (.subscribe topic) =>
    match h.subscribe c topic with
    | (true, h) => (h, s)
    | (false, h) => ((h.sendError c (some topic) "subscription refused").2, s)
  | .ok (.unsubscribe topic) => ((h.unsubscribe c topic).2, s)
  | .ok (.message message) =>
    let topic := message.session.topic
    if h.isSubscribed c topic then
      match dispatch c message s with
      | (none, s) => (h, s)
      | (some reason, s) => ((h.sendError c (some topic) reason).2, s)
    else ((h.sendError c (some topic) "not subscribed to topic").2, s)

end Hub
end Notebook
