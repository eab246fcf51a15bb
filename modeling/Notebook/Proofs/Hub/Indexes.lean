import Notebook.Hub
import Notebook.Proofs.Table

/-!
# The two indexes of a hub

A hub knows the topics of each connection and the members of each topic.  `Hub.Indexed` says
that the two agree, that no topic is listed without members, and that only topics of sessions
are listed.  Whatever is done with a hub is made of five changes, `apply_preserves`, so a
property of hubs is shown for these.

* `membersOf_disconnect`: who is removed is taken out of every topic.
* `Indexed.apply`: whatever is done, the indexes agree.
* `Serves`: what is known of a hub that has connected a client.
-/

set_option autoImplicit false

namespace Notebook
namespace Hub

/-- Something that is done with a hub. -/
inductive Op where
  | connect
  | disconnect (c : ConnectionId)
  | subscribe (c : ConnectionId) (topic : String)
  | unsubscribe (c : ConnectionId) (topic : String)
  | broadcast (session : SessionId) (notice : Notice)
  | sendTo (c : ConnectionId) (frame : String)
  | sendError (c : ConnectionId) (topic : Option String) (message : String)
  | receive (c : ConnectionId) (limit : Option Nat)
  | stopReceiving (c : ConnectionId)
  deriving DecidableEq, Repr

/-- The hub after something was done. -/
def apply (h : Hub) : Op → Hub
  | .connect => h.connect.2
  | .disconnect c => h.disconnect c
  | .subscribe c topic => (h.subscribe c topic).2
  | .unsubscribe c topic => (h.unsubscribe c topic).2
  | .broadcast session notice => (h.broadcast session notice).2
  | .sendTo c frame => (h.sendTo c frame).2
  | .sendError c topic message => (h.sendError c topic message).2
  | .receive c limit => (h.receive c limit).2.2
  | .stopReceiving c => (h.stopReceiving c).2

/-- The hub after a history. -/
def after (h : Hub) (ops : List Op) : Hub :=
  ops.foldl apply h

theorem after_append (h : Hub) (ops ops' : List Op) :
    h.after (ops ++ ops') = (h.after ops).after ops' :=
  List.foldl_append

theorem after_cons (h : Hub) (op : Op) (ops : List Op) :
    h.after (op :: ops) = (h.apply op).after ops := rfl

theorem after_snoc (h : Hub) (ops : List Op) (op : Op) :
    h.after (ops ++ [op]) = (h.after ops).apply op :=
  after_append h ops [op]

/-! ## What an operation is made of -/

/-- A frame is queued for a client that is connected, or the client is removed. -/
theorem sendTo_cases (h : Hub) (c : ConnectionId) (frame : String) :
    (h.isConnected c = false ∧ (h.sendTo c frame).2 = h) ∨
    h.isConnected c = true ∧
      ((∃ inbox, (h.inboxes.find? c).bind (Inbox.offer h.capacity · frame) = some inbox ∧
        (h.sendTo c frame).2 = { h with inboxes := h.inboxes.set c inbox }) ∨
      (h.inboxes.find? c).bind (Inbox.offer h.capacity · frame) = none ∧
        (h.sendTo c frame).2 = h.disconnect c) := by
  unfold sendTo
  split
  · next hconnected =>
      refine Or.inr ⟨hconnected, ?_⟩
      split
      · next inbox hinbox => exact Or.inl ⟨inbox, hinbox, rfl⟩
      · next hnone => exact Or.inr ⟨hnone, rfl⟩
  · next hconnected => exact Or.inl ⟨by simpa using hconnected, rfl⟩

theorem deliver_cons (h : Hub) (frame : String) (c : ConnectionId) (rest : List ConnectionId) :
    (h.deliver frame (c :: rest)).2 = ((h.sendTo c frame).2.deliver frame rest).2 := rfl

theorem receive_cases (h : Hub) (c : ConnectionId) (limit : Option Nat) :
    (h.receive c limit).2.2 = h ∨
      ∃ inbox, (h.receive c limit).2.2 = { h with inboxes := h.inboxes.set c inbox } := by
  unfold receive
  split
  · exact Or.inl rfl
  · split
    · exact Or.inr ⟨_, rfl⟩
    · exact Or.inl rfl

theorem stopReceiving_cases (h : Hub) (c : ConnectionId) :
    (h.stopReceiving c).2 = h ∨
      ∃ inbox, (h.stopReceiving c).2 = { h with inboxes := h.inboxes.set c inbox } := by
  unfold stopReceiving
  split
  · exact Or.inr ⟨_, rfl⟩
  · exact Or.inl rfl

/-- What the five changes of a hub preserve, every operation preserves. -/
theorem apply_preserves {P : Hub → Prop} (hconnect : ∀ h, P h → P h.connect.2)
    (hdisconnect : ∀ h c, P h → P (h.disconnect c))
    (hsubscribe : ∀ h c topic, P h → P (h.subscribe c topic).2)
    (hunsubscribe : ∀ h c topic, P h → P (h.unsubscribe c topic).2)
    (hinbox : ∀ h c inbox, P h → P { h with inboxes := h.inboxes.set c inbox })
    {h : Hub} (hh : P h) (op : Op) : P (h.apply op) := by
  have hsend : ∀ h c frame, P h → P (h.sendTo c frame).2 := by
    intro h c frame hh
    rcases sendTo_cases h c frame with ⟨_, heq⟩ | ⟨_, ⟨inbox, _, heq⟩ | ⟨_, heq⟩⟩
    · rwa [heq]
    · rw [heq]
      exact hinbox h c inbox hh
    · rw [heq]
      exact hdisconnect h c hh
  have hdeliver : ∀ frame ids h, P h → P (h.deliver frame ids).2 := by
    intro frame ids
    induction ids with
    | nil => exact fun _ hh => hh
    | cons c rest ih => exact fun h hh => ih _ (hsend h c frame hh)
  cases op with
  | connect => exact hconnect h hh
  | disconnect c => exact hdisconnect h c hh
  | subscribe c topic => exact hsubscribe h c topic hh
  | unsubscribe c topic => exact hunsubscribe h c topic hh
  | broadcast session notice =>
      simp only [apply, broadcast]
      split
      · exact hh
      · exact hdeliver _ _ h hh
  | sendTo c frame => exact hsend h c frame hh
  | sendError c topic message => exact hsend h c _ hh
  | receive c limit =>
      rcases receive_cases h c limit with heq | ⟨inbox, heq⟩
      · rwa [apply, heq]
      · rw [apply, heq]
        exact hinbox h c inbox hh
  | stopReceiving c =>
      rcases stopReceiving_cases h c with heq | ⟨inbox, heq⟩
      · rwa [apply, heq]
      · rw [apply, heq]
        exact hinbox h c inbox hh

/-- A property of hubs that every operation preserves holds after every history. -/
theorem after_preserves {P : Hub → Prop} (happly : ∀ h op, P h → P (h.apply op)) {h : Hub}
    (hh : P h) (ops : List Op) : P (h.after ops) := by
  induction ops generalizing h with
  | nil => exact hh
  | cons op rest ih => exact ih (happly h op hh)

/-! ## Removing a client -/

theorem subscriptions_disconnect (h : Hub) (c d : ConnectionId) :
    (h.disconnect c).subscriptions.find? d =
      if c = d then none else h.subscriptions.find? d := by
  unfold disconnect
  split
  · next hnone =>
      split
      · next heq => rw [← heq, hnone]
      · rfl
  · exact Table.find?_erase _ c d

@[simp]
theorem inboxes_disconnect (h : Hub) (c : ConnectionId) :
    (h.disconnect c).inboxes = h.inboxes := by
  unfold disconnect
  split <;> rfl

@[simp]
theorem connected_disconnect (h : Hub) (c : ConnectionId) :
    (h.disconnect c).connected = h.connected := by
  unfold disconnect
  split <;> rfl

@[simp]
theorem capacity_disconnect (h : Hub) (c : ConnectionId) :
    (h.disconnect c).capacity = h.capacity := by
  unfold disconnect
  split <;> rfl

/-! ## Leaving topics -/

/-- The members of a topic that one has left, if there are any. -/
def remaining (c : ConnectionId) (ids : List ConnectionId) : Option (List ConnectionId) :=
  match ids.filter (· ≠ c) with
  | [] => none
  | rest => some rest

theorem getD_remaining (c : ConnectionId) (ids : List ConnectionId) :
    (remaining c ids).getD [] = ids.filter (· ≠ c) := by
  unfold remaining
  split
  · next hnone => exact hnone.symm
  · rfl

theorem ne_nil_of_remaining {c : ConnectionId} {ids rest : List ConnectionId}
    (h : remaining c ids = some rest) : rest ≠ [] := by
  unfold remaining at h
  split at h
  · cases h
  · next hne => exact Option.some.inj h ▸ hne

theorem find?_leaveTopic (members : Table String (List ConnectionId)) (c : ConnectionId)
    (topic topic' : String) :
    (leaveTopic members c topic).find? topic' =
      if topic = topic' then (members.find? topic').bind (remaining c)
      else members.find? topic' := by
  unfold leaveTopic
  by_cases htopic : topic = topic'
  · subst htopic
    rw [if_pos rfl]
    split
    · next hnone => rw [hnone, Option.bind_none]
    · next ids hids =>
        rw [hids, Option.bind_some, remaining]
        cases ids.filter (· ≠ c) with
        | nil => exact (Table.find?_erase _ _ _).trans (if_pos rfl)
        | cons d rest => exact (Table.find?_set _ _ _ _).trans (if_pos rfl)
  · rw [if_neg htopic]
    split
    · rfl
    · split
      · rw [Table.find?_erase, if_neg htopic]
      · rw [Table.find?_set, if_neg htopic]

/-- Who is listed for a topic. -/
def listed (members : Table String (List ConnectionId)) (topic : String) : List ConnectionId :=
  (members.find? topic).getD []

theorem listed_leaveTopic (members : Table String (List ConnectionId)) (c : ConnectionId)
    (topic topic' : String) :
    listed (leaveTopic members c topic) topic' =
      if topic = topic' then (listed members topic').filter (· ≠ c)
      else listed members topic' := by
  unfold listed
  rw [find?_leaveTopic]
  split
  · cases members.find? topic' with
    | none => rfl
    | some ids => exact getD_remaining c ids
  · rfl

/-- Who leaves several topics is no longer listed for them. -/
theorem listed_foldl_leaveTopic (topics : List String) (c : ConnectionId)
    (members : Table String (List ConnectionId)) (topic : String) :
    listed (topics.foldl (fun members topic => leaveTopic members c topic) members) topic =
      if topic ∈ topics then (listed members topic).filter (· ≠ c)
      else listed members topic := by
  induction topics generalizing members with
  | nil => rfl
  | cons first rest ih =>
      rw [List.foldl_cons, ih, listed_leaveTopic]
      by_cases hfirst : first = topic
      · subst hfirst
        simp
      · have hne : topic ≠ first := fun e => hfirst e.symm
        simp [hfirst, hne]

theorem mem_including {α : Type} [DecidableEq α] {a b : α} {items : List α} :
    b ∈ including a items ↔ b ∈ items ∨ b = a := by
  unfold including
  split
  · next ha => exact ⟨Or.inl, fun h => h.elim id fun hb => hb ▸ ha⟩
  · simp

theorem nodup_including {α : Type} [DecidableEq α] (a : α) {items : List α}
    (h : items.Nodup) : (including a items).Nodup := by
  unfold including
  split
  · exact h
  · next ha => exact List.nodup_append.mpr ⟨h, List.nodup_singleton a, by
      rintro b hb _ hc rfl
      exact ha (List.mem_singleton.mp hc ▸ hb)⟩

/-- The topic of a session starts as such topics do, and a name follows. -/
theorem topic_of_ofTopic? {topic : String} {session : SessionId}
    (h : SessionId.ofTopic? topic = some session) :
    session.text ≠ "" ∧ topic = session.topic := by
  unfold SessionId.ofTopic? at h
  split at h
  · next hstart =>
      obtain ⟨rest, hrest⟩ := List.isPrefixOf_iff_prefix.mp hstart
      rw [← hrest, List.drop_left] at h
      split at h
      · cases h
      · next hname =>
          obtain rfl := Option.some.inj h
          refine ⟨fun hempty => hname ?_, String.toList_inj.mp ?_⟩
          · simpa using congrArg String.toList hempty
          · simp [SessionId.topic, hrest]
  · cases h

/-- Only topics of sessions are listed, and only with members. -/
def Tidy (members : Table String (List ConnectionId)) : Prop :=
  ∀ topic ids, members.find? topic = some ids →
    ids ≠ [] ∧ (SessionId.ofTopic? topic).isSome = true

theorem Tidy.leaveTopic {members : Table String (List ConnectionId)} (hm : Tidy members)
    (c : ConnectionId) (topic : String) : Tidy (leaveTopic members c topic) := by
  intro topic' ids hids
  rw [find?_leaveTopic] at hids
  split at hids
  · obtain ⟨old, hold, hrest⟩ := Option.bind_eq_some_iff.mp hids
    exact ⟨ne_nil_of_remaining hrest, (hm topic' old hold).2⟩
  · exact hm topic' ids hids

theorem Tidy.leaveTopics {members : Table String (List ConnectionId)} (hm : Tidy members)
    (c : ConnectionId) (topics : List String) :
    Tidy (topics.foldl (fun members topic => Hub.leaveTopic members c topic) members) := by
  induction topics generalizing members with
  | nil => exact hm
  | cons first rest ih => exact ih (hm.leaveTopic c first)

/-! ## The indexes -/

/-- The indexes agree, nobody is listed twice for a topic, and who is connected has got a
number and an inbox. -/
structure Indexed (h : Hub) : Prop where
  agree : ∀ c topic, c ∈ h.membersOf topic ↔
    ∃ topics, h.subscriptions.find? c = some topics ∧ topic ∈ topics
  nodup : ∀ topic, (h.membersOf topic).Nodup
  tidy : Tidy h.members
  past : ∀ c, h.connected ≤ c.number → h.subscriptions.find? c = none
  inbox : ∀ c topics, h.subscriptions.find? c = some topics →
    ∃ inbox, h.inboxes.find? c = some inbox

theorem indexed_empty (capacity : Nat) : Indexed (empty capacity) where
  agree c topic := by simp [empty, membersOf]
  nodup topic := by simp [empty, membersOf]
  tidy topic ids h := by simp [empty] at h
  past c _ := by simp [empty]
  inbox c topics h := by simp [empty] at h

namespace Indexed

variable {h : Hub}

theorem not_mem (hh : Indexed h) {c : ConnectionId} {topic : String}
    (hc : ∀ topics, h.subscriptions.find? c = some topics → topic ∉ topics) :
    c ∉ h.membersOf topic := by
  intro hmem
  obtain ⟨topics, htopics, htopic⟩ := (hh.agree c topic).mp hmem
  exact hc topics htopics htopic

/-- Who is removed is taken out of every topic. -/
theorem membersOf_disconnect (hh : Indexed h) (c : ConnectionId) (topic : String) :
    (h.disconnect c).membersOf topic = (h.membersOf topic).filter (· ≠ c) := by
  -- Nothing is taken out where the client is not listed.
  have hself : c ∉ h.membersOf topic → (h.membersOf topic).filter (· ≠ c) = h.membersOf topic :=
    fun hnot => List.filter_eq_self.mpr fun d hd => by
      rw [decide_eq_true_iff]
      rintro rfl
      exact hnot hd
  unfold disconnect
  split
  · next hnone =>
      exact (hself (hh.not_mem fun topics htopics => by rw [hnone] at htopics; cases htopics)).symm
  · next topics htopics =>
      change listed _ topic = _
      rw [listed_foldl_leaveTopic]
      split
      · rfl
      · next htopic =>
          refine (hself (hh.not_mem fun topics' htopics' => ?_)).symm
          obtain rfl := Option.some.inj (htopics.symm.trans htopics')
          exact htopic

theorem disconnect (hh : Indexed h) (c : ConnectionId) : Indexed (h.disconnect c) where
  agree d topic := by
    rw [hh.membersOf_disconnect, List.mem_filter, hh.agree, subscriptions_disconnect]
    by_cases hd : c = d
    · subst hd
      simp
    · have hne : d ≠ c := fun e => hd e.symm
      simp [hd, hne]
  nodup topic := by
    rw [hh.membersOf_disconnect]
    exact (hh.nodup topic).filter _
  tidy := by
    unfold Hub.disconnect
    split
    · exact hh.tidy
    · exact hh.tidy.leaveTopics c _
  past d hd := by
    rw [connected_disconnect] at hd
    rw [subscriptions_disconnect, hh.past d hd, ite_self]
  inbox d topics hd := by
    rw [subscriptions_disconnect] at hd
    rw [inboxes_disconnect]
    split at hd
    · cases hd
    · exact hh.inbox d topics hd

theorem connect (hh : Indexed h) : Indexed h.connect.2 where
  agree d topic := by
    change d ∈ h.membersOf topic ↔ ∃ topics, (h.subscriptions.set _ _).find? d = some topics ∧ _
    rw [Table.find?_set, hh.agree]
    split
    · next hd =>
        have hnone := hh.past d (hd ▸ Nat.le_refl h.connected)
        simp [hnone]
    · rfl
  nodup := hh.nodup
  tidy := hh.tidy
  past d hd := by
    change (h.subscriptions.set _ _).find? d = none
    change h.connected + 1 ≤ d.number at hd
    rw [Table.find?_set, if_neg, hh.past d (by omega)]
    rintro rfl
    exact Nat.not_succ_le_self _ hd
  inbox d topics hd := by
    change (h.subscriptions.set _ _).find? d = some topics at hd
    change ∃ inbox, (h.inboxes.set _ _).find? d = some inbox
    rw [Table.find?_set] at hd ⊢
    split
    · exact ⟨_, rfl⟩
    · next hne =>
        rw [if_neg hne] at hd
        exact hh.inbox d topics hd

/-- A subscription is entered in both indexes. -/
theorem enter (hh : Indexed h) {c : ConnectionId} {topic : String} {topics : List String}
    (hsession : (SessionId.ofTopic? topic).isSome = true)
    (htopics : h.subscriptions.find? c = some topics) :
    Indexed { h with
      subscriptions := h.subscriptions.set c (including topic topics)
      members := h.members.set topic (including c (h.membersOf topic)) } := by
  have hmembers : ∀ topic', ((h.members.set topic (including c (h.membersOf topic))).find?
      topic').getD [] =
        if topic = topic' then including c (h.membersOf topic') else h.membersOf topic' := by
    intro topic'
    rw [Table.find?_set]
    by_cases htopic : topic = topic'
    · simp [htopic]
    · simp [htopic, membersOf]
  refine ⟨fun d topic' => ?_, fun topic' => ?_, fun topic' ids hids => ?_, fun d hd => ?_,
    fun d topics' hd => ?_⟩
  · rw [membersOf, hmembers, Table.find?_set]
    have hagree := hh.agree d topic'
    by_cases hd : c = d
    · subst hd
      by_cases htopic : topic = topic'
      · simp [htopic, mem_including]
      · have hne : topic' ≠ topic := fun e => htopic e.symm
        simpa [htopic, hne, mem_including, htopics] using hagree
    · have hne : d ≠ c := fun e => hd e.symm
      by_cases htopic : topic = topic'
      · simpa [htopic, hd, hne, mem_including] using hagree
      · simpa [htopic, hd] using hagree
  · rw [membersOf, hmembers]
    split
    · exact nodup_including c (hh.nodup topic')
    · exact hh.nodup topic'
  · change (h.members.set _ _).find? topic' = some ids at hids
    rw [Table.find?_set] at hids
    split at hids
    · next htopic =>
        obtain rfl := Option.some.inj hids
        exact ⟨List.ne_nil_of_mem (mem_including.mpr (Or.inr rfl)), htopic ▸ hsession⟩
    · exact hh.tidy topic' ids hids
  · have hpast := hh.past d hd
    change (h.subscriptions.set _ _).find? d = none
    rw [Table.find?_set, if_neg, hpast]
    rintro rfl
    rw [htopics] at hpast
    cases hpast
  · change (h.subscriptions.set _ _).find? d = some topics' at hd
    rw [Table.find?_set] at hd
    split at hd
    · next hcd => exact hh.inbox d topics (hcd ▸ htopics)
    · exact hh.inbox d topics' hd

theorem subscribe (hh : Indexed h) (c : ConnectionId) (topic : String) :
    Indexed (h.subscribe c topic).2 := by
  unfold Hub.subscribe
  split
  · next session topics hsession htopics =>
      exact hh.enter (Option.isSome_iff_exists.mpr ⟨session, hsession⟩) htopics
  · exact hh

/-- A subscription is taken out of both indexes. -/
theorem quit (hh : Indexed h) {c : ConnectionId} {topic : String} {topics : List String}
    (htopics : h.subscriptions.find? c = some topics) :
    Indexed { h with
      subscriptions := h.subscriptions.set c (topics.filter (· ≠ topic))
      members := leaveTopic h.members c topic } := by
  refine ⟨fun d topic' => ?_, fun topic' => ?_, hh.tidy.leaveTopic c topic, fun d hd => ?_,
    fun d topics' hd => ?_⟩
  · change d ∈ listed (leaveTopic h.members c topic) topic' ↔ _
    rw [listed_leaveTopic, Table.find?_set]
    have hagree : d ∈ listed h.members topic' ↔ _ := hh.agree d topic'
    by_cases hd : c = d
    · subst hd
      by_cases htopic : topic = topic'
      · simp [htopic]
      · have hne : topic' ≠ topic := fun e => htopic e.symm
        simpa [htopic, hne, htopics] using hagree
    · have hne : d ≠ c := fun e => hd e.symm
      by_cases htopic : topic = topic'
      · simpa [htopic, hd, hne] using hagree
      · simpa [htopic, hd] using hagree
  · change (listed (leaveTopic h.members c topic) topic').Nodup
    rw [listed_leaveTopic]
    split
    · exact (hh.nodup topic').filter _
    · exact hh.nodup topic'
  · have hpast := hh.past d hd
    change (h.subscriptions.set _ _).find? d = none
    rw [Table.find?_set, if_neg, hpast]
    rintro rfl
    rw [htopics] at hpast
    cases hpast
  · change (h.subscriptions.set _ _).find? d = some topics' at hd
    rw [Table.find?_set] at hd
    split at hd
    · next hcd => exact hh.inbox d topics (hcd ▸ htopics)
    · exact hh.inbox d topics' hd

theorem unsubscribe (hh : Indexed h) (c : ConnectionId) (topic : String) :
    Indexed (h.unsubscribe c topic).2 := by
  unfold Hub.unsubscribe
  split
  · exact hh
  · next topics htopics =>
      split
      · exact hh.quit htopics
      · exact hh

theorem withInbox (hh : Indexed h) (c : ConnectionId) (inbox : Inbox) :
    Indexed { h with inboxes := h.inboxes.set c inbox } where
  agree := hh.agree
  nodup := hh.nodup
  tidy := hh.tidy
  past := hh.past
  inbox d topics hd := by
    change ∃ inbox', (h.inboxes.set c inbox).find? d = some inbox'
    rw [Table.find?_set]
    split
    · exact ⟨inbox, rfl⟩
    · exact hh.inbox d topics hd

/-- Whatever is done, the indexes agree. -/
theorem apply (hh : Indexed h) (op : Op) : Indexed (h.apply op) :=
  apply_preserves (fun _ => connect) (fun _ c hh => hh.disconnect c)
    (fun _ c topic hh => hh.subscribe c topic) (fun _ c topic hh => hh.unsubscribe c topic)
    (fun _ c inbox hh => hh.withInbox c inbox) hh op

theorem after (hh : Indexed h) (ops : List Op) : Indexed (h.after ops) :=
  after_preserves (fun _ op hh => hh.apply op) hh ops

end Indexed

/-! ## A hub that has connected a client -/

/-- The indexes agree, queues hold `n` frames, and the client has been connected. -/
structure Serves (n : Nat) (c : ConnectionId) (h : Hub) : Prop where
  indexed : Indexed h
  joined : c.number < h.connected
  capacity : h.capacity = n

@[simp]
theorem connected_subscribe (h : Hub) (c : ConnectionId) (topic : String) :
    (h.subscribe c topic).2.connected = h.connected := by
  unfold subscribe
  split <;> rfl

@[simp]
theorem capacity_subscribe (h : Hub) (c : ConnectionId) (topic : String) :
    (h.subscribe c topic).2.capacity = h.capacity := by
  unfold subscribe
  split <;> rfl

@[simp]
theorem connected_unsubscribe (h : Hub) (c : ConnectionId) (topic : String) :
    (h.unsubscribe c topic).2.connected = h.connected := by
  unfold unsubscribe
  split
  · rfl
  · split <;> rfl

@[simp]
theorem capacity_unsubscribe (h : Hub) (c : ConnectionId) (topic : String) :
    (h.unsubscribe c topic).2.capacity = h.capacity := by
  unfold unsubscribe
  split
  · rfl
  · split <;> rfl

/-- Queues always hold as many frames. -/
theorem capacity_apply (h : Hub) (op : Op) : (h.apply op).capacity = h.capacity :=
  apply_preserves (P := (·.capacity = h.capacity)) (fun _ heq => heq)
    (fun _ _ heq => by rwa [capacity_disconnect]) (fun _ _ _ heq => by rwa [capacity_subscribe])
    (fun _ _ _ heq => by rwa [capacity_unsubscribe]) (fun _ _ _ heq => heq) rfl op

theorem capacity_after (h : Hub) (ops : List Op) : (h.after ops).capacity = h.capacity :=
  after_preserves (P := (·.capacity = h.capacity))
    (fun h op heq => (capacity_apply h op).trans heq) rfl ops

/-- Numbers are not given back. -/
theorem connected_le_apply (h : Hub) (op : Op) : h.connected ≤ (h.apply op).connected :=
  apply_preserves (P := (h.connected ≤ ·.connected)) (fun _ hle => Nat.le_succ_of_le hle)
    (fun _ _ hle => by rwa [connected_disconnect])
    (fun _ _ _ hle => by rwa [connected_subscribe])
    (fun _ _ _ hle => by rwa [connected_unsubscribe]) (fun _ _ _ hle => hle) (Nat.le_refl _) op

namespace Serves

variable {n : Nat} {c : ConnectionId} {h : Hub}

theorem apply (hs : Serves n c h) (op : Op) : Serves n c (h.apply op) where
  indexed := hs.indexed.apply op
  joined := Nat.lt_of_lt_of_le hs.joined (connected_le_apply h op)
  capacity := (capacity_apply h op).trans hs.capacity

theorem after (hs : Serves n c h) (ops : List Op) : Serves n c (h.after ops) :=
  after_preserves (fun _ op hs => hs.apply op) hs ops

end Serves

/-- A client that is connected has been connected. -/
theorem serves_of_isConnected (capacity : Nat) (ops : List Op) {c : ConnectionId}
    (hc : ((empty capacity).after ops).isConnected c = true) :
    Serves (max 1 capacity) c ((empty capacity).after ops) := by
  have hh := (indexed_empty capacity).after ops
  refine ⟨hh, Nat.lt_of_not_le fun hle => ?_, capacity_after (empty capacity) ops⟩
  rw [isConnected, Table.contains, hh.past c hle] at hc
  cases hc

end Hub
end Notebook
