import Notebook.Proofs.Hub.Lines
import Mathlib.Data.List.Induction

/-!
# What a connection receives

A client takes frames from its inbox, and may stop receiving, which leaves what is still queued
unread.  As long as no operation removes it, every frame that an operation has for it is
queued; from then on nothing is queued, but what is there can still be taken.  So what was
taken, then what was left unread or is still queued, is in order what was due until the client
was removed.

* `flow_apply`: an operation moves frames on, and queues at most one.
* `Delivers`, `Delivers.snoc`: the frames of a client, and what one operation more does to them.
* `delivers_due_frames`: the frames of every client in every history, its subscriptions, the end
  of its queue, and that all this does not depend on the other clients.
-/

set_option autoImplicit false

namespace Notebook
namespace Hub

/-- The frames that a client takes with an operation. -/
def takenBy (h : Hub) (c : ConnectionId) : Op → List String
  | .receive d limit => if d = c then (h.receive c limit).1 else []
  | _ => []

/-- The frames still queued when a client stops receiving with an operation. -/
def unreadBy (h : Hub) (c : ConnectionId) : Op → List String
  | .stopReceiving d => if d = c then (h.inboxOf c).frames else []
  | _ => []

/-- The frames that a client takes in a history. -/
def taken (h : Hub) (c : ConnectionId) (ops : List Op) : List String :=
  gather apply (fun h op => h.takenBy c op) h ops

/-- The frames still queued when a client stops receiving in a history. -/
def unread (h : Hub) (c : ConnectionId) (ops : List Op) : List String :=
  gather apply (fun h op => h.unreadBy c op) h ops

/-- The frames that the operations of a history have for a client. -/
def due (h : Hub) (c : ConnectionId) (ops : List Op) : List String :=
  gather apply (fun h op => (h.frameFor c op).toList) h ops

/-- What the operations of a history are for a client. -/
def own (c : ConnectionId) (ops : List Op) : List Deed :=
  ops.filterMap (Op.on c)

/-! ## One deed -/

/-- There are no more frames than there is room for, and none for a client that does not
receive. -/
structure Sound (n : Nat) (inbox : Inbox) : Prop where
  bound : inbox.frames.length ≤ n
  quiet : inbox.receiving = false → inbox.frames = []

namespace Line

/-- The frames taken with a deed. -/
def takenBy (l : Line) : Deed → List String
  | .receive limit => l.inbox.taking limit
  | _ => []

/-- The frames left unread with a deed. -/
def unreadBy (l : Line) : Deed → List String
  | .stopReceiving => l.inbox.frames
  | _ => []

theorem frames_accept (n : Nat) (l : Line) (frame : String) :
    (l.accept n frame).inbox.frames =
      l.inbox.frames ++ if (l.accept n frame).topics.isSome then [frame] else [] := by
  rcases accept_cases n l frame with ⟨hyes, _, _, heq⟩ | ⟨_, heq⟩
  · rw [heq, hyes, if_pos rfl]
  · rw [heq]
    exact (List.append_nil _).symm

theorem receiving_accept (n : Nat) (l : Line) (frame : String) :
    (l.accept n frame).inbox.receiving = l.inbox.receiving := by
  rcases accept_cases n l frame with ⟨_, _, _, heq⟩ | ⟨_, heq⟩
  · rw [heq]
  · rw [heq]

theorem sound_accept (n : Nat) (l : Line) (frame : String) (hl : Sound n l.inbox) :
    Sound n (l.accept n frame).inbox := by
  rcases accept_cases n l frame with ⟨_, hreceiving, hroom, heq⟩ | ⟨_, heq⟩
  · rw [heq]
    refine ⟨?_, fun hquiet => ?_⟩
    · rw [List.length_append]
      exact hroom
    · rw [hreceiving] at hquiet
      cases hquiet
  · rw [heq]
    exact hl

/-- What was queued is taken, left unread or still queued, in order, and one frame more if the
client stays connected. -/
theorem flow (n : Nat) (l : Line) (deed : Deed) (hl : Sound n l.inbox) :
    l.takenBy deed ++ l.unreadBy deed ++ (l.step n deed).inbox.frames =
      l.inbox.frames ++ if (l.step n deed).topics.isSome then (l.due deed).toList else [] := by
  -- Without a frame that is due, frames only move on.
  have hnone : l.due deed = none → l.inbox.frames ++
      (if (l.step n deed).topics.isSome then (l.due deed).toList else []) = l.inbox.frames := by
    intro hdue
    rw [hdue, Option.toList_none, ite_self, List.append_nil]
  cases deed with
  | send frame => exact frames_accept n l frame
  | broadcast session notice =>
      cases hdue : l.due (.broadcast session notice) with
      | none =>
          rw [hdue] at hnone
          rw [hnone rfl, step, hdue]
          rfl
      | some frame =>
          rw [step, hdue]
          exact frames_accept n l frame
  | receive limit =>
      rw [hnone rfl]
      exact (congrArg (· ++ _) (List.append_nil _)).trans (l.inbox.taking_append_leaving limit)
  | stopReceiving =>
      have hshut : l.inbox.shut.frames = [] := by
        unfold Inbox.shut
        split
        · rfl
        · next hnot => exact hl.quiet (by simpa using hnot)
      rw [hnone rfl]
      exact (congrArg (l.inbox.frames ++ ·) hshut).trans (List.append_nil _)
  | subscribe topic =>
      rw [hnone rfl, step]
      split <;> rfl
  | disconnect => exact (hnone rfl).symm
  | unsubscribe topic => exact (hnone rfl).symm

/-- A client receives until it stops. -/
theorem receiving_step (n : Nat) (l : Line) (deed : Deed) :
    (l.step n deed).inbox.receiving = true ↔
      l.inbox.receiving = true ∧ deed ≠ .stopReceiving := by
  cases deed with
  | send frame => simp [step, receiving_accept]
  | broadcast session notice =>
      rw [step]
      cases l.due (.broadcast session notice) <;> simp [receiving_accept]
  | subscribe topic =>
      rw [step]
      split <;> simp
  | stopReceiving =>
      simp only [step, Inbox.shut]
      split <;> simp_all
  | _ => simp [step]

theorem sound_step (n : Nat) (l : Line) (deed : Deed) (hl : Sound n l.inbox) :
    Sound n (l.step n deed).inbox := by
  cases deed with
  | send frame => exact sound_accept n l frame hl
  | broadcast session notice =>
      rw [step]
      cases l.due (.broadcast session notice) with
      | none => exact hl
      | some frame => exact sound_accept n l frame hl
  | receive limit =>
      have hsplit := l.inbox.taking_append_leaving limit
      refine ⟨?_, fun hquiet => ?_⟩
      · have hlength := congrArg List.length hsplit
        have hbound := hl.bound
        rw [List.length_append] at hlength
        change (l.inbox.leaving limit).frames.length ≤ n
        omega
      · change (l.inbox.leaving limit).receiving = false at hquiet
        rw [Inbox.receiving_leaving] at hquiet
        rw [hl.quiet hquiet] at hsplit
        exact (List.append_eq_nil_iff.mp hsplit).2
  | stopReceiving =>
      change Sound n l.inbox.shut
      unfold Inbox.shut
      split
      · exact ⟨Nat.zero_le n, fun _ => rfl⟩
      · exact hl
  | subscribe topic =>
      rw [step]
      split <;> exact hl
  | disconnect => exact hl
  | unsubscribe topic => exact hl

end Line

variable {n : Nat} {c : ConnectionId} {h : Hub}

theorem takenBy_eq (h : Hub) (c : ConnectionId) (op : Op) :
    h.takenBy c op = (op.on c).elim [] (h.line c).takenBy := by
  cases op with
  | receive d limit =>
      simp only [takenBy, Op.on, receive_fst]
      split <;> rfl
  | connect => rfl
  | broadcast session notice => rfl
  | _ =>
      simp only [takenBy, Op.on]
      split <;> rfl

theorem unreadBy_eq (h : Hub) (c : ConnectionId) (op : Op) :
    h.unreadBy c op = (op.on c).elim [] (h.line c).unreadBy := by
  cases op with
  | connect => rfl
  | broadcast session notice => rfl
  | _ =>
      simp only [unreadBy, Op.on]
      split <;> rfl

/-! ## One operation -/

/-- The frames queued for a client are taken, left unread or still queued, in order, and one
frame more if it stays connected. -/
theorem flow_apply (hs : Serves n c h) (hsound : Sound n (h.inboxOf c)) (op : Op) :
    h.takenBy c op ++ h.unreadBy c op ++ ((h.apply op).inboxOf c).frames =
      (h.inboxOf c).frames ++
        if (h.apply op).isConnected c then (h.frameFor c op).toList else [] := by
  rw [takenBy_eq, unreadBy_eq, frameFor_eq hs.indexed, isConnected_eq]
  change _ ++ ((h.apply op).line c).inbox.frames = _
  rw [line_apply hs]
  cases op.on c with
  | none => exact (List.append_nil _).symm.trans (congrArg _ (ite_self _).symm)
  | some deed => exact (h.line c).flow n deed hsound

/-- A client receives until it stops. -/
theorem receiving_apply (hs : Serves n c h) (op : Op) :
    ((h.apply op).inboxOf c).receiving = true ↔
      (h.inboxOf c).receiving = true ∧ op ≠ .stopReceiving c := by
  rw [ne_eq, ← (on_eq_some_iff c op).2]
  change ((h.apply op).line c).inbox.receiving = true ↔ _
  rw [line_apply hs]
  cases op.on c with
  | none => exact (and_iff_left (Option.some_ne_none _).symm).symm
  | some deed =>
      rw [Option.some_inj]
      exact (h.line c).receiving_step n deed

theorem sound_apply (hs : Serves n c h) (hsound : Sound n (h.inboxOf c)) (op : Op) :
    Sound n ((h.apply op).inboxOf c) := by
  change Sound n ((h.apply op).line c).inbox
  rw [line_apply hs]
  cases op.on c with
  | none => exact hsound
  | some deed => exact (h.line c).sound_step n deed hsound

/-- Who does not receive takes nothing. -/
theorem takenBy_of_not_receiving (hquiet : (h.inboxOf c).receiving = false) (op : Op) :
    h.takenBy c op = [] := by
  unfold takenBy
  split
  · rw [receive_fst, Inbox.taking, hquiet, if_neg Bool.false_ne_true, ite_self]
  · rfl

/-- Nothing is left unread while a client receives. -/
theorem unreadBy_of_ne {op : Op} (hop : op ≠ .stopReceiving c) : h.unreadBy c op = [] := by
  unfold unreadBy
  split
  · exact if_neg fun hd => hop (congrArg Op.stopReceiving hd)
  · rfl

/-! ## Histories -/

/-- What a client that has joined a hub gets in a history. -/
structure Delivers (n : Nat) (joined : Hub) (c : ConnectionId) (ops : List Op) : Prop where
  /-- The history starts with operations that keep the client.  What it has taken, then what
  is still queued or was so when it stopped receiving, is in order what these have for it.  The
  next operation, if there is one, removes the client, and whatever follows, it is not
  connected. -/
  course : ∃ kept rest, ops = kept ++ rest ∧
    joined.taken c ops ++ joined.unread c ops ++ ((joined.after ops).inboxOf c).frames =
      joined.due c kept ∧
    (∀ earlier op, earlier ++ [op] <+: kept → ¬ Removes n (joined.after earlier) c op) ∧
    (rest = [] ∧ (joined.after ops).isConnected c = true ∨
      ∃ op later, rest = op :: later ∧ Removes n (joined.after kept) c op ∧
        ∀ more, (joined.after (kept ++ op :: more)).isConnected c = false)
  /-- It receives until it stops. -/
  receiving : ((joined.after ops).inboxOf c).receiving = true ↔ Op.stopReceiving c ∉ ops
  /-- Nothing is left unread until then. -/
  unread : Op.stopReceiving c ∉ ops → joined.unread c ops = []
  /-- Never are more than `n` frames queued, and none once it has stopped. -/
  sound : Sound n ((joined.after ops).inboxOf c)

namespace Delivers

variable {joined : Hub} {ops : List Op}

/-- Who receives has left nothing unread, and who does not takes nothing: what is unread comes
after what was taken. -/
theorem unread_append_takenBy (hd : Delivers n joined c ops) (op : Op) :
    joined.unread c ops ++ (joined.after ops).takenBy c op =
      (joined.after ops).takenBy c op ++ joined.unread c ops := by
  by_cases hstop : Op.stopReceiving c ∈ ops
  · have hquiet : ((joined.after ops).inboxOf c).receiving = false :=
      Bool.eq_false_iff.mpr fun hyes => hd.receiving.mp hyes hstop
    rw [takenBy_of_not_receiving hquiet, List.append_nil, List.nil_append]
  · rw [hd.unread hstop, List.append_nil, List.nil_append]

/-- What an operation adds to the frames of a client. -/
theorem stream_snoc (hs : Serves n c joined) (hd : Delivers n joined c ops) (op : Op) :
    joined.taken c (ops ++ [op]) ++ joined.unread c (ops ++ [op]) ++
        ((joined.after (ops ++ [op])).inboxOf c).frames =
      joined.taken c ops ++ joined.unread c ops ++ ((joined.after ops).inboxOf c).frames ++
        if (joined.after (ops ++ [op])).isConnected c then
          ((joined.after ops).frameFor c op).toList
        else [] := by
  have hflow := flow_apply (hs.after ops) hd.sound op
  have hcomm := hd.unread_append_takenBy op
  have htaken : joined.taken c (ops ++ [op]) =
      joined.taken c ops ++ (joined.after ops).takenBy c op := gather_snoc _ _ _ _ _
  have hunread : joined.unread c (ops ++ [op]) =
      joined.unread c ops ++ (joined.after ops).unreadBy c op := gather_snoc _ _ _ _ _
  rw [htaken, hunread, after_snoc]
  simp only [List.append_assoc] at hflow ⊢
  -- What is taken now goes before what was left unread: one of the two is nothing.
  rw [← hflow, ← List.append_assoc ((joined.after ops).takenBy c op), ← hcomm, List.append_assoc]

theorem course_snoc (hs : Serves n c joined) (hd : Delivers n joined c ops) (op : Op) :
    ∃ kept rest, ops ++ [op] = kept ++ rest ∧
      joined.taken c (ops ++ [op]) ++ joined.unread c (ops ++ [op]) ++
          ((joined.after (ops ++ [op])).inboxOf c).frames = joined.due c kept ∧
      (∀ earlier op, earlier ++ [op] <+: kept → ¬ Removes n (joined.after earlier) c op) ∧
      (rest = [] ∧ (joined.after (ops ++ [op])).isConnected c = true ∨
        ∃ op later, rest = op :: later ∧ Removes n (joined.after kept) c op ∧
          ∀ more, (joined.after (kept ++ op :: more)).isConnected c = false) := by
  have hstream := hd.stream_snoc hs op
  have hconnected := isConnected_apply (hs.after ops) op
  rw [← after_snoc] at hconnected
  obtain ⟨kept, rest, hsplit, hsame, hkept, ⟨rfl, hyes⟩ | ⟨first, later, rfl, hfirst, hgone⟩⟩ :=
    hd.course
  · -- The client was still connected, so all operations were kept.
    rw [List.append_nil] at hsplit
    subst hsplit
    by_cases hop : Removes n (joined.after ops) c op
    · -- This is the operation that removes the client.
      have hno : (joined.after (ops ++ [op])).isConnected c = false :=
        Bool.eq_false_iff.mpr fun hstays => (hconnected.mp hstays).2 hop
      refine ⟨ops, [op], rfl, ?_, hkept, Or.inr ⟨op, [], rfl, hop, fun more => ?_⟩⟩
      · rw [hstream, hno, if_neg Bool.false_ne_true, List.append_nil, hsame]
      · rw [List.append_cons, after_append]
        exact isConnected_after (hs.after _) hno more
    · have hstays := hconnected.mpr ⟨hyes, hop⟩
      refine ⟨ops ++ [op], [], (List.append_nil _).symm, ?_, ?_, Or.inl ⟨rfl, hstays⟩⟩
      · rw [hstream, hstays, if_pos rfl, hsame]
        exact (gather_snoc _ _ joined ops op).symm
      · intro earlier op' hprefix
        rcases List.prefix_concat_iff.mp hprefix with heq | hprefix
        · obtain ⟨rfl, hop'⟩ := List.append_inj' heq rfl
          rwa [List.singleton_inj.mp hop']
        · exact hkept earlier op' hprefix
  · -- The client was removed before, and nothing more is due to it.
    have hno : (joined.after (ops ++ [op])).isConnected c = false := by
      rw [hsplit, List.append_assoc]
      exact hgone (later ++ [op])
    refine ⟨kept, first :: (later ++ [op]), ?_, ?_, hkept, Or.inr ⟨first, _, rfl, hfirst, hgone⟩⟩
    · rw [hsplit, List.append_assoc, List.cons_append]
    · rw [hstream, hno, if_neg Bool.false_ne_true, List.append_nil, hsame]

/-- What holds of a history holds of it with one operation more. -/
theorem snoc (hs : Serves n c joined) (hd : Delivers n joined c ops) (op : Op) :
    Delivers n joined c (ops ++ [op]) := by
  have hreceiving : ((joined.after (ops ++ [op])).inboxOf c).receiving = true ↔
      Op.stopReceiving c ∉ ops ++ [op] := by
    rw [after_snoc, receiving_apply (hs.after ops), hd.receiving, List.mem_append,
      List.mem_singleton, not_or]
    exact and_congr_right fun _ => ne_comm
  refine ⟨hd.course_snoc hs op, hreceiving, fun hstop => ?_, ?_⟩
  · rw [List.mem_append, List.mem_singleton, not_or] at hstop
    have hunread : joined.unread c (ops ++ [op]) =
        joined.unread c ops ++ (joined.after ops).unreadBy c op := gather_snoc _ _ _ _ _
    rw [hunread, hd.unread hstop.1, unreadBy_of_ne fun heq => hstop.2 heq.symm, List.nil_append]
  · rw [after_snoc]
    exact sound_apply (hs.after ops) hd.sound op

end Delivers

/-! ## From the connection on -/

theorem line_connect (h : Hub) : h.connect.2.line h.connect.1 = ⟨some [], ⟨[], true⟩⟩ := by
  unfold line inboxOf connect
  simp only [Table.find?_set, if_pos, Option.getD_some]

theorem serves_connect (hh : Indexed h) (hn : h.capacity = n) :
    Serves n h.connect.1 h.connect.2 :=
  ⟨hh.connect, Nat.lt_succ_self h.connected, hn⟩

/-- Whatever happens after a client has joined, its frames are delivered. -/
theorem delivers_after (hs : Serves n h.connect.1 h.connect.2) (ops : List Op) :
    Delivers n h.connect.2 h.connect.1 ops := by
  have hline := line_connect h
  have hinbox : h.connect.2.inboxOf h.connect.1 = ⟨[], true⟩ := congrArg Line.inbox hline
  induction ops using List.reverseRecOn with
  | nil =>
      refine ⟨⟨[], [], rfl, ?_, ?_, Or.inl ⟨rfl, ?_⟩⟩, ?_, fun _ => rfl, ?_⟩
      · exact congrArg Inbox.frames hinbox
      · intro earlier op hprefix
        exact absurd (List.prefix_nil.mp hprefix) (List.concat_ne_nil op earlier)
      · exact congrArg (·.topics.isSome) hline
      · exact iff_of_true (congrArg Inbox.receiving hinbox) List.not_mem_nil
      · change Sound n (h.connect.2.inboxOf h.connect.1)
        rw [hinbox]
        exact ⟨Nat.zero_le n, fun _ => rfl⟩
  | append_singleton ops op ih => exact ih.snoc hs op

/-- What a client gets is a matter of what is done with it. -/
theorem own_decides (hs : Serves n c h) (ops : List Op) :
    h.taken c ops = gather (Line.step n) Line.takenBy (h.line c) (own c ops) ∧
    h.unread c ops = gather (Line.step n) Line.unreadBy (h.line c) (own c ops) ∧
    (h.after ops).line c = (own c ops).foldl (Line.step n) (h.line c) :=
  ⟨gather_view (line · c) (fun _ op hs => Serves.apply hs op)
      (fun _ op hs => line_apply hs op) (fun h op _ => takenBy_eq h c op) hs ops,
    gather_view (line · c) (fun _ op hs => Serves.apply hs op)
      (fun _ op hs => line_apply hs op) (fun h op _ => unreadBy_eq h c op) hs ops,
    line_after hs ops⟩

/-- Two clients that have joined hubs with as much room get the same when the same is done
with them. -/
theorem own_decides_joined {h' : Hub} (hs : Serves n h.connect.1 h.connect.2)
    (hs' : Serves n h'.connect.1 h'.connect.2) {ops ops' : List Op}
    (hown : own h'.connect.1 ops' = own h.connect.1 ops) :
    h'.connect.2.taken h'.connect.1 ops' = h.connect.2.taken h.connect.1 ops ∧
    h'.connect.2.unread h'.connect.1 ops' = h.connect.2.unread h.connect.1 ops ∧
    (h'.connect.2.after ops').line h'.connect.1 = (h.connect.2.after ops).line h.connect.1 := by
  obtain ⟨htaken, hunread, hline⟩ := own_decides hs ops
  obtain ⟨htaken', hunread', hline'⟩ := own_decides hs' ops'
  rw [htaken, hunread, hline, htaken', hunread', hline', line_connect, line_connect, hown]
  exact ⟨rfl, rfl, rfl⟩

/-! ## The end of a queue -/

/-- What a client finds at the end of its queue. -/
theorem receive_end (hreceiving : (h.inboxOf c).receiving = true) (limit : Option Nat) :
    (h.receive c limit).2.1 =
      if limit.getD ((h.inboxOf c).frames.length + 1) ≤ (h.inboxOf c).frames.length then .more
      else if h.isConnected c then .empty else .closed := by
  unfold inboxOf at hreceiving ⊢
  unfold receive
  cases hfind : h.inboxes.find? c with
  | none =>
      rw [hfind] at hreceiving
      cases hreceiving
  | some inbox =>
      rw [hfind, Option.getD_some] at hreceiving
      simp only [Option.getD_some, if_pos hreceiving]

theorem taking_eq_frames {inbox : Inbox} (hreceiving : inbox.receiving = true)
    {limit : Option Nat} (hlimit : ¬ limit.getD (inbox.frames.length + 1) ≤ inbox.frames.length) :
    inbox.taking limit = inbox.frames := by
  rw [Inbox.taking, if_pos hreceiving]
  exact List.take_of_length_le (Nat.le_of_lt (Nat.lt_of_not_le hlimit))

/-- Who takes all there is finds that more may come, as long as it is connected. -/
theorem receive_none (hreceiving : (h.inboxOf c).receiving = true) :
    (h.receive c none).1 = (h.inboxOf c).frames ∧
      (h.receive c none).2.1 = if h.isConnected c then .empty else .closed := by
  have hlimit : ¬ (none.getD ((h.inboxOf c).frames.length + 1) ≤ (h.inboxOf c).frames.length) :=
    Nat.not_succ_le_self _
  exact ⟨(receive_fst h c none).trans (taking_eq_frames hreceiving hlimit),
    (receive_end hreceiving none).trans (if_neg hlimit)⟩

/-- A queue is closed to a client that is connected no more and has taken all there is. -/
theorem of_receive_closed (hreceiving : (h.inboxOf c).receiving = true) {limit : Option Nat}
    (hclosed : (h.receive c limit).2.1 = .closed) :
    h.isConnected c = false ∧ (h.receive c limit).1 = (h.inboxOf c).frames := by
  rw [receive_end hreceiving] at hclosed
  split at hclosed
  · cases hclosed
  · next hlimit =>
      split at hclosed
      · cases hclosed
      · next hno =>
          exact ⟨Bool.eq_false_iff.mpr hno,
            (receive_fst h c limit).trans (taking_eq_frames hreceiving hlimit)⟩

/-! ## Every history -/

/-- Whoever connects after whatever history gets, in the order of the operations and once
each, the frames that are due to it until it is removed: they have been taken, and the rest is
still queued, or was so when it stopped receiving.  At any time it is subscribed to the topics of
sessions for which it has asked and which it has not given up since, unless it has been removed.
What is queued it still receives before its queue is closed.  Nothing of this depends on what is
done with other clients. -/
theorem delivers_due_frames (capacity : Nat) (before after : List Op) :
    let c := ((empty capacity).after before).connect.1
    let joined := ((empty capacity).after before).connect.2
    let now := joined.after after
    Delivers (max 1 capacity) joined c after ∧
    (∀ topic, now.isSubscribed c topic = true ↔
      now.isConnected c = true ∧ (SessionId.ofTopic? topic).isSome = true ∧
        Asks c topic after) ∧
    (Op.stopReceiving c ∉ after →
      (now.receive c none).1 = (now.inboxOf c).frames ∧
      (now.receive c none).2.1 = (if now.isConnected c then .empty else .closed) ∧
      ∀ limit, (now.receive c limit).2.1 = .closed →
        now.isConnected c = false ∧ (now.receive c limit).1 = (now.inboxOf c).frames) ∧
    ∀ before' after',
      let c' := ((empty capacity).after before').connect.1
      let joined' := ((empty capacity).after before').connect.2
      own c' after' = own c after →
        joined'.taken c' after' = joined.taken c after ∧
        joined'.unread c' after' = joined.unread c after ∧
        (joined'.after after').line c' = now.line c := by
  intro c joined now
  have hserves : ∀ before, Serves (max 1 capacity) ((empty capacity).after before).connect.1
      ((empty capacity).after before).connect.2 := fun before =>
    serves_connect ((indexed_empty capacity).after before) (capacity_after _ before)
  have hdelivers : Delivers (max 1 capacity) joined c after :=
    delivers_after (hserves before) after
  refine ⟨hdelivers, fun topic => ?_, fun hstop => ?_, ?_⟩
  · -- Who has just connected is not subscribed to anything.
    refine isSubscribed_after (hserves before) topic ?_ after
    have hline : joined.line c = ⟨some [], ⟨[], true⟩⟩ := line_connect _
    rw [(hserves before).indexed.isSubscribed_eq, hline]
    exact decide_eq_false List.not_mem_nil
  · have hreceiving : (now.inboxOf c).receiving = true := hdelivers.receiving.mpr hstop
    obtain ⟨hall, hend⟩ := receive_none hreceiving
    exact ⟨hall, hend, fun limit hclosed => of_receive_closed hreceiving hclosed⟩
  · intro before' after' c' joined' hown
    exact own_decides_joined (hserves before) (hserves before') hown

-- A client that takes nothing is removed with the second frame; the other gets both.
example :
    let h := (empty 1).after
      [.connect, .connect, .subscribe ⟨0⟩ "session:a", .subscribe ⟨1⟩ "session:a"]
    let tell : Op := .broadcast ⟨"a"⟩ (.deleted ⟨"x"⟩)
    let ops := [tell, .receive ⟨1⟩ none, tell, .receive ⟨1⟩ none]
    (h.after ops).isConnected ⟨0⟩ = false ∧ (h.taken ⟨1⟩ ops).length = 2 := by decide

end Hub
end Notebook
