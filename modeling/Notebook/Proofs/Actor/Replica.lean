import Notebook.Proofs.Actor.Site
import Notebook.Proofs.Shapes

/-!
# Replicas of a session

A subscriber may keep the cells by their names and update them from the notices that it
receives.  `Notice.replicate` is what each notice does to such a replica: a cell is
replaced, erased or given a status, and all other notices mean nothing.

* `Announces.replicate`: the notice of an edit turns the replica before into the replica
  after.
* `Change.replicates`, `ended_replicates`: whatever an actor does, the replica follows.
* `replica_converges`: after every step, a replica that has received all frames since any
  earlier moment shows exactly the cells of the session.
-/

set_option autoImplicit false

namespace Notebook

/-- The cells of a session by their names, as a subscriber knows them. -/
abbrev Replica := CellId → Option Cell

/-- What a notice does to a replica. -/
def Notice.replicate : Notice → Replica → Replica
  | .updated cell, m => fun id => if cell.id = id then some cell else m id
  | .deleted cell, m => fun id => if cell = id then none else m id
  | .statusChanged cell status, m => fun id =>
    if cell = id then (m id).map (·.withStatus status) else m id
  | _, m => m

/-- What the frame of an effect does to the replica of a subscriber of the session.
Effects that make no frame do nothing. -/
def Effect.replicate (session : SessionId) : Effect → Replica → Replica
  | .notice n, m =>
    match Frame.encode session n with
    | some _ => n.replicate m
    | none => m
  | _, m => m

/-- The replica after the frames of several effects. -/
def Replica.after (session : SessionId) (m : Replica) (effects : List Effect) : Replica :=
  effects.foldl (fun m e => e.replicate session m) m

namespace Replica

variable {session : SessionId} {m : Replica}

theorem after_append (effects effects' : List Effect) :
    m.after session (effects ++ effects') =
      (m.after session effects).after session effects' :=
  List.foldl_append

/-- Effects aside leave a replica as it is. -/
theorem replicate_of_isAside (session : SessionId) (e : Effect) (h : e.isAside = true)
    (m : Replica) :
    e.replicate session m = m := by
  cases e with
  | notice n =>
      simp only [Effect.replicate]
      split
      · cases n <;> first | rfl | cases h
      · rfl
  | _ => rfl

theorem after_of_isAside (effects : List Effect) (h : ∀ e ∈ effects, e.isAside = true) :
    m.after session effects = m := by
  induction effects generalizing m with
  | nil => rfl
  | cons e rest ih =>
      have hfirst := replicate_of_isAside session e (h e List.mem_cons_self) m
      change after session (e.replicate session m) rest = m
      rw [hfirst]
      exact ih fun e he => h e (List.mem_cons_of_mem _ he)

/-- Every notice reaches the replica. -/
theorem replicate_notice (n : Notice) :
    (Effect.notice n).replicate session m = n.replicate m := by
  simp only [Effect.replicate, Frame.encode_eq]

end Replica

/-! ## Edits -/

/-- The notice of an edit turns the replica before into the replica after, and names stay
distinct. -/
theorem Session.Announces.replicate {s s' : Session} {n : Notice} (h : s.Announces s' n)
    (hs : s.Distinct) : n.replicate s.cell? = s'.cell? ∧ s'.Distinct := by
  cases h with
  | created index cell _ h hidle =>
      refine ⟨?_, hs.insert h⟩
      funext id
      exact (Session.cell?_insert h id).symm
  | replaced cell old _ h hstatus =>
      refine ⟨?_, hs.replace h⟩
      funext id
      exact (Session.cell?_replace h id).symm
  | removed id old _ h =>
      refine ⟨?_, hs.remove h⟩
      funext id'
      exact (Session.cell?_remove hs h id').symm
  | rewritten id cell source h =>
      have hid : ∀ c : Cell, c.id = id → (c.withSource source).id = id := fun c hc =>
        (Cell.id_withSource source c).trans hc
      refine ⟨?_, hs.update id _ hid⟩
      funext id'
      rw [Session.cell?_update s id id' _ hid, h, Option.map_some]
      simp only [Notice.replicate, Cell.id_withSource, Session.id_of_cell? h]
  | restated cell h =>
      refine ⟨?_, hs⟩
      funext id
      simp only [Notice.replicate]
      split
      · next hid => rw [← hid, h]
      · rfl
  | status id status h =>
      have hid : ∀ c : Cell, c.id = id → (c.withStatus status).id = id := fun c hc =>
        (Cell.id_withStatus status c).trans hc
      refine ⟨?_, hs.update id _ hid⟩
      funext id'
      rw [Session.cell?_update s id id' _ hid]
      simp only [Notice.replicate]
      split
      · next heq => rw [heq]
      · rfl

/-! ## Rooms -/

namespace Room

/-- A replica that had these cells before shows the cells of the room now. -/
structure Replicates (session : SessionId) (m : Replica) (r : Room) : Prop where
  name : r.actor.session.id = session
  distinct : r.actor.session.Distinct
  shows : m.after session r.effects = r.actor.session.cell?

variable {session : SessionId} {m : Replica} {r r' : Room}

theorem Quiet.replicates (h : Quiet r r') (hr : Replicates session m r) :
    Replicates session m r' := by
  obtain ⟨new, hnew, haside⟩ := h.effects
  refine ⟨by rw [h.session, hr.name], by rw [h.session]; exact hr.distinct, ?_⟩
  rw [hnew, Replica.after_append, Replica.after_of_isAside new haside, h.session, hr.shows]

theorem Announced.replicates (h : Announced r r') (hr : Replicates session m r) :
    Replicates session m r' := by
  obtain ⟨session', n, r₁, hannounces, hquiet, rfl⟩ := h
  obtain ⟨new, hnew, haside⟩ := hquiet.effects
  obtain ⟨hview, hdistinct⟩ := hannounces.replicate hr.distinct
  have hsession : r₁.actor.session = session' := hquiet.session
  refine ⟨?_, ?_, ?_⟩
  · change r₁.actor.session.id = session
    rw [hsession, hannounces.id, hr.name]
  · change r₁.actor.session.Distinct
    rw [hsession]
    exact hdistinct
  · change m.after session (r₁.effects ++ [.notice n]) = r₁.actor.session.cell?
    rw [hnew, Replica.after_append, Replica.after_append,
      Replica.after_of_isAside new haside, hsession]
    change (Effect.notice n).replicate session (m.after session r.effects) = _
    rw [Replica.replicate_notice n, hr.shows, hview]

theorem setStatus_replicates (hr : Replicates session m r) (cell : CellId)
    (status : CellStatus) : Replicates session m (r.setStatus cell status) := by
  rcases setStatus_announced r cell status with h | heq
  · exact h.replicates hr
  · rw [heq]
    exact hr

/-- Whatever an actor does, the replica follows. -/
theorem Change.replicates (h : Change r r') (hr : Replicates session m r) :
    Replicates session m r' := by
  rcases h.cases with hquiet | hedited | ⟨cell, failure, rfl⟩ |
    ⟨cell, program, args, purpose, pid, _, rfl⟩
  · exact hquiet.replicates hr
  · exact hedited.announced.replicates hr
  · exact (Quiet.tell _ _ rfl).replicates (setStatus_replicates hr cell .idle)
  · refine setStatus_replicates ?_ cell .running
    refine ⟨hr.name, hr.distinct, ?_⟩
    change m.after session (r.effects ++ [_]) = _
    rw [Replica.after_append, hr.shows]
    rfl

theorem ended_replicates (hr : Replicates session m r) (cell : CellId) :
    Replicates session m (r.ended cell) := by
  refine setStatus_replicates ?_ cell .idle
  exact ⟨hr.name, hr.distinct, hr.shows⟩

end Room

/-! ## Runs -/

namespace Site

/-- A replica that had these cells at the start of the log shows the cells now. -/
structure Replicates (session : SessionId) (m : Replica) (s : Site) : Prop where
  name : s.actor.session.id = session
  distinct : s.actor.session.Distinct
  shows : m.after session s.log = s.actor.session.cell?

variable {session : SessionId} {m : Replica} {s : Site}

/-- What the actor has done in its room reaches the replica with the log. -/
theorem Replicates.leave (h : Replicates session m s) (mailbox : List Letter) (alive : Bool)
    {r : Room} (hr : r.Replicates session s.actor.session.cell?) :
    Replicates session m (s.leave mailbox alive r) := by
  refine ⟨hr.name, hr.distinct, ?_⟩
  change m.after session (s.log ++ r.effects) = _
  rw [Replica.after_append, h.shows, hr.shows]
  rfl

theorem Replicates.room (h : Replicates session m s) :
    s.room.Replicates session s.actor.session.cell? :=
  ⟨h.name, h.distinct, rfl⟩

/-- A site with the same session and log. -/
theorem Replicates.of_same {s' : Site} (h : Replicates session m s)
    (hsession : s'.actor.session = s.actor.session) (hlog : s'.log = s.log) :
    Replicates session m s' := by
  refine ⟨by rw [hsession, h.name], by rw [hsession]; exact h.distinct, ?_⟩
  rw [hsession, hlog, h.shows]

theorem Replicates.post (h : Replicates session m s) (letter : Letter) :
    Replicates session m (s.post letter) := by
  unfold Site.post
  split
  · exact h.of_same rfl rfl
  · exact h

/-- Whatever happens, the replica follows. -/
theorem Turn.replicates {s' : Site} (hturn : s.Turn s') (h : Replicates session m s) :
    Replicates session m s' := by
  cases hturn with
  | idle => exact h
  | posted letter _ => exact h.post letter
  | worked letter rest _ _ =>
      exact h.leave _ _ (Room.receive_preserves
        (fun _ _ hchange hr => hchange.replicates hr)
        (fun _ cell hr => Room.ended_replicates hr cell) h.room letter)
  | heard _ =>
      exact h.leave _ _ ((Room.hearNext_changes s.room).preserves
        (fun _ _ hchange hr => hchange.replicates hr) h.room)
  | concluded index inquiry letter _ _ =>
      refine Replicates.post ?_ letter
      exact h.of_same rfl rfl
  | happened incident => exact h.of_same (session_withLedger s _) rfl
  | planned hindrance launches incidents => exact h.of_same (session_withLedger s _) rfl
  | processed generation what _ => exact h.of_same rfl rfl
  | printed generation w stream text _ _ =>
      refine ⟨h.name, h.distinct, ?_⟩
      change m.after session (s.log ++ [.notice (.output w.cell stream text)]) = _
      rw [Replica.after_append, h.shows]
      exact Replica.replicate_of_isAside session (.notice (.output w.cell stream text)) rfl _
  | passed generation w info _ _ =>
      refine Replicates.post ?_ _
      exact h.of_same rfl rfl
  | elsewhere key pid _ => exact h.of_same rfl rfl
  | disturbed disk => exact h.of_same rfl rfl
  | respawned spawner => exact h.of_same rfl rfl

theorem run_replicates (h : Replicates session m s) (events : List Event) :
    Replicates session m (s.run events) :=
  run_invariant (P := Replicates session m) (fun _ _ hturn h => hturn.replicates h) events h

/-! ## Convergence -/

/-- After every step, a subscriber that has started from the cells of the session at some
earlier moment, and has applied the frames that were broadcast since, has exactly the
cells that the session has now. -/
theorem replica_converges (facilities : Facilities) (spawner : Spawner) (disk : Disk)
    (supervisor : Supervisor) (session : Session) (hdistinct : session.Distinct)
    (earlier later : List Event) :
    let joined := (opened facilities spawner disk supervisor session).run earlier
    let now := joined.run later
    ∃ news, now.log = joined.log ++ news ∧ ∀ id c,
      Replica.after session.id joined.actor.session.cell? news id = some c ↔
        c ∈ now.actor.session.cells ∧ c.id = id := by
  intro joined now
  have hopened : Replicates session.id session.cell?
      (opened facilities spawner disk supervisor session) := ⟨rfl, hdistinct, rfl⟩
  have hjoined : Replicates session.id session.cell? joined := run_replicates hopened earlier
  have hnow : Replicates session.id session.cell? now := run_replicates hjoined later
  obtain ⟨news, hnews⟩ := prefix_log_run later joined
  refine ⟨news, hnews.symm, fun id c => ?_⟩
  rw [← hnow.distinct.cell?_eq_some_iff, ← hnow.shows]
  change _ ↔ Replica.after session.id session.cell? (joined.run later).log id = some c
  rw [← hnews, Replica.after_append, hjoined.shows]

/-- A subscriber that has joined after an edit follows a run and a deletion. -/
theorem replica_converges_after_edit :
    let session : Session := ⟨⟨"s"⟩, "/book", .typescript,
      [.title ⟨⟨"t"⟩, "T"⟩, .code ⟨⟨"x"⟩, "1", "a.ts", .typescript, .idle⟩]⟩
    let earlier : List Event := [.send ⟨0⟩ (.edit ⟨"x"⟩ "2"), .work]
    let later : List Event :=
      [.send ⟨0⟩ (.execute ⟨"x"⟩), .work, .send ⟨0⟩ (.delete ⟨"t"⟩), .work]
    let joined := (opened ⟨.standard, .standard, []⟩ (fun _ _ => .ok 7) .empty (.new 16)
      session).run earlier
    let now := joined.run later
    session.Distinct ∧ ∃ news, now.log = joined.log ++ news ∧ ∀ id c,
      Replica.after session.id joined.actor.session.cell? news id = some c ↔
        c ∈ now.actor.session.cells ∧ c.id = id := by
  exact ⟨by decide, replica_converges _ _ _ _ _ (by decide) _ _⟩

end Site
end Notebook
