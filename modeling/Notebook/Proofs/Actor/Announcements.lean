import Notebook.Proofs.Actor.Changes
import Notebook.Proofs.Session.Statuses

/-!
# What changes announce

Most of what an actor does leaves its cells, the processes and the runs alone: such a
change is `Quiet`.  Every other change does two things that belong together.  It edits the
session and tells the subscribers how, which `Session.Announces` states for each kind of
edit; or it starts a process.

A plain change that is quiet is even `Silent`: it does not reply to a client either.

* `PlainChange.cases`: a plain change is silent, announces an edit, or has to do with a
  process.
* `Change.cases`: a change is quiet, announces an edit, or has to do with a process.
-/

set_option autoImplicit false

namespace Notebook

/-- An effect that is neither about the cells as they are stored nor about a new
process. -/
def Effect.isAside : Effect → Bool
  | .notice n => n.isAside
  | .spawned .. => false
  | _ => true

/-- An effect that replies to a client, or begins what is going to be replied to. -/
def Effect.isReply : Effect → Bool
  | .notice n => n.isReply
  | .spawned _ _ _ (.install _) => true
  | _ => false

/-- Whether a notice gives a cell a status. -/
def Notice.isStatus : Notice → Bool
  | .statusChanged .. => true
  | _ => false

/-- The notice tells how the session `s` becomes `s'`.  A cell that is new is idle, and one
that is replaced keeps its status. -/
inductive Session.Announces (s : Session) : Session → Notice → Prop where
  | created (index : Nat) (cell : Cell) (s' : Session) (h : s.insert index cell = .ok s')
    (hidle : cell.withStatus .idle = cell) : Announces s s' (.updated cell)
  | replaced (cell old : Cell) (s' : Session) (h : s.replace cell = .ok (old, s'))
    (hstatus : cell.status? = old.status?) : Announces s s' (.updated cell)
  | removed (id : CellId) (old : Cell) (s' : Session) (h : s.remove id = .ok (old, s')) :
    Announces s s' (.deleted id)
  | rewritten (id : CellId) (cell : Cell) (source : String) (h : s.cell? id = some cell) :
    Announces s (s.update id (·.withSource source)) (.updated (cell.withSource source))
  | restated (cell : Cell) (h : s.cell? cell.id = some cell) : Announces s s (.updated cell)
  | status (id : CellId) (status : CellStatus) (h : (s.cell? id).any (·.hasStatus) = true) :
    Announces s (s.update id (·.withStatus status)) (.statusChanged id status)

/-- An edit keeps the name of the session. -/
theorem Session.Announces.id {s s' : Session} {n : Notice} (h : s.Announces s' n) :
    s'.id = s.id := by
  cases h with
  | created index cell _ h hidle =>
      obtain ⟨_, _, _, _, _, rfl⟩ := Session.of_insert_eq_ok h
      rfl
  | replaced cell old _ h hstatus =>
      obtain ⟨_, _, _, _, rfl⟩ := Session.of_replace_eq_ok h
      rfl
  | removed id old _ h =>
      obtain ⟨_, _, _, rfl⟩ := Session.of_remove_eq_ok h
      rfl
  | rewritten id cell source h => rfl
  | restated cell h => rfl
  | status id status h => rfl

/-- An edit that is not about a status lets no cell run. -/
theorem Session.Announces.calm {s s' : Session} {n : Notice} (h : s.Announces s' n)
    (hn : n.isStatus = false) : Session.Calm s s' := by
  cases h with
  | created index cell _ h hidle => exact Session.calm_insert h hidle
  | replaced cell old _ h hstatus => exact Session.calm_replace h hstatus
  | removed id old _ h => exact Session.calm_remove h
  | rewritten id cell source h => exact Session.calm_update s id source
  | restated cell h => exact Session.Calm.refl s
  | status id status h => cases hn

namespace Room

/-- The room `r'` follows `r` with the same cells, processes and runs. -/
structure Quiet (r r' : Room) : Prop where
  facilities : r'.facilities = r.facilities
  supervisor : r'.supervisor = r.supervisor
  session : r'.actor.session = r.actor.session
  runs : r'.actor.runs = r.actor.runs
  effects : ∃ new, r'.effects = r.effects ++ new ∧ ∀ e ∈ new, e.isAside = true

namespace Quiet

theorem refl (r : Room) : Quiet r r :=
  ⟨rfl, rfl, rfl, rfl, [], (List.append_nil _).symm, nofun⟩

theorem tell (r : Room) (e : Effect) (he : e.isAside = true) : Quiet r (r.tell e) := by
  refine ⟨rfl, rfl, rfl, rfl, [e], rfl, fun e' he' => ?_⟩
  rw [List.mem_singleton.mp he']
  exact he

end Quiet

/-- The room `r'` follows `r` with the same cells, processes, runs and inquiries, and no
client is replied to. -/
structure Silent (r r' : Room) : Prop where
  facilities : r'.facilities = r.facilities
  supervisor : r'.supervisor = r.supervisor
  session : r'.actor.session = r.actor.session
  runs : r'.actor.runs = r.actor.runs
  inquiries : r'.actor.inquiries = r.actor.inquiries
  effects : ∃ new, r'.effects = r.effects ++ new ∧
    ∀ e ∈ new, e.isAside = true ∧ e.isReply = false

namespace Silent

theorem quiet {r r' : Room} (h : Silent r r') : Quiet r r' := by
  obtain ⟨new, hnew, haside⟩ := h.effects
  exact ⟨h.facilities, h.supervisor, h.session, h.runs, new, hnew, fun e he => (haside e he).1⟩

theorem refl (r : Room) : Silent r r :=
  ⟨rfl, rfl, rfl, rfl, rfl, [], (List.append_nil _).symm, nofun⟩

theorem trans {a b c : Room} (h : Silent a b) (h' : Silent b c) : Silent a c := by
  obtain ⟨new, hnew, haside⟩ := h.effects
  obtain ⟨new', hnew', haside'⟩ := h'.effects
  refine ⟨h'.facilities.trans h.facilities, h'.supervisor.trans h.supervisor,
    h'.session.trans h.session, h'.runs.trans h.runs, h'.inquiries.trans h.inquiries,
    new ++ new', by rw [hnew', hnew, List.append_assoc], fun e he => ?_⟩
  rcases List.mem_append.mp he with he | he
  · exact haside e he
  · exact haside' e he

/-- What changes only what is not looked at. -/
theorem of_same {r r' : Room} (hfacilities : r'.facilities = r.facilities)
    (hsupervisor : r'.supervisor = r.supervisor)
    (hsession : r'.actor.session = r.actor.session) (hruns : r'.actor.runs = r.actor.runs)
    (hinquiries : r'.actor.inquiries = r.actor.inquiries)
    (heffects : r'.effects = r.effects) : Silent r r' :=
  ⟨hfacilities, hsupervisor, hsession, hruns, hinquiries, [],
    by rw [heffects, List.append_nil], nofun⟩

theorem tell (r : Room) (e : Effect) (haside : e.isAside = true) (hreply : e.isReply = false) :
    Silent r (r.tell e) := by
  refine ⟨rfl, rfl, rfl, rfl, rfl, [e], rfl, fun e' he' => ?_⟩
  rw [List.mem_singleton.mp he']
  exact ⟨haside, hreply⟩

theorem persist (r : Room) (deeds : List FileDeed) : Silent r (r.persist deeds) := by
  have hdisk : Silent r { r with disk := (FileDeed.runAll r.disk deeds).2 } :=
    of_same rfl rfl rfl rfl rfl rfl
  exact hdisk.trans (tell _ _ rfl rfl)

theorem stop (r : Room) (cell : CellId) : Silent r (r.stop cell) := by
  unfold Room.stop
  split
  · exact tell r _ rfl rfl
  · exact refl r

theorem call {α : Type} (r : Room) (c : Call α) : Silent r (r.call c).2 := by
  unfold Room.call
  split
  · exact refl r
  · exact of_same rfl rfl rfl rfl rfl rfl

theorem inform (r : Room) (c : Call Unit) : Silent r (r.inform c) := by
  have hcall := call r c
  unfold Room.inform
  split
  · exact refl r
  · split
    · next r₁ heq =>
        rw [heq] at hcall
        exact hcall
    · next r₁ heq =>
        rw [heq] at hcall
        exact hcall.trans (of_same rfl rfl rfl rfl rfl rfl)

theorem follow (r : Room) (cell : Cell) (c : CodeCell → Call Unit) :
    Silent r (r.follow cell c) := by
  cases cell with
  | code code => exact inform r (c code)
  | title _ => exact refl r
  | markdown _ => exact refl r
  | manifest _ => exact refl r

theorem discard (r : Room) (cell : Cell) (session : Session) :
    Silent r (r.discard cell session) := by
  cases cell with
  | code code => exact (inform r _).trans (persist _ _)
  | title _ => exact refl r
  | markdown _ => exact refl r
  | manifest _ => exact refl r

theorem ensureBridge (r : Room) : Silent r r.ensureBridge := by
  unfold Room.ensureBridge
  split
  · exact refl r
  · exact of_same rfl rfl rfl rfl rfl rfl

theorem freshen (r : Room) : Silent r r.freshen.2 := by
  have hcall := call r (Bridge.adopt r.actor.session.sources)
  unfold Room.freshen
  split
  · split
    · next r₁ heq =>
        rw [heq] at hcall
        exact hcall.trans (of_same rfl rfl rfl rfl rfl rfl)
    · next e r₁ heq =>
        rw [heq] at hcall
        exact hcall
  · exact refl r

theorem dismissBridge (r : Room) : Silent r r.dismissBridge := by
  have hcall := call r Bridge.shutdown
  unfold Room.dismissBridge
  simp only
  split
  · exact hcall.trans (of_same rfl rfl rfl rfl rfl rfl)
  · exact hcall

theorem teardown (r : Room) : Silent r r.teardown := by
  have hsignals : ∀ (pids : List Nat) (r₁ : Room), Silent r r₁ →
      Silent r (pids.foldl (fun r pid => r.tell (.signalled pid)) r₁) := by
    intro pids
    induction pids with
    | nil => exact fun r₁ h => h
    | cons pid rest ih => exact fun r₁ h => ih _ (h.trans (tell r₁ _ rfl rfl))
  exact hsignals _ _ (dismissBridge r)

theorem announceService (r : Room) : Silent r r.announceService :=
  (tell r _ rfl rfl).trans (tell _ _ rfl rfl)

theorem publish (r : Room) (filename : String) (notice : CellId → Notice)
    (haside : ∀ cell, (notice cell).isAside = true)
    (hreply : ∀ cell, (notice cell).isReply = false) :
    Silent r (r.publish filename notice) := by
  unfold Room.publish
  split
  · next code _ => exact tell r _ (haside code.id) (hreply code.id)
  · exact refl r

theorem hearNext (r : Room) : Silent r r.hearNext := by
  unfold Room.hearNext
  split
  · exact refl r
  · next b _ =>
      split
      · exact refl r
      · next report rest _ =>
          have hreported : Silent r (r.reported b report rest) :=
            of_same rfl rfl rfl rfl rfl rfl
          unfold reported at hreported
          unfold hear
          simp only
          split
          · exact hreported
          · exact hreported.trans (publish _ _ _ (fun _ => rfl) fun _ => rfl)
          · exact hreported.trans (publish _ _ _ (fun _ => rfl) fun _ => rfl)
          · exact hreported.trans (tell _ _ rfl rfl)

end Silent

/-- A status is set and announced, or there is no cell that can have one. -/
theorem setStatus_cases (r : Room) (cell : CellId) (status : CellStatus) :
    ((r.actor.session.cell? cell).any (·.hasStatus) = true ∧
      r.setStatus cell status =
        (r.withSession (r.actor.session.update cell (·.withStatus status))).broadcast
          (.statusChanged cell status)) ∨
    ((r.actor.session.cell? cell).any (·.hasStatus) = false ∧
      r.setStatus cell status = r) := by
  unfold setStatus
  split
  · next h => exact Or.inl ⟨h, rfl⟩
  · next h => exact Or.inr ⟨by simpa using h, rfl⟩

theorem setStatus_same (r : Room) (cell : CellId) (status : CellStatus) :
    (r.setStatus cell status).supervisor = r.supervisor ∧
      (r.setStatus cell status).actor.session.id = r.actor.session.id := by
  rcases setStatus_cases r cell status with ⟨_, heq⟩ | ⟨_, heq⟩
  · rw [heq]
    exact ⟨rfl, rfl⟩
  · rw [heq]
    exact ⟨rfl, rfl⟩

/-- The room `r'` follows `r` with an edit of the session that it has announced. -/
def Announced (r r' : Room) : Prop :=
  ∃ session notice r₁, r.actor.session.Announces session notice ∧
    Quiet (r.withSession session) r₁ ∧ r' = r₁.broadcast notice

/-- The same for an edit that is not about a status. -/
def Edited (r r' : Room) : Prop :=
  ∃ session notice r₁, r.actor.session.Announces session notice ∧ notice.isStatus = false ∧
    Silent (r.withSession session) r₁ ∧ r' = r₁.broadcast notice

theorem Edited.announced {r r' : Room} (h : Edited r r') : Announced r r' := by
  obtain ⟨session, notice, r₁, hannounces, _, hsilent, heq⟩ := h
  exact ⟨session, notice, r₁, hannounces, hsilent.quiet, heq⟩

/-- A cell is taken in as it is when it is idle. -/
theorem idle_of_accept {s : Session} {given cell : Cell} (h : accept s given = .ok cell) :
    cell.withStatus .idle = cell := by
  unfold accept at h
  cases given with
  | title c =>
      obtain rfl := Except.ok.inj h
      rfl
  | markdown c =>
      obtain rfl := Except.ok.inj h
      rfl
  | code c =>
      simp only [Cell.withStatus] at h
      split at h
      · cases h
      · obtain rfl := Except.ok.inj h
        rfl
  | manifest c =>
      simp only [Cell.withStatus] at h
      split at h
      · cases h
      · obtain rfl := Except.ok.inj h
        rfl

theorem setStatus_announced (r : Room) (cell : CellId) (status : CellStatus) :
    Announced r (r.setStatus cell status) ∨ r.setStatus cell status = r := by
  rcases setStatus_cases r cell status with ⟨h, heq⟩ | ⟨_, heq⟩
  · exact Or.inl ⟨_, _, _, .status cell status h, Quiet.refl _, heq⟩
  · exact Or.inr heq

namespace Edited

variable {r : Room}

theorem created {given cell : Cell} {index : Nat} {session : Session}
    (haccept : accept r.actor.session given = .ok cell)
    (hinsert : r.actor.session.insert index cell = .ok session) :
    Edited r (r.created cell session) :=
  ⟨session, _, _, .created index cell session hinsert (idle_of_accept haccept), rfl,
    (Silent.persist _ _).trans (Silent.follow _ _ _), rfl⟩

theorem restated {cell : Cell} (h : r.actor.session.cell? cell.id = some cell) :
    Edited r (r.broadcast (.updated cell)) :=
  ⟨_, _, r, .restated cell h, rfl, Silent.refl _, rfl⟩

theorem renamed {code : CodeCell} {filename : String} {old : Cell} {session : Session}
    (hfind : r.actor.session.cell? code.id = some (.code code))
    (hreplace : r.actor.session.replace (.code { code with filename }) = .ok (old, session)) :
    Edited r (r.renamed code filename session) := by
  obtain ⟨_, before, after, hsplit, _⟩ := Session.of_replace_eq_ok hreplace
  obtain rfl : Cell.code code = old := Option.some.inj (hfind.symm.trans hsplit.cell?_eq)
  exact ⟨session, _, _, .replaced _ _ session hreplace rfl, rfl,
    ((Silent.persist _ _).trans (Silent.persist _ _)).trans (Silent.inform _ _), rfl⟩

theorem deleted {id : CellId} {cell : Cell} {session : Session}
    (hremove : r.actor.session.remove id = .ok (cell, session)) :
    Edited r (r.deleted id cell session) :=
  ⟨session, _, _, .removed id cell session hremove, rfl,
    (Silent.stop _ _).trans (Silent.discard _ _ _), rfl⟩

theorem edited {id : CellId} {cell : Cell} (hfind : r.actor.session.cell? id = some cell)
    (source : String) : Edited r (r.edited id cell source) :=
  ⟨_, _, _, .rewritten id cell source hfind, rfl,
    (Silent.persist _ _).trans (Silent.follow _ _ _), rfl⟩

theorem refreshed {manifest : ManifestCell}
    (hfind : r.actor.session.cell? manifest.id = some (.manifest manifest)) (source : String) :
    Edited r (r.refreshed manifest source) :=
  ⟨_, _, _, .rewritten _ (.manifest manifest) source hfind, rfl, Silent.refl _, rfl⟩

end Edited

/-- A plain change is silent, announces an edit, or has to do with a process for a cell whose
key is free. -/
theorem PlainChange.cases {r r' : Room} (h : PlainChange r r') :
    Silent r r' ∨ Edited r r' ∨
    (∃ cell failure, r.supervisor.isRunning (r.actor.key cell) = false ∧
      r' = r.unspawned cell failure) ∨
    ∃ cell program args pid,
      r.supervisor.isRunning (r.actor.key cell) = false ∧
      (r.actor.session.cell? cell).isSome = true ∧
      r' = r.spawned cell (r.runRequest cell program args) .cell pid := by
  cases h with
  | refused client refusal => exact Or.inl (Silent.tell r _ rfl rfl)
  | counted event => exact Or.inl (Silent.tell r _ rfl rfl)
  | signalled pid => exact Or.inl (Silent.tell r _ rfl rfl)
  | shown call => exact Or.inl (Silent.tell r _ rfl rfl)
  | closed call => exact Or.inl (Silent.tell r _ rfl rfl)
  | noticed notice haside hreply => exact Or.inl (Silent.tell r _ haside hreply)
  | wrote deeds => exact Or.inl (Silent.persist r deeds)
  | created given cell index session haccept hinsert =>
      exact Or.inr (Or.inl (.created haccept hinsert))
  | restated cell hfind => exact Or.inr (Or.inl (.restated hfind))
  | renamed code given old session hcheck hfind hne hreplace =>
      exact Or.inr (Or.inl (.renamed hfind hreplace))
  | deleted id cell session hremove => exact Or.inr (Or.inl (.deleted hremove))
  | edited id cell source hfind => exact Or.inr (Or.inl (.edited hfind source))
  | refreshed manifest source hfind hread => exact Or.inr (Or.inl (.refreshed hfind source))
  | spawned cell program args pid hfree hspawn hknown =>
      exact Or.inr (Or.inr (Or.inr ⟨cell, program, args, pid, hfree, hknown, rfl⟩))
  | unspawned cell failure hfree =>
      exact Or.inr (Or.inr (Or.inl ⟨cell, failure, hfree, rfl⟩))
  | ensured => exact Or.inl (Silent.ensureBridge r)
  | freshened => exact Or.inl (Silent.freshen r)
  | called c hc => exact Or.inl (Silent.call r c)
  | dismissed => exact Or.inl (Silent.dismissBridge r)
  | settled hnone => exact Or.inl (Silent.of_same rfl rfl rfl rfl rfl rfl)
  | reported b report rest hbridge hreports =>
      exact Or.inl (Silent.of_same rfl rfl rfl rfl rfl rfl)

/-- A change is quiet, announces an edit, or has to do with a process for a cell whose key
is free. -/
theorem Change.cases_free {r r' : Room} (h : Change r r') :
    Quiet r r' ∨ Edited r r' ∨
    (∃ cell failure, r.supervisor.isRunning (r.actor.key cell) = false ∧
      r' = r.unspawned cell failure) ∨
    ∃ cell program args purpose pid,
      r.supervisor.isRunning (r.actor.key cell) = false ∧
      (r.actor.session.cell? cell).isSome = true ∧
      r' = r.spawned cell (r.runRequest cell program args) purpose pid := by
  cases h with
  | noticed notice haside => exact Or.inl (Quiet.tell r _ haside)
  | spawned cell program args purpose pid hfree hspawn hknown =>
      exact Or.inr (Or.inr (Or.inr ⟨cell, program, args, purpose, pid, hfree, hknown, rfl⟩))
  | awaited inquiry =>
      exact Or.inl ⟨rfl, rfl, rfl, rfl, [], (List.append_nil _).symm, nofun⟩
  | plain h =>
      rcases h.cases with hsilent | hedited | hunspawned |
        ⟨cell, program, args, pid, hfree, hknown, heq⟩
      · exact Or.inl hsilent.quiet
      · exact Or.inr (Or.inl hedited)
      · exact Or.inr (Or.inr (Or.inl hunspawned))
      · exact Or.inr (Or.inr (Or.inr ⟨cell, program, args, .cell, pid, hfree, hknown, heq⟩))

/-- A change is quiet, announces an edit, or has to do with a process. -/
theorem Change.cases {r r' : Room} (h : Change r r') :
    Quiet r r' ∨ Edited r r' ∨
    (∃ cell failure, r' = r.unspawned cell failure) ∨
    ∃ cell program args purpose pid,
      r.supervisor.isRunning (r.actor.key cell) = false ∧
      r' = r.spawned cell (r.runRequest cell program args) purpose pid := by
  rcases h.cases_free with hquiet | hedited | ⟨cell, failure, _, heq⟩ |
    ⟨cell, program, args, purpose, pid, hfree, _, heq⟩
  · exact Or.inl hquiet
  · exact Or.inr (Or.inl hedited)
  · exact Or.inr (Or.inr (Or.inl ⟨cell, failure, heq⟩))
  · exact Or.inr (Or.inr (Or.inr ⟨cell, program, args, purpose, pid, hfree, heq⟩))

end Room
end Notebook
