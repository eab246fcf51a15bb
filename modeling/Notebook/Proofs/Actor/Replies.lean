import Notebook.Proofs.Actor.Announcements
import Notebook.Proofs.Actor.Site

/-!
# Replies

Some of what an actor does replies to a client: it answers a navigation request, or it
tells how far an installation is.  Replies are few, and everything else that an actor does
leaves them alone: `PlainChanges.unreplied`.  So it is enough to look at the handlers that
reply in order to count replies.

What is replied to are letters.  `Site.handled` lists the letters that an actor handles in
a run, and `Site.Aside` says what happens without a letter.

* `Site.step_cases`: the actor handles the letter that is due, or something else happens.
-/

set_option autoImplicit false

namespace Notebook

/-- What is found in a list is found in its first item or in the others. -/
theorem filterMap_cons_eq_append {α β : Type} (f : α → Option β) (a : α) (l : List α) :
    (a :: l).filterMap f = (f a).toList ++ l.filterMap f := by
  rw [List.filterMap_eq_flatMap_toList, List.filterMap_eq_flatMap_toList, List.flatMap_cons]

theorem filterMap_singleton_eq_toList {α β : Type} (f : α → Option β) (a : α) :
    [a].filterMap f = (f a).toList := by
  rw [filterMap_cons_eq_append, List.filterMap_nil, List.append_nil]

/-- Whether a letter brings the result of something that the actor has begun. -/
def Letter.isResult : Letter → Bool
  | .exited .. => true
  | .answered .. => true
  | _ => false

/-- The kind of request that an answer is for. -/
def Answer.navigation : Answer → Navigation
  | .quickinfo _ => .quickinfo
  | .definition _ => .definition
  | .completions _ => .completions

@[simp]
theorem Answer.navigation_nothing (n : Navigation) : (nothing n).navigation = n := by
  cases n <;> rfl

@[simp]
theorem Answer.navigation_ofResponse (n : Navigation) (sourceDir : String) (frame : Json) :
    (ofResponse n sourceDir frame).navigation = n := by
  unfold ofResponse
  split
  · split
    · cases n <;> rfl
    · exact navigation_nothing n
  · exact navigation_nothing n

/-- The fate of an inquiry is an answer to its request. -/
theorem Actor.answer_of_conclude {a : Actor} {i : Inquiry} {letter : Letter}
    (h : a.conclude i = some letter) :
    ∃ answer, letter = .answered i.request answer ∧ answer.navigation = i.navigation := by
  unfold conclude at h
  simp only at h
  split at h
  · exact ⟨_, (Option.some.inj h).symm, Answer.navigation_nothing _⟩
  · split at h
    · cases h
    · exact ⟨_, (Option.some.inj h).symm, Answer.navigation_nothing _⟩
    · exact ⟨_, (Option.some.inj h).symm, Answer.navigation_nothing _⟩
    · exact ⟨_, (Option.some.inj h).symm, Answer.navigation_ofResponse _ _ _⟩

/-- An edit is not announced by a reply. -/
theorem Session.Announces.isReply {s s' : Session} {n : Notice} (h : s.Announces s' n) :
    n.isReply = false := by
  cases h <;> rfl

namespace Room

/-! ## Work without replies -/

/-- The room `r'` follows `r` with the same inquiries and without a reply. -/
structure Unreplied (r r' : Room) : Prop where
  inquiries : r'.actor.inquiries = r.actor.inquiries
  effects : ∃ new, r'.effects = r.effects ++ new ∧ ∀ e ∈ new, e.isReply = false

variable {r r' r'' : Room}

namespace Unreplied

theorem refl (r : Room) : Unreplied r r :=
  ⟨rfl, [], (List.append_nil _).symm, nofun⟩

theorem trans (h : Unreplied r r') (h' : Unreplied r' r'') : Unreplied r r'' := by
  obtain ⟨new, hnew, hnone⟩ := h.effects
  obtain ⟨new', hnew', hnone'⟩ := h'.effects
  refine ⟨h'.inquiries.trans h.inquiries, new ++ new',
    by rw [hnew', hnew, List.append_assoc], fun e he => ?_⟩
  rcases List.mem_append.mp he with he | he
  · exact hnone e he
  · exact hnone' e he

theorem tell (r : Room) (e : Effect) (he : e.isReply = false) : Unreplied r (r.tell e) := by
  refine ⟨rfl, [e], rfl, fun e' he' => ?_⟩
  rw [List.mem_singleton.mp he']
  exact he

theorem setStatus (r : Room) (cell : CellId) (status : CellStatus) :
    Unreplied r (r.setStatus cell status) := by
  rcases setStatus_cases r cell status with ⟨_, heq⟩ | ⟨_, heq⟩
  · rw [heq]
    have hsession : Unreplied r (r.withSession (r.actor.session.update cell
        (·.withStatus status))) := ⟨rfl, [], (List.append_nil _).symm, nofun⟩
    exact hsession.trans (tell _ _ rfl)
  · rw [heq]
    exact refl r

/-- What looks at replies only does not see the difference. -/
theorem filterMap_eq {α : Type} {f : Effect → Option α} (h : Unreplied r r')
    (hf : ∀ e, e.isReply = false → f e = none) :
    r'.effects.filterMap f = r.effects.filterMap f := by
  obtain ⟨new, hnew, hnone⟩ := h.effects
  rw [hnew, List.filterMap_append, List.filterMap_eq_nil_iff.mpr fun e he => hf e (hnone e he),
    List.append_nil]

end Unreplied

theorem Silent.unreplied (h : Silent r r') : Unreplied r r' := by
  obtain ⟨new, hnew, hnone⟩ := h.effects
  exact ⟨h.inquiries, new, hnew, fun e he => (hnone e he).2⟩

theorem PlainChange.unreplied (h : PlainChange r r') : Unreplied r r' := by
  rcases h.cases with hsilent | ⟨session, n, r₁, hannounces, _, hsilent, rfl⟩ |
    ⟨cell, failure, _, rfl⟩ | ⟨cell, program, args, pid, _, _, rfl⟩
  · exact hsilent.unreplied
  · have hedited : Unreplied r r₁ := ⟨hsilent.inquiries, hsilent.unreplied.effects⟩
    exact hedited.trans (.tell _ _ hannounces.isReply)
  · exact (Unreplied.setStatus r cell .idle).trans (.tell _ _ rfl)
  · let r₁ : Room := { r with
      supervisor := r.supervisor.started (r.actor.key cell) pid
      actor.runs := r.actor.runs.set cell pid }
    have hstarted : Unreplied r r₁ := ⟨rfl, [], (List.append_nil _).symm, nofun⟩
    exact (hstarted.trans (.tell _ _ rfl)).trans (.setStatus _ cell .running)

theorem PlainChanges.unreplied (h : PlainChanges r r') : Unreplied r r' := by
  induction h with
  | refl => exact .refl r
  | tail _ hlast ih => exact ih.trans hlast.unreplied

/-- The room after a process was started, before anybody is told. -/
def begun (r : Room) (cell : CellId) (program : String) (args : List String)
    (purpose : Purpose) (pid : Nat) : Room :=
  { r with
    supervisor := r.supervisor.started (r.actor.key cell) pid
    actor.runs := r.actor.runs.set cell pid }.tell
    (.spawned r.supervisor.nextGeneration pid (r.runRequest cell program args) purpose)

/-- An exit that is taken note of is not a reply yet. -/
theorem ended_unreplied (r : Room) (cell : CellId) : Unreplied r (r.ended cell) := by
  have hruns : Unreplied r { r with actor.runs := r.actor.runs.erase cell } :=
    ⟨rfl, [], (List.append_nil _).symm, nofun⟩
  exact hruns.trans (.setStatus _ cell .idle)

end Room

/-! ## Letters of a run -/

namespace Site

/-- The letter that the actor handles if this happens. -/
def due (s : Site) : Event → Option Letter
  | .work => if s.alive then s.mailbox.head? else none
  | _ => none

/-- The letters that the actor handles in a run, in order. -/
def handled (s : Site) : List Event → List Letter
  | [] => []
  | e :: rest => (s.due e).toList ++ (s.step e).handled rest

theorem handled_append (s : Site) (events events' : List Event) :
    s.handled (events ++ events') = s.handled events ++ (s.run events).handled events' := by
  induction events generalizing s with
  | nil => rfl
  | cons e rest ih =>
      change (s.due e).toList ++ (s.step e).handled (rest ++ events') = _
      rw [ih, ← List.append_assoc]
      rfl

/-- Whether the actor handles a letter, if there is one. -/
def Event.isWork : Event → Bool
  | .work => true
  | _ => false

/-- What happens to a site without a letter being handled. -/
inductive Aside (s : Site) : Site → Prop where
  | posted (letter : Letter) (hletter : letter.isResult = false) : Aside s (s.post letter)
  | heard (halive : s.alive = true) : Aside s (s.leave s.mailbox true s.room.hearNext)
  | concluded (index : Nat) (inquiry : Inquiry) (letter : Letter)
    (hinquiry : s.actor.inquiries[index]? = some inquiry)
    (hletter : s.actor.conclude inquiry = some letter) :
    Aside s ({ s with actor.inquiries := s.actor.inquiries.eraseIdx index }.post letter)
  | passed (generation : Nat) (w : Watcher) (info : ExitInfo)
    (hw : s.watchers.find? generation = some w)
    (hevent : s.supervisor.nextEvent? generation = some (.exited info)) :
    Aside s ({ s with
      supervisor := s.supervisor.step generation .take
      watchers := s.watchers.erase generation }.post
      (.exited w.cell w.pid w.purpose info))
  | elsewhere {s' : Site} (hmailbox : s'.mailbox = s.mailbox)
    (hinquiries : s'.actor.inquiries = s.actor.inquiries)
    (hruns : s'.actor.runs = s.actor.runs) (hwatchers : s'.watchers = s.watchers)
    (hlog : ∃ told, s'.log = s.log ++ told ∧
      ∀ e ∈ told, e.isAside = true ∧ e.isReply = false) : Aside s s'

/-- The actor handles the letter that is due, or something else happens. -/
theorem step_cases (s : Site) (e : Event) :
    (∃ letter rest, s.due e = some letter ∧ s.alive = true ∧ s.mailbox = letter :: rest ∧
      s.step e = s.leave rest (s.room.receive letter).1 (s.room.receive letter).2) ∨
    s.due e = none ∧ s.Aside (s.step e) := by
  have hsame : ∀ {s' : Site}, s'.mailbox = s.mailbox →
      s'.actor.inquiries = s.actor.inquiries → s'.actor.runs = s.actor.runs →
      s'.watchers = s.watchers → s'.log = s.log → s.Aside s' :=
    fun hmailbox hinquiries hruns hwatchers hlog =>
      .elsewhere hmailbox hinquiries hruns hwatchers ⟨[], by rw [hlog, List.append_nil], nofun⟩
  have hledger : ∀ b, s.Aside (s.withLedger b) := by
    intro b
    refine hsame rfl ?_ (runs_withLedger s b) rfl rfl
    simp only [withLedger, Actor.withLedger]
    split <;> rfl
  cases e with
  | work =>
      cases halive : s.alive with
      | false =>
          refine Or.inr ⟨by simp [due, halive], ?_⟩
          simp only [step, work, halive]
          exact hsame rfl rfl rfl rfl rfl
      | true =>
          cases hmailbox : s.mailbox with
          | nil =>
              refine Or.inr ⟨by simp [due, hmailbox], ?_⟩
              simp only [step, work, halive, hmailbox]
              exact hsame rfl rfl rfl rfl rfl
          | cons letter rest =>
              refine Or.inl ⟨letter, rest, by simp [due, halive, hmailbox], rfl, rfl, ?_⟩
              simp only [step, work, halive, hmailbox]
  | send client intent => exact Or.inr ⟨rfl, .posted _ rfl⟩
  | ask call => exact Or.inr ⟨rfl, .posted _ rfl⟩
  | close call => exact Or.inr ⟨rfl, .posted _ rfl⟩
  | hear =>
      refine Or.inr ⟨rfl, ?_⟩
      simp only [step, hear]
      split
      · next halive => exact .heard halive
      · exact hsame rfl rfl rfl rfl rfl
  | conclude index =>
      refine Or.inr ⟨rfl, ?_⟩
      simp only [step, conclude]
      split
      · exact hsame rfl rfl rfl rfl rfl
      · next inquiry hinquiry =>
          split
          · exact hsame rfl rfl rfl rfl rfl
          · next letter hletter => exact .concluded index inquiry letter hinquiry hletter
  | happens incident => exact Or.inr ⟨rfl, hledger _⟩
  | plan hindrance launches incidents => exact Or.inr ⟨rfl, hledger _⟩
  | process generation what =>
      refine Or.inr ⟨rfl, ?_⟩
      simp only [step]
      split
      · exact hsame rfl rfl rfl rfl rfl
      · exact hsame rfl rfl rfl rfl rfl
  | pass generation =>
      refine Or.inr ⟨rfl, ?_⟩
      simp only [step, pass]
      split
      · next w stream text hw hevent =>
          refine .elsewhere rfl rfl rfl rfl ⟨_, rfl, fun e he => ?_⟩
          rw [List.mem_singleton.mp he]
          exact ⟨rfl, rfl⟩
      · next w info hw hevent => exact .passed generation w info hw hevent
      · exact hsame rfl rfl rfl rfl rfl
  | elsewhere key pid =>
      refine Or.inr ⟨rfl, ?_⟩
      simp only [step]
      split
      · exact hsame rfl rfl rfl rfl rfl
      · exact hsame rfl rfl rfl rfl rfl
  | disturb disk => exact Or.inr ⟨rfl, hsame rfl rfl rfl rfl rfl⟩
  | respawn spawner => exact Or.inr ⟨rfl, hsame rfl rfl rfl rfl rfl⟩

/-- Without a letter being handled there is no reply. -/
theorem Aside.log {s s' : Site} (h : s.Aside s') :
    ∃ told, s'.log = s.log ++ told ∧ ∀ e ∈ told, e.isReply = false := by
  cases h with
  | posted letter _ => exact ⟨[], by rw [log_post, List.append_nil], nofun⟩
  | heard _ =>
      obtain ⟨new, hnew, hnone⟩ := (Room.hearNext_plain s.room).unreplied.effects
      exact ⟨new, congrArg (s.log ++ ·) hnew, hnone⟩
  | concluded index inquiry letter _ _ => exact ⟨[], by rw [log_post, List.append_nil], nofun⟩
  | passed generation w info _ _ => exact ⟨[], by rw [log_post, List.append_nil], nofun⟩
  | elsewhere _ _ _ _ hlog =>
      obtain ⟨told, hlog, haside⟩ := hlog
      exact ⟨told, hlog, fun e he => (haside e he).2⟩

end Site
end Notebook
