import Notebook.Proofs.Service.Pauses
import Notebook.Proofs.Table
import Mathlib.Data.List.Induction

/-!
# Beats

The calls of a bridge and the service run side by side.  A `Beat` is the smallest thing
that happens to the instances or to those who wait for their answers: a command takes its
number, somebody begins to wait, a request is queued, an incident comes.  What the
instances and the waiting list have become is read off the beats with `replay`.

`Story p h` says that the beats `h` can come one after the other, and how far the call in
progress has got by then.  Commands are issued one at a time, and incidents may come
between any two beats.

* `mem_waiting_replay_iff`, `mem_expired_replay_iff`: somebody waits for a ticket from its
  registration to the first beat that ends this, and has waited too long if this is what ends it.
* `Story.of_prefix`: every beginning of a story is a story.
-/

set_option autoImplicit false

namespace Notebook

/-- The smallest thing that happens to the instances of a bridge and to those who wait for
their answers. -/
inductive Beat where
  | launched (generation : Nat)
  /-- A command takes the next number of its instance. -/
  | numbered (generation : Nat)
  /-- Somebody waits for the answer from now on. -/
  | registered (ticket : Ticket)
  | queued (generation : Nat) (request : Request)
  /-- A request that could not be queued is not waited for. -/
  | withdrawn (ticket : Ticket)
  /-- The input of an instance is closed. -/
  | shut (generation : Nat)
  /-- Those who wait for an instance that has been shut are turned away. -/
  | cleared (generation : Nat)
  | incident (incident : Incident)

namespace Beat

def launch? : Beat → Option Nat
  | .launched g => some g
  | _ => none

/-- A beat that launches nothing does not launch this instance. -/
theorem ne_launched {x : Beat} (hx : x.launch? = none) (g : Nat) : x ≠ .launched g := by
  rintro rfl
  cases hx

def ticket? : Beat → Option Ticket
  | .registered t => some t
  | _ => none

def incident? : Beat → Option Incident
  | .incident i => some i
  | _ => none

/-- The response to a ticket, if this is the reading of one. -/
def response? (t : Ticket) : Beat → Option Json
  | .incident (.frame g frame) =>
    match Incoming.ofJson? frame with
    | some (.response n response) => if (⟨g, n⟩ : Ticket) = t then some response else none
    | _ => none
  | _ => none

/-- Whoever waits for the ticket is told that there is no answer. -/
def Dismisses (t : Ticket) : Beat → Prop
  | .withdrawn t' => t = t'
  | .cleared g => t.generation = g
  | .incident (.forgets g) => t.generation = g
  | .incident (.expires t') => t = t'
  | _ => False

/-- Whoever waits for the ticket does not wait any longer. -/
def Ends (t : Ticket) (x : Beat) : Prop :=
  (x.response? t).isSome = true ∨ x.Dismisses t

/-- What happens to an instance, unless it is launched. -/
def change (g : Nat) : Beat → Instance → Instance
  | .numbered g', i => if g' = g then { i with nextNumber := i.nextNumber + 1 } else i
  | .shut g', i => if g' = g then { i with writable := false } else i
  | .incident (.dies g'), i => if g' = g then { i with alive := false } else i
  | .incident (.breaks g'), i => if g' = g then { i with writable := false } else i
  | _, i => i

end Beat

namespace Bridge

/-! ## Replaying -/

/-- The output of the instance is being read. -/
def reads (b : Bridge) (g : Nat) : Bool :=
  (b.instances.find? g).any (·.alive)

/-- The input of the instance takes requests. -/
def accepts (b : Bridge) (g : Nat) : Bool :=
  (b.instances.find? g).any (·.writable)

/-- The number of the next command to an instance. -/
def nextNumber (b : Bridge) (g : Nat) : Nat :=
  ((b.instances.find? g).map (·.nextNumber)).getD 1

/-- The bridge after a beat. -/
def beat (b : Bridge) : Beat → Bridge
  | .launched g =>
    { b with
      instances := b.instances.set g ⟨1, true, true⟩
      trace := .launched g :: b.trace }
  | .numbered g => b.changeInstance g fun i => { i with nextNumber := i.nextNumber + 1 }
  | .registered t => { b with waiting := t :: b.waiting }
  | .queued g r => { b with trace := .queued g r :: b.trace }
  | .withdrawn t => { b with waiting := b.waiting.filter (· ≠ t) }
  | .shut g =>
    { b.changeInstance g fun i => { i with writable := false } with
      trace := if b.accepts g then .released g :: b.trace else b.trace }
  | .cleared g => b.forget g
  | .incident i => b.apply i

/-- What a bridge has become after these beats. -/
def replay (h : List Beat) : Bridge :=
  h.foldl beat (new default "")

@[simp]
theorem replay_snoc (h : List Beat) (x : Beat) : replay (h ++ [x]) = (replay h).beat x := by
  simp only [replay, List.foldl_append, List.foldl_cons, List.foldl_nil]

theorem find?_changeInstance (b : Bridge) (g' g : Nat) (f : Instance → Instance) :
    (b.changeInstance g' f).instances.find? g =
      (b.instances.find? g).map fun i => if g' = g then f i else i := by
  unfold changeInstance
  split
  · next i hi =>
      rw [Table.find?_set]
      split
      · next hg => rw [← hg, hi, Option.map_some]
      · rw [Option.map_id']
  · next hnone =>
      split
      · next hg => rw [← hg, hnone, Option.map_none]
      · rw [Option.map_id']

/-- What happens to an instance does not concern those who wait. -/
theorem waiting_changeInstance (b : Bridge) (g : Nat) (f : Instance → Instance) :
    (b.changeInstance g f).waiting = b.waiting ∧
      (b.changeInstance g f).answered = b.answered ∧
      (b.changeInstance g f).expired = b.expired := by
  unfold changeInstance
  split <;> exact ⟨rfl, rfl, rfl⟩

theorem instances_takeFrame (b : Bridge) (g : Nat) (frame : Json) :
    (b.takeFrame g frame).instances = b.instances ∧
      (b.takeFrame g frame).expired = b.expired := by
  unfold takeFrame
  split
  · exact ⟨rfl, rfl⟩
  · exact ⟨rfl, rfl⟩
  · dsimp only
    split <;> exact ⟨rfl, rfl⟩

/-- What a beat does to an instance that it does not launch. -/
theorem find?_beat (b : Bridge) {x : Beat} {g : Nat} (hx : x ≠ .launched g) :
    (b.beat x).instances.find? g = (b.instances.find? g).map (x.change g) := by
  have hid : b.instances.find? g = (b.instances.find? g).map fun i => i :=
    Option.map_id'.symm
  cases x with
  | launched g' =>
      have hne : g' ≠ g := fun h => hx (h ▸ rfl)
      exact (Table.find?_set _ _ _ _).trans ((if_neg hne).trans hid)
  | numbered g' => exact find?_changeInstance b g' g _
  | shut g' => exact find?_changeInstance b g' g _
  | incident i =>
      cases i with
      | dies g' => exact find?_changeInstance b g' g _
      | breaks g' => exact find?_changeInstance b g' g _
      | frame g' frame =>
          exact (congrArg (·.find? g) (instances_takeFrame b g' frame).1).trans hid
      | _ => exact hid
  | _ => exact hid

theorem find?_beat_launched (b : Bridge) (g : Nat) :
    (b.beat (.launched g)).instances.find? g = some ⟨1, true, true⟩ :=
  (Table.find?_set _ _ _ _).trans (if_pos rfl)

/-- Taking a frame answers the ticket whose response it is, if somebody waits for it. -/
theorem takeFrame_response (b : Bridge) (g : Nat) (frame : Json) (t : Ticket) :
    (t ∈ (b.takeFrame g frame).waiting ↔
        t ∈ b.waiting ∧ Beat.response? t (.incident (.frame g frame)) = none) ∧
      (b.takeFrame g frame).answered.find? t =
        if t ∈ b.waiting then
          (Beat.response? t (.incident (.frame g frame))).or (b.answered.find? t)
        else b.answered.find? t := by
  unfold takeFrame Beat.response?
  split
  · next hframe => simp [hframe]
  · next hframe => simp [hframe]
  · next n response hframe =>
      by_cases ht : (⟨g, n⟩ : Ticket) = t
      · subst ht
        by_cases hmem : (⟨g, n⟩ : Ticket) ∈ b.waiting
        · simp [hframe, hmem, Table.find?_set]
        · simp [hframe, hmem]
      · have ht' : t ≠ ⟨g, n⟩ := fun h => ht h.symm
        by_cases hmem : (⟨g, n⟩ : Ticket) ∈ b.waiting
        · simp [hframe, hmem, Table.find?_set, ht, ht']
        · simp [hframe, hmem, ht]

/-- Who waits after a beat. -/
theorem mem_waiting_beat (b : Bridge) (x : Beat) (t : Ticket) :
    t ∈ (b.beat x).waiting ↔ x = .registered t ∨ t ∈ b.waiting ∧ ¬x.Ends t := by
  cases x with
  | launched g => simp [beat, Beat.Ends, Beat.response?, Beat.Dismisses]
  | numbered g =>
      simp [beat, (waiting_changeInstance _ _ _).1, Beat.Ends, Beat.response?, Beat.Dismisses]
  | registered t' => simp [beat, Beat.Ends, Beat.response?, Beat.Dismisses, eq_comm]
  | queued g r => simp [beat, Beat.Ends, Beat.response?, Beat.Dismisses]
  | withdrawn t' => simp [beat, Beat.Ends, Beat.response?, Beat.Dismisses]
  | shut g =>
      simp [beat, (waiting_changeInstance _ _ _).1, Beat.Ends, Beat.response?, Beat.Dismisses]
  | cleared g => simp [beat, forget, Beat.Ends, Beat.response?, Beat.Dismisses]
  | incident i =>
      cases i with
      | frame g frame =>
          have h := (takeFrame_response b g frame t).1
          simp only [beat, apply, h]
          simp [Beat.Ends, Beat.Dismisses]
      | dies g =>
          simp [beat, apply, (waiting_changeInstance _ _ _).1, Beat.Ends, Beat.response?,
            Beat.Dismisses]
      | forgets g => simp [beat, apply, forget, Beat.Ends, Beat.response?, Beat.Dismisses]
      | reports g reason => simp [beat, apply, Beat.Ends, Beat.response?, Beat.Dismisses]
      | breaks g =>
          simp [beat, apply, (waiting_changeInstance _ _ _).1, Beat.Ends, Beat.response?,
            Beat.Dismisses]
      | expires t' => simp [beat, apply, expire, Beat.Ends, Beat.response?, Beat.Dismisses]

/-- How a ticket is answered after a beat. -/
theorem find?_answered_beat (b : Bridge) (x : Beat) (t : Ticket) :
    (b.beat x).answered.find? t =
      if t ∈ b.waiting then (x.response? t).or (b.answered.find? t)
      else b.answered.find? t := by
  have hsame : (b.beat x).answered = b.answered → x.response? t = none →
      (b.beat x).answered.find? t =
        if t ∈ b.waiting then (x.response? t).or (b.answered.find? t)
        else b.answered.find? t := by
    intro hanswered hresponse
    rw [hanswered, hresponse, Option.none_or, ite_self]
  cases x with
  | numbered g => exact hsame (waiting_changeInstance _ _ _).2.1 rfl
  | shut g => exact hsame (waiting_changeInstance _ _ _).2.1 rfl
  | incident i =>
      cases i with
      | frame g frame => exact (takeFrame_response b g frame t).2
      | dies g => exact hsame (waiting_changeInstance _ _ _).2.1 rfl
      | breaks g => exact hsame (waiting_changeInstance _ _ _).2.1 rfl
      | _ => exact hsame rfl rfl
  | _ => exact hsame rfl rfl

/-- Who has waited too long after a beat. -/
theorem mem_expired_beat (b : Bridge) (x : Beat) (t : Ticket) :
    t ∈ (b.beat x).expired ↔ t ∈ b.expired ∨ x = .incident (.expires t) ∧ t ∈ b.waiting := by
  have hsame : (b.beat x).expired = b.expired → x ≠ .incident (.expires t) →
      (t ∈ (b.beat x).expired ↔
        t ∈ b.expired ∨ x = .incident (.expires t) ∧ t ∈ b.waiting) := by
    intro hexpired hx
    rw [hexpired]
    exact ⟨Or.inl, fun h => h.resolve_right fun h => hx h.1⟩
  cases x with
  | numbered g => exact hsame (waiting_changeInstance _ _ _).2.2 (by simp)
  | shut g => exact hsame (waiting_changeInstance _ _ _).2.2 (by simp)
  | incident i =>
      cases i with
      | frame g frame => exact hsame (instances_takeFrame b g frame).2 (by simp)
      | dies g => exact hsame (waiting_changeInstance _ _ _).2.2 (by simp)
      | breaks g => exact hsame (waiting_changeInstance _ _ _).2.2 (by simp)
      | expires t' =>
          by_cases ht : t' = t
          · subst ht
            by_cases hmem : t' ∈ b.waiting <;> simp [beat, apply, expire, hmem]
          · have ht' : t ≠ t' := fun h => ht h.symm
            by_cases hmem : t' ∈ b.waiting <;> simp [beat, apply, expire, hmem, ht, ht']
      | _ => exact hsame rfl (by simp)
  | _ => exact hsame rfl (by simp)

/-! ## Waiting and answers -/

/-- By these beats a ticket has been registered, and nothing has ended the waiting. -/
def Waits (h : List Beat) (t : Ticket) : Prop :=
  ∃ past later, h = past ++ .registered t :: later ∧ ∀ x ∈ later, ¬x.Ends t

/-- Among these beats, the first that ends the waiting for the ticket is the reading of
this response. -/
def AnsweredWith (h : List Beat) (t : Ticket) (response : Json) : Prop :=
  ∃ past during frame later,
    h = past ++ .registered t :: during ++ .incident (.frame t.generation frame) :: later ∧
      (∀ x ∈ during, ¬x.Ends t) ∧
      Incoming.ofJson? frame = some (.response t.number response)

/-- Among these beats, the first that ends the waiting for the ticket is that it has taken too
long. -/
def TimedOut (h : List Beat) (t : Ticket) : Prop :=
  ∃ past during later,
    h = past ++ .registered t :: during ++ .incident (.expires t) :: later ∧
      ∀ x ∈ during, ¬x.Ends t

/-- Exactly those wait who have been registered since nothing has ended this. -/
theorem mem_waiting_replay_iff (h : List Beat) (t : Ticket) :
    t ∈ (replay h).waiting ↔ Waits h t := by
  induction h using List.reverseRecOn with
  | nil => simp [replay, new, Waits]
  | append_singleton h x ih =>
      rw [replay_snoc, mem_waiting_beat, ih]
      constructor
      · rintro (rfl | ⟨⟨past, later, rfl, hlater⟩, hx⟩)
        · exact ⟨h, [], rfl, nofun⟩
        · refine ⟨past, later ++ [x], by simp, fun y hy => ?_⟩
          rcases List.mem_append.mp hy with hy | hy
          · exact hlater y hy
          · exact List.mem_singleton.mp hy ▸ hx
      · rintro ⟨past, later, heq, hlater⟩
        rcases List.eq_nil_or_concat later with rfl | ⟨later, y, rfl⟩
        · obtain ⟨rfl, hx⟩ := List.append_inj' heq rfl
          exact Or.inl (List.singleton_inj.mp hx)
        · have heq' : h ++ [x] = (past ++ .registered t :: later) ++ [y] := by
            rw [heq]
            simp
          obtain ⟨rfl, hxy⟩ := List.append_inj' heq' rfl
          obtain rfl := List.singleton_inj.mp hxy
          exact Or.inr ⟨⟨past, later, rfl, fun y hy => hlater y (by simp [hy])⟩,
            hlater x (by simp)⟩

/-- Exactly those have waited too long whose waiting has ended so. -/
theorem mem_expired_replay_iff (h : List Beat) (t : Ticket) :
    t ∈ (replay h).expired ↔ TimedOut h t := by
  induction h using List.reverseRecOn with
  | nil => simp [replay, new, TimedOut]
  | append_singleton h x ih =>
      rw [replay_snoc, mem_expired_beat, ih, mem_waiting_replay_iff]
      constructor
      · rintro (⟨past, during, later, rfl, hduring⟩ | ⟨rfl, past, during, rfl, hduring⟩)
        · exact ⟨past, during, later ++ [x], by simp, hduring⟩
        · exact ⟨past, during, [], rfl, hduring⟩
      · rintro ⟨past, during, later, heq, hduring⟩
        rcases List.eq_nil_or_concat later with rfl | ⟨later, y, rfl⟩
        · obtain ⟨rfl, hx⟩ := List.append_inj' heq rfl
          exact Or.inr ⟨List.singleton_inj.mp hx, past, during, rfl, hduring⟩
        · have heq' : h ++ [x] =
              (past ++ .registered t :: during ++ .incident (.expires t) :: later) ++ [y] := by
            rw [heq]
            simp
          obtain ⟨rfl, -⟩ := List.append_inj' heq' rfl
          exact Or.inl ⟨past, during, later, rfl, hduring⟩

/-- The tickets by which somebody has waited. -/
def tickets (h : List Beat) : List Ticket :=
  h.filterMap Beat.ticket?

@[simp]
theorem tickets_append (h h' : List Beat) : tickets (h ++ h') = tickets h ++ tickets h' :=
  List.filterMap_append

theorem mem_tickets_iff (h : List Beat) (t : Ticket) :
    t ∈ tickets h ↔ .registered t ∈ h := by
  unfold tickets
  rw [List.mem_filterMap]
  constructor
  · rintro ⟨x, hx, ht⟩
    cases x with
    | registered t' => exact Option.some.inj ht ▸ hx
    | _ => cases ht
  · exact fun hx => ⟨_, hx, rfl⟩

/-- Whoever waits has waited before or has begun to since. -/
theorem waits_append {h h' : List Beat} {t : Ticket} (hwaits : Waits (h ++ h') t) :
    Waits h t ∨ t ∈ tickets h' := by
  induction h' using List.reverseRecOn with
  | nil => exact Or.inl (by rwa [List.append_nil] at hwaits)
  | append_singleton h' x ih =>
      rw [← List.append_assoc, ← mem_waiting_replay_iff, replay_snoc, mem_waiting_beat,
        mem_waiting_replay_iff] at hwaits
      rw [tickets_append, List.mem_append]
      rcases hwaits with rfl | ⟨hold, _⟩
      · exact Or.inr (Or.inr ((mem_tickets_iff _ t).mpr List.mem_cons_self))
      · exact (ih hold).imp id Or.inl

/-! ## Stories -/

/-- How far the call in progress has got. -/
inductive Phase where
  /-- No command and no shutdown is in progress. -/
  | idle
  /-- A command has its number; somebody may wait for its answer. -/
  | ready (ticket : Ticket) (waits : Bool)
  /-- The output of the instance was still being read. -/
  | checked (ticket : Ticket) (waits : Bool)
  /-- The command cannot be queued. -/
  | failed (ticket : Ticket) (waits : Bool)
  /-- The input of the instance has been closed. -/
  | shutting (generation : Nat)

/-- The command that has its number and is neither queued nor failed. -/
def Phase.pending? : Phase → Option Ticket
  | .ready t _ => some t
  | .checked t _ => some t
  | _ => none

/-- The command that has just taken its number. -/
def Phase.fresh? : Phase → Option Ticket
  | .ready t false => some t
  | _ => none

/-- The beats `h` can come one after the other and lead to the phase.  Commands and
shutdowns are issued one at a time, and incidents come at any time. -/
inductive Story : Phase → List Beat → Prop where
  | begin : Story .idle []
  | incident {p : Phase} {h : List Beat} (hs : Story p h) (i : Incident) :
    Story p (h ++ [.incident i])
  | launch {h : List Beat} (hs : Story .idle h) (g : Nat) (hnew : .launched g ∉ h) :
    Story .idle (h ++ [.launched g])
  | number {h : List Beat} (hs : Story .idle h) (g : Nat) :
    Story (.ready ⟨g, (replay h).nextNumber g⟩ false) (h ++ [.numbered g])
  | register {h : List Beat} {t : Ticket} (hs : Story (.ready t false) h)
    (hknown : (replay h).instances.contains t.generation = true) :
    Story (.ready t true) (h ++ [.registered t])
  | check {h : List Beat} {t : Ticket} {waits : Bool} (hs : Story (.ready t waits) h)
    (hreads : (replay h).reads t.generation = true) : Story (.checked t waits) h
  | queue {h : List Beat} {t : Ticket} {waits : Bool} (hs : Story (.checked t waits) h)
    (haccepts : (replay h).accepts t.generation = true) (c : Command) :
    Story .idle (h ++ [.queued t.generation ⟨t.number, c⟩])
  | failDead {h : List Beat} {t : Ticket} {waits : Bool} (hs : Story (.ready t waits) h)
    (hdead : (replay h).reads t.generation = false) : Story (.failed t waits) h
  | failShut {h : List Beat} {t : Ticket} {waits : Bool} (hs : Story (.checked t waits) h)
    (hshut : (replay h).accepts t.generation = false) : Story (.failed t waits) h
  | giveUp {h : List Beat} {t : Ticket} (hs : Story (.failed t false) h) : Story .idle h
  | withdraw {h : List Beat} {t : Ticket} (hs : Story (.failed t true) h) :
    Story .idle (h ++ [.withdrawn t])
  | shut {h : List Beat} (hs : Story .idle h) (g : Nat) :
    Story (.shutting g) (h ++ [.shut g])
  | clear {h : List Beat} {g : Nat} (hs : Story (.shutting g) h) :
    Story .idle (h ++ [.cleared g])

/-- Every beginning of a story is a story, perhaps in the middle of a call. -/
theorem Story.of_prefix {p : Phase} {h past : List Beat} (hs : Story p h)
    (hpast : past <+: h) : ∃ p', Story p' past := by
  -- The beats that come first are those of the story so far, or all of them.
  have hsnoc : ∀ {p' : Phase} {h : List Beat} {x : Beat}, Story p' (h ++ [x]) →
      (past <+: h → ∃ p', Story p' past) → past <+: h ++ [x] → ∃ p', Story p' past := by
    intro p' h x hs ih hpast
    rcases List.prefix_concat_iff.mp hpast with rfl | hpast
    · exact ⟨p', hs⟩
    · exact ih hpast
  induction hs with
  | begin => exact ⟨.idle, List.prefix_nil.mp hpast ▸ .begin⟩
  | incident hs i ih => exact hsnoc (hs.incident i) ih hpast
  | launch hs g hnew ih => exact hsnoc (hs.launch g hnew) ih hpast
  | number hs g ih => exact hsnoc (hs.number g) ih hpast
  | register hs hknown ih => exact hsnoc (hs.register hknown) ih hpast
  | check _ _ ih => exact ih hpast
  | queue hs haccepts c ih => exact hsnoc (hs.queue haccepts c) ih hpast
  | failDead _ _ ih => exact ih hpast
  | failShut _ _ ih => exact ih hpast
  | giveUp _ ih => exact ih hpast
  | withdraw hs ih => exact hsnoc hs.withdraw ih hpast
  | shut hs g ih => exact hsnoc (hs.shut g) ih hpast
  | clear hs ih => exact hsnoc hs.clear ih hpast

end Bridge
end Notebook
