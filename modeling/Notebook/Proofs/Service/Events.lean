import Notebook.Proofs.Service.Generations
import Notebook.Proofs.Service.Waiters
import Notebook.Proofs.Actor.Publishing

/-!
# Events and the instances they come from

Reports of all instances wait in one queue.  A reader may still report while a later instance is
attached already, a launch that fails uses up a generation, and a shutdown leaves the queue as it
is.  For all that, the events that a bridge returns come in blocks, one for each instance, in the
order of the launches, and the end of an instance is the last event of its block.

* `Queues`, `reports_playAll`: reports are taken in the order in which they come in.
* `launches_playAll`: generations are given out in the order of the launches.
* `pairwise_events`: events come in the order of the generations, and nothing follows an end.
* `events_in_blocks`: the above for every history, if each reader reports an end only once and
  at last.
-/

set_option autoImplicit false

namespace Notebook

/-! ## Lists in the order of their keys -/

/-- A list is what has a property and then what has it not, if nothing with it comes later. -/
theorem filter_append_filter_of_pairwise {α : Type} (p : α → Bool) {items : List α}
    (h : items.Pairwise fun x y => p y = true → p x = true) :
    items.filter p ++ (items.filter fun x => !p x) = items := by
  induction items with
  | nil => rfl
  | cons x xs ih =>
      obtain ⟨hx, hxs⟩ := List.pairwise_cons.mp h
      cases hp : p x with
      | true => simp [hp, ih hxs]
      | false =>
          have hnone : ∀ y ∈ xs, p y = false := fun y hy =>
            Bool.eq_false_iff.mpr fun hpy => Bool.eq_false_iff.mp hp (hx y hy hpy)
          have hempty : xs.filter p = [] := List.filter_eq_nil_iff.mpr (by simpa using hnone)
          have hall : (xs.filter fun y => !p y) = xs :=
            List.filter_eq_self.mpr (by simpa using hnone)
          simp [hp, hempty, hall]

/-- A list in the order of its keys is made of one block for each key. -/
theorem flatMap_filter_of_pairwise {α : Type} (key : α → Nat) {order : List Nat} {items : List α}
    (horder : order.Pairwise (· < ·)) (hitems : items.Pairwise fun x y => key x ≤ key y)
    (hmem : ∀ x ∈ items, key x ∈ order) :
    (order.flatMap fun k => items.filter fun x => key x == k) = items := by
  induction order generalizing items with
  | nil => exact (List.eq_nil_iff_forall_not_mem.mpr fun x hx => nomatch hmem x hx).symm
  | cons k rest ih =>
      obtain ⟨hleast, hrest⟩ := List.pairwise_cons.mp horder
      have hle : ∀ x ∈ items, k ≤ key x := fun x hx => by
        rcases List.mem_cons.mp (hmem x hx) with heq | hlater
        · exact heq.ge
        · exact (hleast _ hlater).le
      -- The block of the least key comes first, and the keys of the others are later ones.
      have hfirst := filter_append_filter_of_pairwise (key · == k)
        (hitems.imp_of_mem fun {x y} hx _ hxy hy => beq_iff_eq.mpr
          (le_antisymm (hxy.trans (beq_iff_eq.mp hy).le) (hle x hx)))
      have hlater := ih hrest (hitems.filter fun x => !(key x == k)) fun x hx => by
        obtain ⟨hx, hk⟩ := List.mem_filter.mp hx
        exact (List.mem_cons.mp (hmem x hx)).resolve_left (by simpa using hk)
      rw [List.flatMap_cons]
      conv_rhs => rw [← hfirst, ← hlater]
      refine congrArg (_ ++ ·) (List.flatMap_congr fun k' hk' => ?_)
      rw [List.filter_filter]
      refine List.filter_congr fun x _ => ?_
      have hne := (hleast k' hk').ne'
      by_cases hx : key x = k'
      · simp [hx, hne]
      · simp [hx]

/-! ## Readers -/

namespace Incident

/-- The instance whose reader does this. -/
def reader? : Incident → Option Nat
  | .frame g _ => some g
  | .dies g => some g
  | .forgets g => some g
  | .reports g _ => some g
  | .breaks _ => none
  | .expires _ => none

/-- The report that comes in. -/
def report? : Incident → Option Report
  | .frame g json =>
    match Incoming.ofJson? json with
    | some (.event name body) => some ⟨g, .event name body⟩
    | _ => none
  | .reports g reason => some ⟨g, .stopped reason⟩
  | _ => none

/-- Reports come from readers, and the end is not reported otherwise. -/
theorem of_report? {i : Incident} {r : Report} (h : i.report? = some r) :
    i.reader? = some r.generation ∧
      ∀ reason, r.kind = .stopped reason → i = .reports r.generation reason := by
  cases i with
  | frame g json =>
      simp only [report?] at h
      split at h
      · obtain rfl := Option.some.inj h
        exact ⟨rfl, nofun⟩
      · cases h
  | reports g reason =>
      obtain rfl := Option.some.inj h
      refine ⟨rfl, fun reason' hkind => ?_⟩
      rw [ReportKind.stopped.inj hkind]
  | _ => cases h

/-- What the reader of an instance does.  It takes frames until the output ends.  Then the
instance is dead, those who wait for it are turned away, and the end is reported. -/
def reading (g : Nat) (frames : List Json) (reason : StopReason) : List Incident :=
  frames.map (.frame g) ++ [.dies g, .forgets g, .reports g reason]

end Incident

namespace Bridge

open Call

variable {b b₁ b' : Bridge}

/-! ## Definitions -/

/-- The move neither makes plans nor ends anybody's waiting. -/
def Move.isUnplanned : Move → Bool
  | .collect .. => false
  | .plan .. => false
  | _ => true

/-- What happens between two calls. -/
def Move.incident? : Move → Option Incident
  | .happens i => some i
  | _ => none

/-- The generations of the instances that have been launched, in order. -/
def generations (b : Bridge) : List Nat :=
  (b.trace.filterMap Deed.launch?).reverse

/-- The report that a move takes, and what it means for the session. -/
def hearing (b : Bridge) : Move → Option (Report × Option BridgeEvent)
  | .hear =>
    match b.reports with
    | [] => none
    | report :: rest => some (report, (({ b with reports := rest } : Bridge).handle report).1)
  | _ => none

/-- The reports that are taken in a history, in order. -/
def hearings (b : Bridge) : List Move → List (Report × Option BridgeEvent)
  | [] => []
  | m :: rest => (b.hearing m).toList ++ (b.play m).hearings rest

/-- The events of a history, each with the instance that it comes from. -/
def events (b : Bridge) (moves : List Move) : List (Nat × BridgeEvent) :=
  (b.hearings moves).filterMap fun hearing => hearing.2.map (hearing.1.generation, ·)

/-- The events of one instance. -/
def eventsOf (b : Bridge) (moves : List Move) (g : Nat) : List BridgeEvent :=
  ((b.events moves).filter (·.1 == g)).map (·.2)

/-! ## The queue of reports -/

/-- From `b` to `b'` the next incidents of the plan have come, and the reports among them wait
behind the others. -/
def Queues (b b' : Bridge) : Prop :=
  ∃ passed, b.incidents.flatten = passed ++ b'.incidents.flatten ∧
    b'.reports = b.reports ++ passed.filterMap Incident.report?

theorem reports_changeInstance (b : Bridge) (g : Nat) (f : Instance → Instance) :
    (b.changeInstance g f).reports = b.reports := by
  unfold changeInstance
  split <;> rfl

theorem reports_apply (b : Bridge) (i : Incident) :
    (b.apply i).reports = b.reports ++ [i].filterMap Incident.report? := by
  cases i with
  | frame g json =>
      simp only [apply, takeFrame, Incident.report?, List.filterMap_cons, List.filterMap_nil]
      split
      · next hnone => simp [hnone]
      · next hevent => simp [hevent]
      · next hresponse => split <;> simp [hresponse]
  | dies g => simp [apply, reports_changeInstance, Incident.report?]
  | forgets g => simp [apply, forget, Incident.report?]
  | reports g reason => simp [apply, Incident.report?]
  | breaks g => simp [apply, reports_changeInstance, Incident.report?]
  | expires ticket => simp [apply, expire, Incident.report?]

theorem reports_foldl_apply (due : List Incident) (b : Bridge) :
    (due.foldl apply b).reports = b.reports ++ due.filterMap Incident.report? := by
  induction due generalizing b with
  | nil => exact (List.append_nil _).symm
  | cons i rest ih =>
      refine (ih (b.apply i)).trans ?_
      rw [reports_apply, List.append_assoc, ← List.filterMap_append, List.singleton_append]

namespace Queues

theorem refl (b : Bridge) : Queues b b :=
  ⟨[], rfl, (List.append_nil _).symm⟩

theorem trans (h : Queues b b₁) (h' : Queues b₁ b') : Queues b b' := by
  obtain ⟨passed, hincidents, hreports⟩ := h
  obtain ⟨passed', hincidents', hreports'⟩ := h'
  refine ⟨passed ++ passed', ?_, ?_⟩
  · rw [hincidents, hincidents', List.append_assoc]
  · rw [hreports', hreports, List.filterMap_append, List.append_assoc]

theorem of_same (h : Queues b b₁) (hincidents : b'.incidents = b₁.incidents)
    (hreports : b'.reports = b₁.reports) : Queues b b' :=
  h.trans ⟨[], congrArg List.flatten hincidents.symm, by simp [hreports]⟩

theorem changeInstance (h : Queues b b₁) (g : Nat) (f : Instance → Instance) :
    Queues b (b₁.changeInstance g f) :=
  h.of_same (incidents_changeInstance b₁ g f) (reports_changeInstance b₁ g f)

theorem elapse (b : Bridge) : Queues b b.elapse := by
  unfold Bridge.elapse
  split
  · exact .refl b
  · next due later hdue =>
      refine ⟨due, ?_, reports_foldl_apply due _⟩
      rw [hdue, incidents_foldl_apply]
      rfl

/-- What is not about the queue may change. -/
theorem keeps_set (b' : Bridge) (hincidents : b'.incidents = b₁.incidents)
    (hreports : b'.reports = b₁.reports) : Keeps (Queues b) (set b' : Call PUnit) b₁ :=
  .set fun h => h.of_same hincidents hreports

theorem keeps_pause : Keeps (Queues b) pause b₁ :=
  fun h => h.trans (elapse b₁)

theorem keeps_perform (deed : Deed) : Keeps (Queues b) (perform deed) b₁ :=
  keeps_set { b₁ with trace := deed :: b₁.trace } rfl rfl

theorem keeps_takeNumber (g : Nat) : Keeps (Queues b) (takeNumber g) b₁ :=
  .get_bind (.bind (.set fun h => h.changeInstance g _) fun _ _ => .pure _)

theorem keeps_send (g : Nat) (r : Request) : Keeps (Queues b) (send g r) b₁ := by
  refine .get_bind ?_
  split
  · refine keeps_pause.bind fun _ b₂ => .get_bind ?_
    split
    · exact keeps_perform _
    · exact .throw _
  · exact .throw _

theorem keeps_request (g : Nat) (c : Command) : Keeps (Queues b) (request g c) b₁ := by
  have hwaiting : ∀ (b₂ : Bridge) (f : List Ticket → List Ticket),
      Keeps (Queues b) (modify fun b => { b with waiting := f b.waiting }) b₂ :=
    fun b₂ f => keeps_set { b₂ with waiting := f b₂.waiting } rfl rfl
  refine (keeps_takeNumber g).bind fun n _ => keeps_pause.bind fun _ _ => ?_
  refine (hwaiting _ (⟨g, n⟩ :: ·)).bind fun _ _ => keeps_pause.bind fun _ _ => ?_
  refine (Keeps.tryCatch (keeps_send g _) fun e _ => ?_).bind fun _ _ => .pure _
  exact keeps_pause.bind fun _ _ => (hwaiting _ (List.filter (· ≠ ⟨g, n⟩))).bind fun _ _ => .throw e

theorem keeps_release (g : Nat) : Keeps (Queues b) (release g) b₁ := by
  have hrest : ∀ b₂, Keeps (Queues b) (do
      modify fun b => b.changeInstance g fun i => { i with writable := false }
      pause
      modify (·.forget g)) b₂ := fun b₂ =>
    .bind (.set fun h => h.changeInstance g _) fun _ _ => keeps_pause.bind fun _ b₃ =>
      keeps_set (b₃.forget g) rfl rfl
  refine keeps_pause.bind fun _ _ => .get_bind ?_
  split
  · exact (keeps_perform _).bind fun _ _ => hrest _
  · exact hrest _

/-- Calls take nothing from the queue. -/
theorem steps (b : Bridge) : Steps (Queues b) where
  pause _ := keeps_pause
  notify g _ _ := (keeps_takeNumber g).bind fun _ _ => keeps_pause.bind fun _ _ => keeps_send g _
  request g c _ := keeps_request g c
  release g _ := keeps_release g
  begun _ h := h.of_same rfl rfl
  launches _ _ h := h.of_same rfl rfl
  attached _ _ h := h.of_same rfl rfl
  set _ _ _ h := h.of_same rfl rfl

/-- The same for every call. -/
theorem kept (b : Bridge) : Kept Set.univ (Queues b) where
  toTalks := (steps b).talks _
  shutdown _ := (steps b).shutdown fun _ h => h.of_same rfl rfl
  remove _ _ h := h.of_same rfl rfl

end Queues

/-- A call leads to a bridge on which the next incidents have come. -/
theorem queues_play (b : Bridge) {m : Move} (hm : m.isCall = true) : Queues b (b.play m) :=
  (Queues.kept b).play (fun navigation f offset _ => (Queues.steps b).navigate navigation f offset)
    hm (Queues.refl b) fun _ _ => trivial

theorem passes_of_isCall (b : Bridge) {m : Move} (hm : m.isCall = true) :
    b.passes m = b.incidents.flatten.take
      (b.incidents.flatten.length - (b.play m).incidents.flatten.length) ∧ b.hearing m = none := by
  cases m <;> first | exact ⟨rfl, rfl⟩ | cases hm

/-- The reports that come in with a move wait behind the others, and one that is taken is the
first. -/
theorem reports_play (b : Bridge) (m : Move) :
    (b.hearing m).toList.map Prod.fst ++ (b.play m).reports =
      b.reports ++ (b.passes m).filterMap Incident.report? := by
  cases hm : m.isCall with
  | true =>
      obtain ⟨hpasses, hhearing⟩ := b.passes_of_isCall hm
      obtain ⟨passed, hincidents, hreports⟩ := b.queues_play hm
      rw [hpasses, hhearing, hreports, hincidents, List.length_append, Nat.add_sub_cancel,
        List.take_left]
      rfl
  | false =>
      cases m with
      | collect ticket navigation =>
          cases houtcome : b.outcome ticket <;>
            simp [hearing, play, collect, passes, houtcome, reports_apply]
      | hear =>
          cases hreports : b.reports with
          | nil => simp [hearing, play, passes, hreports]
          | cons report rest =>
              obtain ⟨findings, heq⟩ := handle_eq { b with reports := rest } report
              simp [hearing, play, passes, hreports, heq]
      | happens incident => exact reports_apply b incident
      | plan hindrance launches incidents => exact (List.append_nil _).symm
      | _ => cases hm

/-- Reports are taken in the order in which they come in. -/
theorem reports_playAll (moves : List Move) (b : Bridge) :
    (b.hearings moves).map Prod.fst ++ (b.playAll moves).reports =
      b.reports ++ (b.happened moves).filterMap Incident.report? := by
  induction moves generalizing b with
  | nil => exact (List.append_nil _).symm
  | cons m rest ih =>
      calc (b.hearings (m :: rest)).map Prod.fst ++ (b.playAll (m :: rest)).reports
          = (b.hearing m).toList.map Prod.fst ++
              (((b.play m).hearings rest).map Prod.fst ++ ((b.play m).playAll rest).reports) := by
            rw [hearings, List.map_append, List.append_assoc]
            rfl
        _ = ((b.hearing m).toList.map Prod.fst ++ (b.play m).reports) ++
              ((b.play m).happened rest).filterMap Incident.report? := by
            rw [ih, List.append_assoc]
        _ = b.reports ++ (b.happened (m :: rest)).filterMap Incident.report? := by
            rw [reports_play, happened, List.filterMap_append, List.append_assoc]

theorem passes_of_isUnplanned {m : Move} (hb : b.incidents.flatten = [])
    (hm : m.isUnplanned = true) :
    b.passes m = m.incident?.toList ∧ (b.play m).incidents.flatten = [] := by
  cases hcall : m.isCall with
  | true =>
      have hnone : m.incident? = none := by cases m <;> first | rfl | cases hcall
      obtain ⟨passed, hincidents, -⟩ := b.queues_play hcall
      rw [hb, eq_comm, List.append_eq_nil_iff] at hincidents
      rw [(b.passes_of_isCall hcall).1, hb, hnone]
      exact ⟨List.take_nil, hincidents.2⟩
  | false =>
      cases m with
      | hear =>
          have hplay : (b.play .hear).incidents = b.incidents := by
            cases hreports : b.reports with
            | nil => simp only [play, hreports]
            | cons report rest =>
                obtain ⟨findings, heq⟩ := handle_eq { b with reports := rest } report
                simp only [play, hreports, heq]
          rw [hplay]
          refine ⟨?_, hb⟩
          simp [passes, hplay, Move.incident?]
      | happens i => exact ⟨rfl, (congrArg List.flatten (incidents_apply b i)).trans hb⟩
      | collect ticket navigation => cases hm
      | plan hindrance launches incidents => cases hm
      | _ => cases hcall

/-- If nothing is planned, all that happens stands between the calls. -/
theorem happened_of_isUnplanned (moves : List Move) {b : Bridge} (hb : b.incidents.flatten = [])
    (hmoves : moves.all Move.isUnplanned = true) :
    b.happened moves = moves.filterMap Move.incident? := by
  induction moves generalizing b with
  | nil => rfl
  | cons m rest ih =>
      obtain ⟨hm, hrest⟩ := (Bool.and_eq_true _ _).mp (List.all_cons.symm.trans hmoves)
      obtain ⟨hpasses, hincidents⟩ := passes_of_isUnplanned hb hm
      rw [happened, hpasses, ih hincidents hrest]
      cases hi : m.incident? <;> simp [hi]

/-! ## The order of launches -/

/-- The generations from the first one on have been given out, in the order of the launches. -/
def Numbered (b : Bridge) : Prop :=
  1 ≤ b.nextGeneration ∧ b.generations = List.range' 1 (b.nextGeneration - 1)

namespace Numbered

theorem of_same (h : b₁.Numbered) (hnext : b'.nextGeneration = b₁.nextGeneration)
    (hlaunches : b'.generations = b₁.generations) : b'.Numbered := by
  rw [Numbered, hnext, hlaunches]
  exact h

/-- Requests may be sent, and instances may be let go. -/
theorem of_later (h : b₁.Numbered) (hlater : Later b₁ b') (deeds : List Deed)
    (htrace : b'.trace = deeds ++ b₁.trace) (hdeeds : deeds.filterMap Deed.launch? = []) :
    b'.Numbered := by
  refine h.of_same hlater.nextGeneration ?_
  rw [generations, generations, htrace, List.filterMap_append, hdeeds, List.nil_append]

theorem begun (h : b₁.Numbered) : b₁.begun.Numbered := by
  obtain ⟨hpos, hlaunches⟩ := h
  refine ⟨Nat.le_add_left 1 _, ?_⟩
  have hnext : 1 + (b₁.nextGeneration - 1) = b₁.nextGeneration := by omega
  calc b₁.begun.generations
      = b₁.generations ++ [b₁.nextGeneration] := List.reverse_cons
    _ = List.range' 1 (b₁.nextGeneration - 1) ++ [b₁.nextGeneration] := by rw [hlaunches]
    _ = List.range' 1 (b₁.nextGeneration - 1 + 1) := by
        rw [List.range'_concat, Nat.one_mul, hnext]
    _ = List.range' 1 (b₁.begun.nextGeneration - 1) :=
        congrArg (List.range' 1) (Nat.sub_add_cancel hpos)

theorem steps : Steps Numbered where
  pause b h := h.of_later (later_elapse b) [] (trace_elapse b) rfl
  notify g c b h := (ends_notify b g c).mono
    (fun _ _ ⟨hlater, _, htrace⟩ => h.of_later hlater [_] htrace rfl)
    fun _ _ ⟨hlater, _, htrace⟩ => h.of_later hlater [] htrace rfl
  request g c b h := (ends_request b g c).mono
    (fun _ _ ⟨hlater, _, htrace⟩ => h.of_later hlater [_] htrace rfl)
    fun _ _ ⟨hlater, _, htrace⟩ => h.of_later hlater [] htrace rfl
  release g b h := by
    refine (ends_release b g).mono ?_ fun _ _ h => h.elim
    rintro _ b' ⟨hlater, _, htrace | htrace⟩
    · exact h.of_later hlater [] htrace rfl
    · exact h.of_later hlater [_] htrace rfl
  begun _ h := h.begun
  launches _ _ h := h
  attached _ _ h := h
  set _ _ _ h := h

theorem invariant : Invariant Set.univ Numbered where
  toTalks := steps.talks _
  shutdown _ := steps.shutdown fun _ h => h
  remove _ _ h := h
  navigate navigation f offset _ := steps.navigate navigation f offset
  apply b i h := h.of_later (later_apply b i) [] (trace_apply b i) rfl
  reports _ _ h := h
  handle b report h := by
    obtain ⟨findings, heq⟩ := handle_eq b report
    rw [heq]
    exact h
  plan _ _ _ _ h := h

end Numbered

/-- Generations are given out in the order of the launches. -/
theorem generations_playAll (settings : ServiceSettings) (projectDir : String)
    (moves : List Move) :
    let b := (new settings projectDir).playAll moves
    1 ≤ b.nextGeneration ∧ b.generations = List.range' 1 (b.nextGeneration - 1) :=
  Numbered.invariant.playAll moves ⟨le_rfl, rfl⟩ fun _ _ _ _ => trivial

/-! ## The order of events -/

/-- The earliest instance that may be heard of from now on. -/
def floor (b : Bridge) : Nat :=
  b.attached.getD b.nextGeneration

/-- The attached instance has been launched. -/
def Launched (b : Bridge) : Prop :=
  ∀ g, b.attached = some g → g < b.nextGeneration

theorem Launched.play (hb : b.Launched) (m : Move) : (b.play m).Launched := by
  have h := succeeds_play b m
  intro g hg
  rcases h.attached g hg with hold | ⟨-, hlt⟩
  · exact (hb g hold).trans_le h.next
  · exact hlt

/-- Earlier instances are not heard of again. -/
theorem Launched.floor_le (hb : b.Launched) (m : Move) : b.floor ≤ (b.play m).floor := by
  have h := succeeds_play b m
  have hfloor : b.floor ≤ b.nextGeneration := by
    cases hattached : b.attached with
    | none => simp [floor, hattached]
    | some g => simpa [floor, hattached] using (hb g hattached).le
  cases hattached : (b.play m).attached with
  | none =>
      rw [show (b.play m).floor = (b.play m).nextGeneration by simp [floor, hattached]]
      exact hfloor.trans h.next
  | some g =>
      rw [show (b.play m).floor = g by simp [floor, hattached]]
      rcases h.attached g hattached with hold | ⟨hnew, -⟩
      · simp [floor, hold]
      · exact hfloor.trans hnew

/-- Only the attached instance is heard of. -/
theorem floor_of_hearing {m : Move} {report : Report} {event : BridgeEvent}
    (h : b.hearing m = some (report, some event)) : b.attached = some report.generation ∧
      ∀ reason, event = .stopped reason → report.kind = .stopped reason := by
  cases m with
  | hear =>
      cases hreports : b.reports with
      | nil => simp [hearing, hreports] at h
      | cons first rest =>
          simp only [hearing, hreports, Option.some.injEq, Prod.mk.injEq] at h
          obtain ⟨rfl, hevent⟩ := h
          rcases handle_cases { b with reports := rest } first with hnone | ⟨hattached, hcases⟩
          · rw [hnone] at hevent
            cases hevent
          · refine ⟨hattached, ?_⟩
            rintro reason rfl
            rcases hcases with ⟨reason', hkind, hstopped⟩ | ⟨_, _, _, _, _, -, -, -, htold | htold⟩
            · rw [hevent] at hstopped
              cases hstopped
              exact hkind
            · rw [hevent] at htold
              cases htold
            · rw [hevent] at htold
              cases htold
  | _ => cases h

theorem nextGeneration_le_playAll (moves : List Move) (b : Bridge) :
    b.nextGeneration ≤ (b.playAll moves).nextGeneration := by
  induction moves generalizing b with
  | nil => exact le_rfl
  | cons m rest ih => exact (succeeds_play b m).next.trans (ih (b.play m))

/-- Events come in the order of the generations. -/
theorem Launched.pairwise_events (moves : List Move) (hb : b.Launched) :
    (∀ e ∈ b.events moves, b.floor ≤ e.1 ∧ e.1 < (b.playAll moves).nextGeneration) ∧
      (b.events moves).Pairwise fun x y => x.1 ≤ y.1 := by
  induction moves generalizing b with
  | nil => exact ⟨nofun, List.Pairwise.nil⟩
  | cons m rest ih =>
      obtain ⟨hbounds, hpairs⟩ := ih (hb.play m)
      have hfloor := hb.floor_le m
      have hlater : ∀ e ∈ (b.play m).events rest,
          b.floor ≤ e.1 ∧ e.1 < (b.playAll (m :: rest)).nextGeneration :=
        fun e he => ⟨hfloor.trans (hbounds e he).1, (hbounds e he).2⟩
      have hsplit : b.events (m :: rest) =
          ((b.hearing m).toList.filterMap fun hearing =>
            hearing.2.map (hearing.1.generation, ·)) ++ (b.play m).events rest := by
        rw [events, hearings, List.filterMap_append]
        rfl
      rw [hsplit]
      rcases hhearing : b.hearing m with _ | ⟨report, _ | event⟩
      · exact ⟨hlater, hpairs⟩
      · exact ⟨hlater, hpairs⟩
      · -- The event is one of the attached instance, which is the earliest that may follow.
        obtain ⟨hattached, -⟩ := floor_of_hearing hhearing
        have hgeneration : b.floor = report.generation := by simp [floor, hattached]
        have hfirst : report.generation < (b.playAll (m :: rest)).nextGeneration :=
          (hb _ hattached).trans_le (nextGeneration_le_playAll (m :: rest) b)
        constructor
        · intro e he
          rcases List.mem_cons.mp he with rfl | he
          · exact ⟨hgeneration.le, hfirst⟩
          · exact hlater e he
        · refine List.pairwise_cons.mpr ⟨fun e he => ?_, hpairs⟩
          exact hgeneration ▸ (hlater e he).1

theorem kind_of_mem_hearings (moves : List Move) {b : Bridge}
    {hearing : Report × Option BridgeEvent} (h : hearing ∈ b.hearings moves) {reason : StopReason}
    (hevent : hearing.2 = some (.stopped reason)) : hearing.1.kind = .stopped reason := by
  induction moves generalizing b with
  | nil => cases h
  | cons m rest ih =>
      rcases List.mem_append.mp h with hfirst | hlater
      · obtain ⟨report, event⟩ := hearing
        obtain rfl : event = some (.stopped reason) := hevent
        exact (floor_of_hearing (Option.mem_toList.mp hfirst)).2 reason rfl
      · exact ih hlater

/-- Readers report an end once and at last. -/
theorem pairwise_of_reading {incidents : List Incident}
    (hreaders : ∀ g, ∃ frames reason,
      (incidents.filter fun i => i.reader? = some g) <+: Incident.reading g frames reason) :
    incidents.Pairwise fun x y => ∀ g reason, x = .reports g reason → y.reader? ≠ some g := by
  rw [List.pairwise_iff_forall_sublist]
  rintro x y hsub g reason rfl hy
  -- Two incidents of one reader stand in its script in the same order, where the end is last.
  obtain ⟨frames, reason', hscript⟩ := hreaders g
  have hpair : [.reports g reason, y].Sublist (Incident.reading g frames reason') := by
    have hfiltered := hsub.filter fun i => i.reader? = some g
    have hsame : ([.reports g reason, y].filter fun i => i.reader? = some g) =
        [.reports g reason, y] := by
      refine List.filter_eq_self.mpr fun i hi => decide_eq_true ?_
      rcases List.mem_pair.mp hi with rfl | rfl
      · rfl
      · exact hy
    exact (hsame ▸ hfiltered).trans hscript.sublist
  have hend : (Incident.reading g frames reason').Pairwise fun x _ => ∀ g reason,
      x ≠ .reports g reason := by
    simp only [Incident.reading, List.pairwise_append, List.pairwise_map, List.mem_map]
    refine ⟨List.pairwise_of_forall fun _ _ => nofun, ?_, ?_⟩
    · simp
    · rintro _ ⟨_, -, rfl⟩ _ -
      nofun
  exact List.pairwise_iff_forall_sublist.mp hend hpair g reason rfl

/-- Nothing of an instance is heard after its end. -/
theorem pairwise_events_of_reading (moves : List Move) (hreports : b.reports = [])
    (hreaders : ∀ g, ∃ frames reason,
      ((b.happened moves).filter fun i => i.reader? = some g) <+:
        Incident.reading g frames reason) :
    (b.events moves).Pairwise fun x y => x.1 = y.1 → ∀ reason, x.2 ≠ .stopped reason := by
  have hsaid : ((b.happened moves).filterMap Incident.report?).Pairwise
      fun x y => x.generation = y.generation → ∀ reason, x.kind ≠ .stopped reason := by
    refine List.pairwise_filterMap.mpr ((pairwise_of_reading hreaders).imp ?_)
    intro x y hxy r hr r' hr' hsame reason hkind
    exact hxy r.generation reason ((Incident.of_report? hr).2 reason hkind)
      (hsame ▸ (Incident.of_report? hr').1)
  have hqueue := reports_playAll moves b
  rw [hreports, List.nil_append] at hqueue
  have htaken : ((b.hearings moves).map Prod.fst).Pairwise
      fun x y => x.generation = y.generation → ∀ reason, x.kind ≠ .stopped reason := by
    rw [← hqueue] at hsaid
    exact (List.pairwise_append.mp hsaid).1
  refine List.pairwise_filterMap.mpr ((List.pairwise_map.mp htaken).imp_of_mem ?_)
  rintro x y hx - hxy e he e' he' hsame reason hstopped
  obtain ⟨event, hevent, rfl⟩ := Option.map_eq_some_iff.mp he
  obtain ⟨event', -, rfl⟩ := Option.map_eq_some_iff.mp he'
  obtain rfl : event = .stopped reason := hstopped
  exact hxy hsame reason (kind_of_mem_hearings moves hx hevent)

/-- Let the reader of each instance take frames up to the end of its output and report the end
then, and let the bridge take the reports at any time.  The events that it returns come in
blocks, one for each instance in the order of the launches.  If a block tells of the end of its
instance, nothing follows in it.  A report of an instance that is not attached means nothing and
changes nothing. -/
theorem events_in_blocks (settings : ServiceSettings) (projectDir : String) (moves : List Move)
    (hreaders : ∀ g, ∃ frames reason,
      (((new settings projectDir).happened moves).filter fun i => i.reader? = some g) <+:
        Incident.reading g frames reason) :
    let b := (new settings projectDir).playAll moves
    (new settings projectDir).events moves =
        (b.generations.flatMap fun g =>
          ((new settings projectDir).eventsOf moves g).map (g, ·)) ∧
    b.generations.Pairwise (· < ·) ∧
    (∀ g before reason after,
      (new settings projectDir).eventsOf moves g = before ++ .stopped reason :: after →
        after = []) ∧
    ∀ report, b.attached ≠ some report.generation → b.handle report = (none, b) := by
  intro b
  obtain ⟨hpos, hgenerations⟩ := generations_playAll settings projectDir moves
  have horder : b.generations.Pairwise (· < ·) := by
    change b.generations = _ at hgenerations
    rw [hgenerations]
    exact List.pairwise_lt_range'
  have hnew : (new settings projectDir).Launched := nofun
  obtain ⟨hbounds, hpairs⟩ := hnew.pairwise_events moves
  have hmem : ∀ e ∈ (new settings projectDir).events moves, e.1 ∈ b.generations := by
    intro e he
    obtain ⟨hge, hlt⟩ := hbounds e he
    change b.generations = List.range' 1 (b.nextGeneration - 1) at hgenerations
    change e.1 < b.nextGeneration at hlt
    change 1 ≤ e.1 at hge
    rw [hgenerations, List.mem_range'_1]
    omega
  refine ⟨?_, horder, ?_, fun report hreport => if_neg hreport⟩
  · refine (flatMap_filter_of_pairwise Prod.fst horder hpairs hmem).symm.trans
      (List.flatMap_congr fun g _ => ?_)
    rw [eventsOf, List.map_map]
    refine (List.map_id _).symm.trans (List.map_congr_left fun e he => ?_)
    obtain rfl : e.1 = g := beq_iff_eq.mp (List.mem_filter.mp he).2
    rfl
  · intro g before reason after hblock
    have hends := (pairwise_events_of_reading moves rfl hreaders).filter (·.1 == g)
    have hblocks : ((new settings projectDir).eventsOf moves g).Pairwise
        fun x _ => ∀ reason, x ≠ .stopped reason := by
      refine List.pairwise_map.mpr (hends.imp_of_mem fun {x y} hx hy hxy => hxy ?_)
      exact (beq_iff_eq.mp (List.mem_filter.mp hx).2).trans
        (beq_iff_eq.mp (List.mem_filter.mp hy).2).symm
    rw [hblock] at hblocks
    obtain ⟨hfirst, -⟩ := List.pairwise_cons.mp (List.pairwise_append.mp hblocks).2.1
    exact List.eq_nil_iff_forall_not_mem.mpr fun x hx => hfirst x hx reason rfl

/-- The first instance has died when it is replaced, and it reports findings and its end later.
Nothing comes of that. -/
theorem events_in_blocks_relaunched :
    let found : Json := .object [("body", .object [("diagnostics", .array []),
      ("file", .string "/book/src/a.ts")]), ("event", .string "semanticDiag"),
      ("type", .string "event")]
    let moves : List Move := [.openFile "a.ts" "1", .happens (.frame 1 found), .hear,
      .happens (.frame 1 found), .happens (.dies 1), .update "a.ts" "2", .happens (.forgets 1),
      .happens (.reports 1 .exited), .happens (.frame 2 found), .hear, .hear, .hear,
      .happens (.dies 2), .happens (.forgets 2), .happens (.reports 2 .exited), .hear]
    let b₀ := new .standard "/book"
    (∀ g, ∃ frames reason, ((b₀.happened moves).filter fun i => i.reader? = some g) <+:
      Incident.reading g frames reason) ∧
    b₀.events moves = [(1, .diagnostics "a.ts" []), (2, .diagnostics "a.ts" []),
      (2, .stopped .exited)] ∧
    b₀.events moves =
      ((b₀.playAll moves).generations.flatMap fun g => (b₀.eventsOf moves g).map (g, ·)) := by
  intro found moves b₀
  have hhappened : b₀.happened moves = [.frame 1 found, .frame 1 found, .dies 1, .forgets 1,
      .reports 1 .exited, .frame 2 found, .dies 2, .forgets 2, .reports 2 .exited] :=
    happened_of_isUnplanned moves rfl rfl
  have hreaders : ∀ g, ∃ frames reason,
      ((b₀.happened moves).filter fun i => i.reader? = some g) <+:
        Incident.reading g frames reason := by
    intro g
    rw [hhappened]
    rcases eq_or_ne g 1 with rfl | hfirst
    · exact ⟨[found, found], .exited, List.prefix_rfl⟩
    · rcases eq_or_ne g 2 with rfl | hsecond
      · exact ⟨[found], .exited, List.prefix_rfl⟩
      · refine ⟨[], .exited, ?_⟩
        simp [Incident.reader?, hfirst.symm, hsecond.symm]
  exact ⟨hreaders, by decide +kernel, (events_in_blocks .standard "/book" moves hreaders).1⟩

end Bridge
end Notebook
