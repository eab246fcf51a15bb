import Notebook.Proofs.Gathering
import Notebook.Proofs.Process.Supervision

/-!
# Single runs

A step is taken on behalf of one run, and what it does to this run depends on nothing else.
`Run.next` is this part of a step.

An account of a run says what its pumps have read and what has been heard of it.  It is in
order, `Run.Accounts`, if the texts that were passed on are those of the pieces that were
read, and the exit comes once, when the monitor has reported it.  Texts behind it are late:
they are from a pump that a worker was at when the exit was reported.

* `Run.Moves`, `Run.next_moves`: what a step can make of its run.
* `find?_runs_step`: a step goes on with its own run.
* `Run.Accounts.next`: whatever step is taken, the account stays in order.
* `Run.isAtRest_next`: pumps that have been given up at rest stay so.
* `Run.ended_ending`: a run can come to its end from everywhere.
-/

set_option autoImplicit false

namespace Notebook

/-! ## Texts of pieces -/

namespace Stream

/-- What is held back after a piece. -/
def keep (tail : Option Utf8.Partial) (piece : List UInt8) : Option Utf8.Partial :=
  (take tail piece).2

/-- The texts that are passed on for pieces after which more may come. -/
def passed (pieces : List (List UInt8)) : List String :=
  gather keep (fun tail piece => (take tail piece).1.toList) none pieces

/-- What is held back after pieces. -/
def kept (pieces : List (List UInt8)) : Option Utf8.Partial :=
  pieces.foldl keep none

theorem passed_snoc (pieces : List (List UInt8)) (piece : List UInt8) :
    passed (pieces ++ [piece]) = passed pieces ++ (take (kept pieces) piece).1.toList :=
  gather_snoc keep _ none pieces piece

theorem kept_snoc (pieces : List (List UInt8)) (piece : List UInt8) :
    kept (pieces ++ [piece]) = (take (kept pieces) piece).2 := by
  simp only [kept, List.foldl_append, List.foldl_cons, List.foldl_nil, keep]

/-- At the end of the output, what is held back is passed on too. -/
theorem chunks_eq (pieces : List (List UInt8)) :
    chunks none pieces = passed pieces ++ (close (kept pieces)).toList := by
  have h : ∀ tail, chunks tail pieces =
      gather keep (fun tail piece => (take tail piece).1.toList) tail pieces ++
        (close (pieces.foldl keep tail)).toList := by
    intro tail
    induction pieces generalizing tail with
    | nil => rfl
    | cons piece rest ih =>
        simp only [chunks, gather, List.foldl_cons, List.append_assoc, ih, keep]
  exact h none

end Stream

/-! ## Steps of one run -/

namespace Run

/-- What a step makes of its run, if it is due. -/
def next (capacity : Nat) (r : Run) : Supervisor.Step → Run
  | .attend stream =>
    if r.isPumping then r.withPump stream { r.pump stream with attended := true } else r
  | .unattend stream => r.withPump stream { r.pump stream with attended := false }
  | .read stream piece =>
    if r.canRead stream then r.withPump stream ((r.pump stream).read piece) else r
  | .finish stream =>
    if r.canRead stream then r.withPump stream (r.pump stream).finish else r
  | .deliver stream =>
    match (r.pump stream).held with
    | some text =>
      if (r.pump stream).attended then
        match Supervisor.offer capacity r (.output stream text) with
        | some r => r.withPump stream { r.pump stream with held := none }
        | none => r
      else r
    | none => r
  | .exit info =>
    match r.phase with
    | .waiting => { r with phase := .draining info }
    | _ => r
  | .drain =>
    match r.phase with
    | .draining info =>
      if r.stdout.isDone && r.stderr.isDone then { r with phase := .drained info } else r
    | _ => r
  | .giveUp =>
    match r.phase with
    | .draining info => { r with phase := .drained info }
    | _ => r
  | .remove =>
    match r.phase with
    | .drained info => { r with phase := .removed info }
    | _ => r
  | .report =>
    match r.phase with
    | .removed info =>
      match Supervisor.offer capacity r (.exited info) with
      | some r => { r with phase := .reported }
      | none => r
    | _ => r
  | .take => { r with queue := r.queue.drop 1 }
  | .leave => { r with queue := [], watched := false }

/-- What a step reads from a stream. -/
def reads (r : Run) (stream : OutputStream) : Supervisor.Step → List (List UInt8)
  | .read stream' piece => if stream' = stream ∧ r.canRead stream' = true then [piece] else []
  | _ => []

/-- What somebody who listens hears by a step. -/
def hears (r : Run) : Supervisor.Step → List ProcessEvent
  | .take => r.queue.head?.toList
  | _ => []

/-- What a step can make of its run.  A step that is not due changes nothing and yields
nothing. -/
inductive Moves (capacity : Nat) (r : Run) : Supervisor.Step → Run → Prop
  | idle {what : Supervisor.Step} (hreads : ∀ stream, r.reads stream what = [])
      (hhears : r.hears what = []) : Moves capacity r what r
  | attended {stream : OutputStream} (hpumping : r.isPumping = true) :
      Moves capacity r (.attend stream)
        (r.withPump stream { r.pump stream with attended := true })
  | unattended {stream : OutputStream} :
      Moves capacity r (.unattend stream)
        (r.withPump stream { r.pump stream with attended := false })
  | read {stream : OutputStream} {piece : List UInt8} (hdue : r.canRead stream = true) :
      Moves capacity r (.read stream piece) (r.withPump stream ((r.pump stream).read piece))
  | finished {stream : OutputStream} (hdue : r.canRead stream = true) :
      Moves capacity r (.finish stream) (r.withPump stream (r.pump stream).finish)
  | delivered {stream : OutputStream} {text : String} {r' : Run}
      (hheld : (r.pump stream).held = some text) (hattended : (r.pump stream).attended = true)
      (hoffer : Supervisor.offer capacity r (.output stream text) = some r') :
      Moves capacity r (.deliver stream)
        (r'.withPump stream { r'.pump stream with held := none })
  | exited {info : ExitInfo} (hphase : r.phase = .waiting) :
      Moves capacity r (.exit info) { r with phase := .draining info }
  | drained {info : ExitInfo} (hphase : r.phase = .draining info)
      (hstdout : r.stdout.isDone = true) (hstderr : r.stderr.isDone = true) :
      Moves capacity r .drain { r with phase := .drained info }
  | givenUp {info : ExitInfo} (hphase : r.phase = .draining info) :
      Moves capacity r .giveUp { r with phase := .drained info }
  | removed {info : ExitInfo} (hphase : r.phase = .drained info) :
      Moves capacity r .remove { r with phase := .removed info }
  | reported {info : ExitInfo} {r' : Run} (hphase : r.phase = .removed info)
      (hoffer : Supervisor.offer capacity r (.exited info) = some r') :
      Moves capacity r .report { r' with phase := .reported }
  | taken : Moves capacity r .take { r with queue := r.queue.drop 1 }
  | left : Moves capacity r .leave { r with queue := [], watched := false }

theorem next_moves (capacity : Nat) (r : Run) (what : Supervisor.Step) :
    r.Moves capacity what (r.next capacity what) := by
  cases what with
  | attend stream =>
      simp only [next]
      split
      · next hpumping => exact .attended hpumping
      · exact .idle (fun _ => rfl) rfl
  | unattend stream => exact .unattended
  | read stream piece =>
      simp only [next]
      split
      · next hdue => exact .read hdue
      · next hnot => exact .idle (fun _ => if_neg fun h => hnot h.2) rfl
  | finish stream =>
      simp only [next]
      split
      · next hdue => exact .finished hdue
      · exact .idle (fun _ => rfl) rfl
  | deliver stream =>
      simp only [next]
      split
      · next text hheld =>
          split
          · next hattended =>
              split
              · next r' hoffer => exact .delivered hheld hattended hoffer
              · exact .idle (fun _ => rfl) rfl
          · exact .idle (fun _ => rfl) rfl
      · exact .idle (fun _ => rfl) rfl
  | exit info =>
      simp only [next]
      split
      · next hphase => exact .exited hphase
      · exact .idle (fun _ => rfl) rfl
  | drain =>
      simp only [next]
      split
      · next info hphase =>
          split
          · next hdone =>
              rw [Bool.and_eq_true] at hdone
              exact .drained hphase hdone.1 hdone.2
          · exact .idle (fun _ => rfl) rfl
      · exact .idle (fun _ => rfl) rfl
  | giveUp =>
      simp only [next]
      split
      · next info hphase => exact .givenUp hphase
      · exact .idle (fun _ => rfl) rfl
  | remove =>
      simp only [next]
      split
      · next info hphase => exact .removed hphase
      · exact .idle (fun _ => rfl) rfl
  | report =>
      simp only [next]
      split
      · next info hphase =>
          split
          · next r' hoffer => exact .reported hphase hoffer
          · exact .idle (fun _ => rfl) rfl
      · exact .idle (fun _ => rfl) rfl
  | take => exact .taken
  | leave => exact .left

end Run

namespace Supervisor

/-- The other runs stay as they are. -/
theorem find?_runs_step_of_ne (s : Supervisor) {g g' : Nat} (hne : g ≠ g') (what : Step) :
    (s.step g what).runs.find? g' = s.runs.find? g' := by
  rcases step_cases s g what with hsame | ⟨r, _, ⟨r', heq, _⟩ | ⟨info, _, _, heq⟩⟩
  · rw [hsame]
  · simp [heq, Table.find?_set, hne]
  · simp [heq, freed, Table.find?_set, hne]

/-- Every run keeps its key and its pid. -/
theorem identity_step (s : Supervisor) (g g' : Nat) (what : Step) :
    ((s.step g what).runs.find? g').map (fun r => (r.key, r.pid)) =
      (s.runs.find? g').map fun r => (r.key, r.pid) := by
  rcases step_cases s g what with hsame | ⟨r, hr, ⟨r', heq, hgoes, _⟩ | ⟨info, _, _, heq⟩⟩
  · rw [hsame]
  · by_cases hg : g = g'
    · subst hg
      simp [heq, Table.find?_set, hr, hgoes.key, hgoes.pid]
    · simp [heq, Table.find?_set, hg]
  · by_cases hg : g = g'
    · subst hg
      simp [heq, freed, Table.find?_set, hr]
    · simp [heq, freed, Table.find?_set, hg]

@[simp]
theorem capacity_step (s : Supervisor) (g : Nat) (what : Step) :
    (s.step g what).capacity = s.capacity := by
  rcases step_cases s g what with hsame | ⟨r, _, ⟨r', heq, _⟩ | ⟨info, _, _, heq⟩⟩
  · rw [hsame]
  · rw [heq]
  · rw [heq, freed, removeRecord]
    split
    · split <;> rfl
    · rfl

/-- No key has two records. -/
theorem nodup_records_step {s : Supervisor} (hs : s.records.keys.Nodup) (g : Nat)
    (what : Step) : (s.step g what).records.keys.Nodup := by
  rcases step_cases s g what with hsame | ⟨r, _, ⟨r', heq, _⟩ | ⟨info, _, _, heq⟩⟩
  · rwa [hsame]
  · rwa [heq]
  · rw [heq, freed, removeRecord]
    split
    · split
      · exact Table.nodup_keys_erase _ hs _
      · exact hs
    · exact hs

/-- A step goes on with its own run. -/
theorem find?_runs_step (s : Supervisor) (g : Nat) (what : Step) :
    (s.step g what).runs.find? g = (s.runs.find? g).map (·.next s.capacity what) := by
  cases hr : s.runs.find? g with
  | none => simp [step, hr]
  | some r =>
      have hchange : ∀ f : Run → Run, (s.changeRun g f).runs.find? g = some (f r) := by
        intro f
        simp [changeRun_eq hr, Table.find?_set]
      have hfreed : ∀ f : Run → Run,
          ((s.removeRecord g r).changeRun g f).runs.find? g = some (f r) := by
        intro f
        rw [changeRun_eq (by rw [runs_removeRecord, hr])]
        simp [Table.find?_set]
      cases what with
      | attend stream =>
          cases hdue : r.isPumping <;>
            simp only [step, hr, hchange, Option.map_some, Run.next, hdue, if_true, if_false,
              Bool.false_eq_true]
      | read stream piece | finish stream =>
          cases hdue : r.canRead stream <;>
            simp only [step, hr, hchange, Option.map_some, Run.next, hdue, if_true, if_false,
              Bool.false_eq_true]
      | deliver stream =>
          cases hheld : (r.pump stream).held with
          | none => simp [step, hr, Run.next, hheld]
          | some text =>
              by_cases hattended : (r.pump stream).attended = true
              · cases hoffer : offer s.capacity r (.output stream text) <;>
                  simp [step, hr, hchange, Run.next, hheld, hattended, hoffer]
              · simp [step, hr, Run.next, hheld, hattended]
      | exit info => cases hphase : r.phase <;> simp [step, hr, hchange, Run.next, hphase]
      | drain =>
          cases hphase : r.phase with
          | draining info =>
              cases hdone : r.stdout.isDone && r.stderr.isDone <;>
                simp only [step, hr, hchange, Option.map_some, Run.next, hphase, hdone, if_true,
                  if_false, Bool.false_eq_true]
          | _ => simp [step, hr, Run.next, hphase]
      | giveUp => cases hphase : r.phase <;> simp [step, hr, hchange, Run.next, hphase]
      | remove => cases hphase : r.phase <;> simp [step, hr, hfreed, Run.next, hphase]
      | report =>
          cases hphase : r.phase with
          | removed info =>
              cases hoffer : offer s.capacity r (.exited info) <;>
                simp [step, hr, hchange, Run.next, hphase, hoffer]
          | _ => simp [step, hr, Run.next, hphase]
      | unattend | take | leave => simp [step, hr, hchange, Run.next]

end Supervisor

/-! ## What steps leave alone -/

namespace Run

theorem pump_withPump (r : Run) (stream stream' : OutputStream) (p : Pump) :
    (r.withPump stream p).pump stream' = if stream = stream' then p else r.pump stream' := by
  cases stream <;> cases stream' <;> rfl

@[simp]
theorem phase_withPump (r : Run) (stream : OutputStream) (p : Pump) :
    (r.withPump stream p).phase = r.phase := by
  cases stream <;> rfl

@[simp]
theorem queue_withPump (r : Run) (stream : OutputStream) (p : Pump) :
    (r.withPump stream p).queue = r.queue := by
  cases stream <;> rfl

@[simp]
theorem watched_withPump (r : Run) (stream : OutputStream) (p : Pump) :
    (r.withPump stream p).watched = r.watched := by
  cases stream <;> rfl

/-- Queueing an event changes nothing but the queue. -/
theorem offer_same {capacity : Nat} {r r' : Run} {event : ProcessEvent}
    (h : Supervisor.offer capacity r event = some r') :
    (∀ stream, r'.pump stream = r.pump stream) ∧ r'.phase = r.phase ∧
      r'.watched = r.watched := by
  rcases Supervisor.offer_cases h with ⟨_, rfl⟩ | ⟨_, rfl⟩
  · exact ⟨fun _ => rfl, rfl, rfl⟩
  · exact ⟨fun stream => by cases stream <;> rfl, rfl, rfl⟩

/-- Somebody listens until they leave. -/
theorem watched_next (capacity : Nat) (r : Run) {what : Supervisor.Step} (h : what ≠ .leave) :
    (r.next capacity what).watched = r.watched := by
  have hmoves := r.next_moves capacity what
  generalize r.next capacity what = r' at hmoves ⊢
  cases hmoves with
  | left => exact absurd rfl h
  | attended | unattended | read | finished => exact watched_withPump r _ _
  | delivered _ _ hoffer => rw [watched_withPump, (offer_same hoffer).2.2]
  | reported _ hoffer => exact (offer_same hoffer).2.2
  | _ => rfl

end Run

/-! ## Pumps at rest -/

/-- No worker is at the pump, or it is done. -/
def Pump.isAtRest (p : Pump) : Bool :=
  !p.attended || p.isDone

namespace Run

/-- No worker is at a pump that is not done. -/
def isAtRest (r : Run) : Bool :=
  r.stdout.isAtRest && r.stderr.isAtRest

theorem isAtRest_iff (r : Run) :
    r.isAtRest = true ↔ ∀ stream, (r.pump stream).isAtRest = true := by
  rw [isAtRest, Bool.and_eq_true]
  refine ⟨fun h stream => ?_, fun h => ⟨h .stdout, h .stderr⟩⟩
  cases stream with
  | stdout => exact h.1
  | stderr => exact h.2

theorem isAtRest_eq_false {r : Run} {stream : OutputStream}
    (hattended : (r.pump stream).attended = true) (hdone : (r.pump stream).isDone = false) :
    r.isAtRest = false := by
  rw [← Bool.not_eq_true, isAtRest_iff]
  intro h
  simpa [Pump.isAtRest, hattended, hdone] using h stream

/-- A pump that reads next is at work. -/
theorem isAtRest_of_canRead {r : Run} {stream : OutputStream} (h : r.canRead stream = true) :
    r.isAtRest = false := by
  simp only [canRead, Pump.isFree, Bool.and_eq_true] at h
  exact isAtRest_eq_false h.1 (by simpa [Pump.isDone] using fun hended => by simp [hended] at h)

/-- Pumps that no worker takes up any more rest once they rest. -/
theorem isAtRest_next {r : Run} (hrest : r.isAtRest = true) (hpumping : r.isPumping = false)
    (capacity : Nat) (what : Supervisor.Step) : (r.next capacity what).isAtRest = true := by
  have hmoves := r.next_moves capacity what
  generalize r.next capacity what = r' at hmoves ⊢
  cases hmoves with
  | attended htaken =>
      rw [hpumping] at htaken
      cases htaken
  | unattended =>
      rw [isAtRest_iff] at hrest ⊢
      intro stream
      rw [pump_withPump]
      split
      · rfl
      · exact hrest stream
  | read hdue | finished hdue =>
      rw [isAtRest_of_canRead hdue] at hrest
      cases hrest
  | delivered hheld hattended _ =>
      rw [isAtRest_eq_false hattended (by simp [Pump.isDone, hheld])] at hrest
      cases hrest
  | reported _ hoffer =>
      rw [isAtRest_iff] at hrest ⊢
      intro stream
      have hsame := (offer_same hoffer).1 stream
      exact hsame ▸ hrest stream
  | _ => exact hrest

/-- How far a step brings the monitor of its run.  Pumps that are not given up have come to
rest before the monitor goes on. -/
theorem phase_next (capacity : Nat) (r : Run) (what : Supervisor.Step) :
    (r.next capacity what).phase = r.phase ∨
    (∃ info, r.phase = .waiting ∧ (r.next capacity what).phase = .draining info) ∨
    (∃ info, r.phase = .draining info ∧ (r.next capacity what).phase = .drained info ∧
      (what = .giveUp ∨ (r.next capacity what).isAtRest = true)) ∨
    (∃ info, r.phase = .drained info ∧ (r.next capacity what).phase = .removed info) ∨
    ∃ info, r.phase = .removed info ∧ (r.next capacity what).phase = .reported := by
  have hmoves := r.next_moves capacity what
  generalize r.next capacity what = r' at hmoves ⊢
  cases hmoves with
  | attended | unattended | read | finished => exact Or.inl (phase_withPump r _ _)
  | delivered _ _ hoffer =>
      exact Or.inl ((phase_withPump _ _ _).trans (offer_same hoffer).2.1)
  | exited hphase => exact Or.inr (Or.inl ⟨_, hphase, rfl⟩)
  | drained hphase hstdout hstderr =>
      exact Or.inr (Or.inr (Or.inl ⟨_, hphase, rfl,
        Or.inr (by simp [isAtRest, Pump.isAtRest, hstdout, hstderr])⟩))
  | givenUp hphase => exact Or.inr (Or.inr (Or.inl ⟨_, hphase, rfl, Or.inl rfl⟩))
  | removed hphase => exact Or.inr (Or.inr (Or.inr (Or.inl ⟨_, hphase, rfl⟩)))
  | reported hphase _ => exact Or.inr (Or.inr (Or.inr (Or.inr ⟨_, hphase, rfl⟩)))
  | idle | taken | left => exact Or.inl rfl

/-- Unless they are given up, the pumps rest before the monitor goes on without them, and from
then on. -/
theorem isAtRest_next_of_ne_giveUp {r : Run} (hrest : r.isPumping = false → r.isAtRest = true)
    {what : Supervisor.Step} (hwhat : what ≠ .giveUp) (capacity : Nat)
    (hnext : (r.next capacity what).isPumping = false) :
    (r.next capacity what).isAtRest = true := by
  cases hpumping : r.isPumping with
  | false => exact isAtRest_next (hrest hpumping) hpumping capacity what
  | true =>
      rcases phase_next capacity r what with hsame | ⟨_, _, hphase⟩ | ⟨_, _, _, hgiven | hdone⟩ |
        ⟨_, hphase, _⟩ | ⟨_, hphase, _⟩
      · rw [isPumping, hsame] at hnext
        exact absurd (hnext.symm.trans hpumping) nofun
      · simp [isPumping, hphase] at hnext
      · exact absurd hgiven hwhat
      · exact hdone
      · simp [isPumping, hphase] at hpumping
      · simp [isPumping, hphase] at hpumping

/-- The run as it is when a step reports its exit. -/
def atReport (capacity : Nat) (r : Run) (what : Supervisor.Step) : List Run :=
  if r.phase ≠ .reported ∧ (r.next capacity what).phase = .reported then [r] else []

theorem mem_atReport_iff {capacity : Nat} {r r₀ : Run} {what : Supervisor.Step} :
    r₀ ∈ r.atReport capacity what ↔
      r₀ = r ∧ r.phase ≠ .reported ∧ (r.next capacity what).phase = .reported := by
  unfold atReport
  split
  · next h => simp [h]
  · next h => simp [h]

/-- The exit is reported when the pumps are not taken up any more. -/
theorem isPumping_of_mem_atReport {capacity : Nat} {r r₀ : Run} {what : Supervisor.Step}
    (h : r₀ ∈ r.atReport capacity what) : r.isPumping = false := by
  obtain ⟨_, hbefore, hreported⟩ := mem_atReport_iff.mp h
  rcases phase_next capacity r what with hsame | ⟨_, _, hphase⟩ | ⟨_, _, hphase, _⟩ |
    ⟨_, _, hphase⟩ | ⟨_, hphase, _⟩
  · exact absurd (hsame.symm.trans hreported) hbefore
  · rw [hphase] at hreported
    cases hreported
  · rw [hphase] at hreported
    cases hreported
  · rw [hphase] at hreported
    cases hreported
  · simp [isPumping, hphase]

/-- Pumps that rest when the exit is reported rest ever after. -/
theorem isAtRest_of_reported {r : Run} {capacity : Nat} {what : Supervisor.Step}
    (hrest : r.phase = .reported → r.isAtRest = true)
    (hreport : ∀ r₀ ∈ r.atReport capacity what, r₀.isAtRest = true)
    (hreported : (r.next capacity what).phase = .reported) :
    (r.next capacity what).isAtRest = true := by
  by_cases hphase : r.phase = .reported
  · exact isAtRest_next (hrest hphase) (by simp [isPumping, hphase]) capacity what
  · have hmem : r ∈ r.atReport capacity what := mem_atReport_iff.mpr ⟨rfl, hphase, hreported⟩
    exact isAtRest_next (hreport r hmem) (isPumping_of_mem_atReport hmem) capacity what

end Run

/-! ## Accounts -/

/-- A text of a stream, as an event. -/
def ProcessEvent.ofChunk (chunk : OutputStream × String) : ProcessEvent :=
  .output chunk.1 chunk.2

/-- What is told of a run: its output, then its exit, if that is known, and what comes
late. -/
def ProcessEvent.told (chunks : List (OutputStream × String)) (exit : Option ExitInfo)
    (late : List (OutputStream × String)) : List ProcessEvent :=
  chunks.map ofChunk ++ exit.toList.map .exited ++ late.map ofChunk

/-- The texts of one stream. -/
def OutputStream.texts (stream : OutputStream) (chunks : List (OutputStream × String)) :
    List String :=
  (chunks.filter fun chunk => chunk.1 = stream).map (·.2)

theorem ProcessEvent.told_snoc (chunks : List (OutputStream × String))
    (chunk : OutputStream × String) :
    told (chunks ++ [chunk]) none [] = told chunks none [] ++ [ofChunk chunk] := by
  simp [told]

theorem ProcessEvent.told_exited (chunks : List (OutputStream × String)) (info : ExitInfo) :
    told chunks (some info) [] = told chunks none [] ++ [.exited info] := by
  simp [told]

theorem ProcessEvent.told_late (chunks : List (OutputStream × String)) (exit : Option ExitInfo)
    (late : List (OutputStream × String)) (chunk : OutputStream × String) :
    told chunks exit (late ++ [chunk]) = told chunks exit late ++ [ofChunk chunk] := by
  simp [told]

theorem OutputStream.texts_append (stream : OutputStream)
    (chunks chunks' : List (OutputStream × String)) :
    stream.texts (chunks ++ chunks') = stream.texts chunks ++ stream.texts chunks' := by
  rw [texts, List.filter_append, List.map_append]
  rfl

theorem OutputStream.texts_singleton (stream : OutputStream) (chunk : OutputStream × String) :
    stream.texts [chunk] = if chunk.1 = stream then [chunk.2] else [] := by
  by_cases h : chunk.1 = stream <;> simp [texts, h]

namespace Run

/-- The account of a run: what its pumps have read, what has been heard of it, and what is
told of it in all. -/
structure Accounts (read : OutputStream → List (List UInt8)) (heard : List ProcessEvent)
    (chunks : List (OutputStream × String)) (exit : Option ExitInfo)
    (late : List (OutputStream × String)) (r : Run) : Prop where
  texts : ∀ stream, stream.texts (chunks ++ late) ++ (r.pump stream).held.toList =
    if (r.pump stream).ended then Stream.chunks none (read stream)
    else Stream.passed (read stream)
  tail : ∀ stream, (r.pump stream).ended = false →
    (r.pump stream).tail = Stream.kept (read stream)
  reported : exit.isSome = true ↔ r.phase = .reported
  punctual : exit = none → late = []
  events : if r.watched then heard ++ r.queue = ProcessEvent.told chunks exit late
    else r.queue = [] ∧ heard <+: ProcessEvent.told chunks exit late

namespace Accounts

variable {read : OutputStream → List (List UInt8)} {heard : List ProcessEvent}
  {chunks late : List (OutputStream × String)} {exit : Option ExitInfo} {r : Run}

theorem exit_eq_none (h : r.Accounts read heard chunks exit late) (hphase : r.phase ≠ .reported) :
    exit = none := by
  cases exit with
  | none => rfl
  | some info => exact absurd (h.reported.mp rfl) hphase

/-- Nothing has been read or heard of a run that has just started. -/
theorem fresh (key : ProcessKey) (pid : Nat) :
    Accounts (fun _ => []) [] [] none [] ⟨key, pid, .fresh, .fresh, [], .waiting, true⟩ where
  texts stream := by cases stream <;> rfl
  tail stream _ := by cases stream <;> rfl
  reported := by simp
  punctual _ := rfl
  events := rfl

/-- The texts of a stream come in the order in which its pieces were read. -/
theorem texts_prefix (h : r.Accounts read heard chunks exit late) (stream : OutputStream) :
    stream.texts (chunks ++ late) <+: Stream.chunks none (read stream) := by
  have htexts := h.texts stream
  split at htexts
  · exact ⟨_, htexts⟩
  · rw [Stream.chunks_eq]
    exact List.IsPrefix.trans ⟨_, htexts⟩ (List.prefix_append _ _)

/-- A pump that has read goes on. -/
theorem withPump (h : r.Accounts read heard chunks exit late) (stream : OutputStream) {p : Pump}
    {pieces : List (List UInt8)}
    (htexts : stream.texts (chunks ++ late) ++ p.held.toList =
      if p.ended then Stream.chunks none (read stream ++ pieces)
      else Stream.passed (read stream ++ pieces))
    (htail : p.ended = false → p.tail = Stream.kept (read stream ++ pieces)) :
    (r.withPump stream p).Accounts
      (fun stream' => read stream' ++ if stream = stream' then pieces else []) heard chunks
      exit late where
  texts stream' := by
    rw [pump_withPump]
    by_cases hstream : stream = stream'
    · subst hstream
      simpa using htexts
    · simpa [hstream] using h.texts stream'
  tail stream' := by
    rw [pump_withPump]
    by_cases hstream : stream = stream'
    · subst hstream
      simpa using htail
    · simpa [hstream] using h.tail stream'
  reported := by simpa using h.reported
  punctual := h.punctual
  events := by simpa using h.events

/-- Whether a worker is at a pump does not concern the account. -/
theorem attended (h : r.Accounts read heard chunks exit late) (stream : OutputStream)
    (attended : Bool) :
    (r.withPump stream { r.pump stream with attended }).Accounts read heard chunks exit
      late := by
  have hsame : (r.withPump stream { r.pump stream with attended }).Accounts
      (fun stream' => read stream' ++ if stream = stream' then [] else []) heard chunks exit
      late :=
    h.withPump stream (by simpa using h.texts stream) (by simpa using h.tail stream)
  simpa using hsame

/-- The monitor goes on before it has reported the exit. -/
theorem withPhase (h : r.Accounts read heard chunks exit late) {phase : MonitorPhase}
    (hbefore : r.phase ≠ .reported) (hphase : phase ≠ .reported) :
    { r with phase }.Accounts read heard chunks exit late where
  texts := h.texts
  tail := h.tail
  reported := by simp [h.exit_eq_none hbefore, hphase]
  punctual := h.punctual
  events := h.events

/-- What is put into the queue is told. -/
theorem events_offer (h : r.Accounts read heard chunks exit late) {capacity : Nat} {r' : Run}
    {event : ProcessEvent} (hoffer : Supervisor.offer capacity r event = some r')
    {told : List ProcessEvent} (htold : told = ProcessEvent.told chunks exit late ++ [event]) :
    if r'.watched then heard ++ r'.queue = told else r'.queue = [] ∧ heard <+: told := by
  have hevents := h.events
  rw [htold]
  rcases Supervisor.offer_cases hoffer with ⟨hwatched, rfl⟩ | ⟨hwatched, rfl⟩
  · simp only [hwatched, Bool.false_eq_true, if_false] at hevents ⊢
    exact ⟨hevents.1, hevents.2.trans (List.prefix_append _ _)⟩
  · simp only [hwatched, if_true] at hevents ⊢
    rw [← List.append_assoc, hevents]

/-- A step that yields nothing. -/
theorem silent (h : r.Accounts read heard chunks exit late) {what : Supervisor.Step}
    (hreads : ∀ stream, r.reads stream what = []) (hhears : r.hears what = []) :
    r.Accounts (fun stream => read stream ++ r.reads stream what) (heard ++ r.hears what) chunks
      exit late := by
  simpa only [hreads, hhears, List.append_nil] using h

/-- A pump reads a piece. -/
theorem read_piece (h : r.Accounts read heard chunks exit late) {stream : OutputStream}
    (hdue : r.canRead stream = true) (piece : List UInt8) :
    (r.withPump stream ((r.pump stream).read piece)).Accounts
      (fun stream' => read stream' ++ if stream = stream' then [piece] else []) heard chunks
      exit late := by
  have hfree : (r.pump stream).held = none ∧ (r.pump stream).ended = false := by
    simpa [canRead, Pump.isFree] using (Bool.and_eq_true_iff.mp hdue).2
  have htexts := h.texts stream
  have htail := h.tail stream hfree.2
  simp only [hfree, Option.toList_none, List.append_nil, Bool.false_eq_true, if_false] at htexts
  refine h.withPump stream ?_ fun _ => ?_
  · simp [Pump.read, hfree.2, htexts, htail, Stream.passed_snoc]
  · simp [Pump.read, htail, Stream.kept_snoc]

/-- A pump reads the end of the output. -/
theorem read_end (h : r.Accounts read heard chunks exit late) {stream : OutputStream}
    (hdue : r.canRead stream = true) :
    (r.withPump stream (r.pump stream).finish).Accounts read heard chunks exit late := by
  have hfree : (r.pump stream).held = none ∧ (r.pump stream).ended = false := by
    simpa [canRead, Pump.isFree] using (Bool.and_eq_true_iff.mp hdue).2
  have htexts := h.texts stream
  have htail := h.tail stream hfree.2
  simp only [hfree, Option.toList_none, List.append_nil, Bool.false_eq_true, if_false] at htexts
  have hfinish : (r.withPump stream (r.pump stream).finish).Accounts
      (fun stream' => read stream' ++ if stream = stream' then [] else []) heard chunks exit
      late :=
    h.withPump stream (by simp [Pump.finish, htexts, htail, Stream.chunks_eq])
      (fun hended => by cases hended)
  simpa using hfinish

/-- A pump puts its text into the queue.  The text is late if the exit has been reported. -/
theorem delivered (h : r.Accounts read heard chunks exit late) {capacity : Nat}
    {stream : OutputStream} {text : String} {r' : Run}
    (hheld : (r.pump stream).held = some text)
    (hoffer : Supervisor.offer capacity r (.output stream text) = some r') :
    ∃ chunks' late',
      (r'.withPump stream { r'.pump stream with held := none }).Accounts read heard chunks' exit
        late' ∧ (late' = late ∨ r.phase = .reported) := by
  obtain ⟨hpump, hphase, _⟩ := offer_same hoffer
  have haccount : ∀ chunks' late',
      chunks' ++ late' = chunks ++ late ++ [(stream, text)] → (exit = none → late' = []) →
      ProcessEvent.told chunks' exit late' =
        ProcessEvent.told chunks exit late ++ [.output stream text] →
      (r'.withPump stream { r'.pump stream with held := none }).Accounts read heard chunks' exit
        late' := by
    intro chunks' late' hchunks hpunctual htold
    have hevents := h.events_offer hoffer htold
    refine ⟨fun stream' => ?_, fun stream' => ?_, ?_, hpunctual, by simpa using hevents⟩
    · have htexts := h.texts stream'
      rw [pump_withPump, hchunks, OutputStream.texts_append, OutputStream.texts_singleton]
      by_cases hstream : stream = stream'
      · subst hstream
        rw [hheld] at htexts
        simpa [hpump] using htexts
      · simpa [hpump, hstream] using htexts
    · have htail := h.tail stream'
      rw [pump_withPump]
      by_cases hstream : stream = stream'
      · subst hstream
        simpa [hpump] using htail
      · simpa [hpump, hstream] using htail
    · simpa [hphase] using h.reported
  cases exit with
  | none =>
      obtain rfl := h.punctual rfl
      exact ⟨chunks ++ [(stream, text)], [],
        haccount _ _ (by simp) (fun _ => rfl) (ProcessEvent.told_snoc chunks (stream, text)),
        Or.inl rfl⟩
  | some info =>
      exact ⟨chunks, late ++ [(stream, text)],
        haccount _ _ (List.append_assoc _ _ _).symm nofun
          (ProcessEvent.told_late chunks (some info) late (stream, text)),
        Or.inr (h.reported.mp rfl)⟩

/-- The monitor reports the exit. -/
theorem reports (h : r.Accounts read heard chunks exit late) {capacity : Nat} {info : ExitInfo}
    {r' : Run} (hphase : r.phase = .removed info)
    (hoffer : Supervisor.offer capacity r (.exited info) = some r') :
    { r' with phase := .reported }.Accounts read heard chunks (some info) late := by
  have hexit : exit = none := h.exit_eq_none (by simp [hphase])
  subst hexit
  obtain rfl := h.punctual rfl
  have hevents := h.events_offer hoffer (ProcessEvent.told_exited chunks info)
  obtain ⟨hpump, _, _⟩ := offer_same hoffer
  refine ⟨fun stream => ?_, fun stream => ?_, by simp, fun _ => rfl, hevents⟩
  · have htexts := h.texts stream
    rw [← hpump] at htexts
    exact htexts
  · have htail := h.tail stream
    rw [← hpump] at htail
    exact htail

/-- Somebody takes an event. -/
theorem takes (h : r.Accounts read heard chunks exit late) :
    { r with queue := r.queue.drop 1 }.Accounts read (heard ++ r.queue.head?.toList) chunks
      exit late := by
  refine ⟨h.texts, h.tail, h.reported, h.punctual, ?_⟩
  have hevents := h.events
  cases hwatched : r.watched with
  | true =>
      simp only [hwatched, if_true] at hevents ⊢
      rw [List.append_assoc, ← List.take_one, List.take_append_drop, hevents]
  | false =>
      simp only [hwatched, Bool.false_eq_true, if_false] at hevents ⊢
      simpa [hevents.1] using hevents.2

/-- Nobody listens any more. -/
theorem leaves (h : r.Accounts read heard chunks exit late) :
    { r with queue := [], watched := false }.Accounts read heard chunks exit late := by
  refine ⟨h.texts, h.tail, h.reported, h.punctual, ?_⟩
  have hevents := h.events
  cases hwatched : r.watched with
  | true =>
      simp only [hwatched, if_true] at hevents
      exact ⟨rfl, hevents ▸ List.prefix_append _ _⟩
  | false =>
      simp only [hwatched, Bool.false_eq_true, if_false] at hevents
      exact ⟨rfl, hevents.2⟩

/-- Whatever step is taken, the account stays in order.  A text comes late only if the exit has
been reported while a worker was at a pump. -/
theorem next (h : r.Accounts read heard chunks exit late) (capacity : Nat)
    (what : Supervisor.Step) :
    ∃ chunks' exit' late', (r.next capacity what).Accounts
      (fun stream => read stream ++ r.reads stream what) (heard ++ r.hears what) chunks'
      exit' late' ∧ (late' = late ∨ r.phase = .reported ∧ r.isAtRest = false) := by
  have hmoves := r.next_moves capacity what
  generalize r.next capacity what = r' at hmoves ⊢
  cases hmoves with
  | idle hreads hhears => exact ⟨chunks, exit, late, h.silent hreads hhears, Or.inl rfl⟩
  | @attended stream _ =>
      exact ⟨chunks, exit, late, by simpa [reads, hears] using h.attended stream true, Or.inl rfl⟩
  | @unattended stream =>
      exact ⟨chunks, exit, late, by simpa [reads, hears] using h.attended stream false,
        Or.inl rfl⟩
  | @read stream piece hdue =>
      exact ⟨chunks, exit, late, by simpa [reads, hears, hdue] using h.read_piece hdue piece,
        Or.inl rfl⟩
  | finished hdue =>
      exact ⟨chunks, exit, late, by simpa [reads, hears] using h.read_end hdue, Or.inl rfl⟩
  | delivered hheld hattended hoffer =>
      obtain ⟨chunks', late', haccounts, hlate⟩ := h.delivered hheld hoffer
      have hworks : r.isAtRest = false :=
        isAtRest_eq_false hattended (by simp [Pump.isDone, hheld])
      exact ⟨chunks', exit, late', by simpa [reads, hears] using haccounts,
        hlate.imp_right fun hphase => ⟨hphase, hworks⟩⟩
  -- The monitor goes on, and has not yet reported the exit.
  | exited hphase | drained hphase | givenUp hphase | removed hphase =>
      refine ⟨chunks, exit, late, ?_, Or.inl rfl⟩
      simp only [reads, hears, List.append_nil]
      exact h.withPhase (by simp [hphase]) (by simp)
  | reported hphase hoffer =>
      exact ⟨chunks, some _, late, by simpa [reads, hears] using h.reports hphase hoffer,
        Or.inl rfl⟩
  | taken => exact ⟨chunks, exit, late, by simpa [reads, hears] using h.takes, Or.inl rfl⟩
  | left => exact ⟨chunks, exit, late, by simpa [reads, hears] using h.leaves, Or.inl rfl⟩

end Accounts

/-! ## The end of a run -/

/-- Steps that bring a run to its end, wherever it is. -/
def ending (r : Run) : List Supervisor.Step :=
  [.exit ⟨none⟩, .giveUp, .remove] ++ List.replicate r.queue.length .take ++ [.report, .take]

theorem leave_not_mem_ending (r : Run) : .leave ∉ r.ending := by
  simp [ending]

/-- Once its exit is observed and its pumps are given up, the key of a run is freed. -/
theorem freed_next (capacity : Nat) (r : Run) (info : ExitInfo) :
    let r' := ((r.next capacity (.exit info)).next capacity .giveUp).next capacity .remove
    r'.queue = r.queue ∧ (r'.phase = .reported ∨ ∃ info', r'.phase = .removed info') := by
  cases hphase : r.phase <;> simp [next, hphase]

theorem foldl_take (capacity : Nat) (r : Run) (n : Nat) :
    (List.replicate n Supervisor.Step.take).foldl (next capacity) r =
      { r with queue := r.queue.drop n } := by
  induction n generalizing r with
  | zero => rfl
  | succ n ih =>
      rw [List.replicate_succ, List.foldl_cons, ih]
      simp [next]

/-- With an empty queue the exit is reported and heard. -/
theorem reported_next {capacity : Nat} (hcapacity : 0 < capacity) {r : Run}
    (hqueue : r.queue = []) (hphase : r.phase = .reported ∨ ∃ info, r.phase = .removed info) :
    let r' := (r.next capacity .report).next capacity .take
    r'.phase = .reported ∧ r'.queue = [] := by
  rcases hphase with hphase | ⟨info, hphase⟩
  · simp [next, hphase, hqueue]
  · cases hwatched : r.watched <;>
      simp [next, hphase, hqueue, Supervisor.offer, hwatched, hcapacity]

/-- A run can come to its end from everywhere. -/
theorem ended_ending {capacity : Nat} (hcapacity : 0 < capacity) (r : Run) :
    let r' := r.ending.foldl (next capacity) r
    r'.phase = .reported ∧ r'.queue = [] := by
  obtain ⟨hqueue, hphase⟩ := freed_next capacity r ⟨none⟩
  simp only [ending, List.foldl_append, List.foldl_cons, List.foldl_nil, foldl_take]
  refine reported_next hcapacity ?_ hphase
  change List.drop _ _ = []
  rw [hqueue, List.drop_length]

end Run
end Notebook
