import Mathlib.Data.List.Induction
import Notebook.Proofs.Process.Hosts

/-!
# Handles

Whoever runs a process gets a handle, from which events are taken one by one.  Whatever
happens on the host in the meantime, the handle yields the texts of both streams, each in
the order in which its pieces were read, and the exit once.  When the exit is there to be
taken, the key has been freed.

The exit should come last.  So it does when both pumps have come to their ends.  But a monitor
that gives up on its pumps does not wait until no worker is at them, and a worker that is still
at one when the exit is reported may put a text behind it.  What a pump that was given up holds
may be lost as well.

* `accounts_after`: what has been read and heard agrees at every point of a history.
* `taken_of_isRunning`: a key that has been freed is taken again only by another run.
* `exit_heard_last`: the events of a handle, for every history.
* `exit_overtaken`: a text behind the exit, and a text that is lost.
-/

set_option autoImplicit false

namespace Notebook

/-- What is told in part is told; what does not come late at all does not come late. -/
theorem ProcessEvent.told_of_prefix {chunks late : List (OutputStream × String)}
    {exit : Option ExitInfo} {events : List ProcessEvent} (h : events <+: told chunks exit late)
    (hpunctual : exit = none → late = []) :
    ∃ chunks' exit' late', events = told chunks' exit' late' ∧ (exit' = none → late' = []) ∧
      late' <+: late ∧ chunks' ++ late' <+: chunks ++ late := by
  induction chunks generalizing events with
  | nil =>
      cases exit with
      | none =>
          obtain rfl := hpunctual rfl
          exact ⟨[], none, [], List.prefix_nil.mp h, fun _ => rfl, List.nil_prefix,
            List.prefix_rfl⟩
      | some info =>
          rcases List.prefix_cons_iff.mp h with rfl | ⟨rest, rfl, hrest⟩
          · exact ⟨[], none, [], rfl, fun _ => rfl, List.nil_prefix, List.nil_prefix⟩
          · obtain ⟨late', hlate, rfl⟩ := List.prefix_map_iff.mp hrest
            exact ⟨[], some info, late', rfl, nofun, hlate, hlate⟩
  | cons chunk chunks ih =>
      rcases List.prefix_cons_iff.mp h with rfl | ⟨rest, rfl, hrest⟩
      · exact ⟨[], none, [], rfl, fun _ => rfl, List.nil_prefix, List.nil_prefix⟩
      · obtain ⟨chunks', exit', late', rfl, hpunctual', hlate, hchunks⟩ := ih hrest
        exact ⟨chunk :: chunks', exit', late', rfl, hpunctual', hlate,
          (List.prefix_cons_inj chunk).mpr hchunks⟩

theorem ProcessEvent.eq_some_of_exited_mem_told {chunks late : List (OutputStream × String)}
    {exit : Option ExitInfo} {info : ExitInfo} (h : .exited info ∈ told chunks exit late) :
    exit = some info := by
  simpa [told, ofChunk] using h

theorem OutputStream.texts_prefix (stream : OutputStream)
    {chunks chunks' : List (OutputStream × String)} (h : chunks' <+: chunks) :
    stream.texts chunks' <+: stream.texts chunks :=
  (h.filter _).map _

namespace Host

/-- The events that wait in the queue of a run. -/
def queued (h : Host) (generation : Nat) : List ProcessEvent :=
  ((h.supervisor.runs.find? generation).map (·.queue)).getD []

/-- The pieces that an act reads from a stream of a run. -/
def readBy (generation : Nat) (stream : OutputStream) (h : Host) : Act → List (List UInt8)
  | .step generation' what =>
    if generation' = generation then
      ((h.supervisor.runs.find? generation).map (·.reads stream what)).getD []
    else []
  | _ => []

/-- The events that an act takes from the queue of a run. -/
def heardBy (generation : Nat) (h : Host) : Act → List ProcessEvent
  | .step generation' .take =>
    if generation' = generation then (h.supervisor.nextEvent? generation).toList else []
  | _ => []

/-- The pieces that are read from a stream of a run in a history. -/
def piecesRead (h : Host) (generation : Nat) (stream : OutputStream) (acts : List Act) :
    List (List UInt8) :=
  gather act (readBy generation stream) h acts

/-- What the handle of a run yields in a history. -/
def heard (h : Host) (generation : Nat) (acts : List Act) : List ProcessEvent :=
  gather act (heardBy generation) h acts

/-- The run as it is when an act reports its exit. -/
def atReportBy (generation : Nat) (h : Host) : Act → List Run
  | .step generation' what =>
    if generation' = generation then
      ((h.supervisor.runs.find? generation).map
        (·.atReport h.supervisor.capacity what)).getD []
    else []
  | _ => []

/-- The run as it is when its exit is reported in a history. -/
def atReport (h : Host) (generation : Nat) (acts : List Act) : List Run :=
  gather act (atReportBy generation) h acts

/-! ## One run in a history -/

theorem coherent_act {h : Host} (hh : h.supervisor.Coherent) (a : Act) :
    (h.act a).supervisor.Coherent := by
  rcases act_cases h a with ⟨hsame, _⟩ | ⟨key, _, pid, _, hfree, _, _, heq⟩ | ⟨g, what, _, _, heq⟩
  · exact hsame ▸ hh
  · exact heq ▸ hh.started hfree pid
  · exact heq ▸ hh.step g what

theorem coherent_after {h : Host} (hh : h.supervisor.Coherent) (acts : List Act) :
    (h.after acts).supervisor.Coherent := by
  induction acts generalizing h with
  | nil => exact hh
  | cons a rest ih => exact ih (coherent_act hh a)

theorem capacity_act (h : Host) (a : Act) :
    (h.act a).supervisor.capacity = h.supervisor.capacity := by
  rcases act_cases h a with ⟨hsame, _⟩ | ⟨key, _, pid, _, _, _, _, heq⟩ | ⟨g, what, _, _, heq⟩
  · rw [hsame]
  · rw [heq, Supervisor.started]
  · rw [heq, Supervisor.capacity_step]

theorem capacity_after (h : Host) (acts : List Act) :
    (h.after acts).supervisor.capacity = h.supervisor.capacity := by
  induction acts generalizing h with
  | nil => rfl
  | cons a rest ih => exact (ih (h.act a)).trans (capacity_act h a)

theorem after_snoc (h : Host) (acts : List Act) (a : Act) :
    h.after (acts ++ [a]) = (h.after acts).act a :=
  List.foldl_append

/-- Only its own steps concern a run. -/
theorem find?_runs_act {h : Host} (hh : h.supervisor.Coherent) {g : Nat} {r : Run}
    (hr : h.supervisor.runs.find? g = some r) (a : Act) :
    (∃ what, a = .step g what ∧
      (h.act a).supervisor.runs.find? g = some (r.next h.supervisor.capacity what)) ∨
    (∀ what, a ≠ .step g what) ∧ (h.act a).supervisor.runs.find? g = some r := by
  rcases act_cases h a with ⟨hsame, _, hnot⟩ | ⟨key, _, pid, rfl, _, _, _, heq⟩ |
    ⟨g', what, rfl, _, heq⟩
  · exact Or.inr ⟨hnot g, by rw [hsame, hr]⟩
  · have hpast := hh.past g r hr
    have hne : h.supervisor.nextGeneration ≠ g := by omega
    exact Or.inr ⟨nofun, by rw [heq, Supervisor.started, Table.find?_set, if_neg hne, hr]⟩
  · by_cases hg : g' = g
    · subst hg
      exact Or.inl ⟨what, rfl, by rw [heq, Supervisor.find?_runs_step, hr, Option.map_some]⟩
    · refine Or.inr ⟨fun _ h => hg (Act.step.inj h).1, ?_⟩
      rw [heq, Supervisor.find?_runs_step_of_ne _ hg, hr]

theorem readBy_step {h : Host} {g : Nat} {r : Run} (hr : h.supervisor.runs.find? g = some r)
    (stream : OutputStream) (what : Supervisor.Step) :
    h.readBy g stream (.step g what) = r.reads stream what := by
  simp [readBy, hr]

theorem heardBy_step {h : Host} {g : Nat} {r : Run} (hr : h.supervisor.runs.find? g = some r)
    (what : Supervisor.Step) : h.heardBy g (.step g what) = r.hears what := by
  cases what <;> simp [heardBy, Run.hears, Supervisor.nextEvent?, hr]

theorem atReportBy_step {h : Host} {g : Nat} {r : Run}
    (hr : h.supervisor.runs.find? g = some r) (what : Supervisor.Step) :
    h.atReportBy g (.step g what) = r.atReport h.supervisor.capacity what := by
  simp [atReportBy, hr]

theorem atReport_snoc (h : Host) (g : Nat) (acts : List Act) (a : Act) :
    h.atReport g (acts ++ [a]) = h.atReport g acts ++ (h.after acts).atReportBy g a :=
  gather_snoc act _ h acts a

/-- What is not a step of a run yields nothing of it. -/
theorem silent_act (h : Host) {g : Nat} {a : Act} (ha : ∀ what, a ≠ .step g what) :
    (∀ stream, h.readBy g stream a = []) ∧ h.heardBy g a = [] ∧ h.atReportBy g a = [] := by
  cases a with
  | step g' what =>
      have hg : g' ≠ g := by
        rintro rfl
        exact ha what rfl
      exact ⟨fun _ => if_neg hg, by cases what <;> simp [heardBy, hg], if_neg hg⟩
  | _ => exact ⟨fun _ => rfl, rfl, rfl⟩

/-- At every point, what has been read from a run and heard of it is in order.  Nothing comes
late if the pumps rest when the exit is reported. -/
theorem accounts_after {h : Host} (hh : h.supervisor.Coherent) {g : Nat} {r : Run}
    (hr : h.supervisor.runs.find? g = some r) (hfresh : r.Accounts (fun _ => []) [] [] none [])
    (acts : List Act) :
    ∃ r' chunks exit late, (h.after acts).supervisor.runs.find? g = some r' ∧
      r'.Accounts (h.piecesRead g · acts) (h.heard g acts) chunks exit late ∧
      ((∀ r₀ ∈ h.atReport g acts, r₀.isAtRest = true) →
        late = [] ∧ (r'.phase = .reported → r'.isAtRest = true)) := by
  induction acts using List.reverseRecOn with
  | nil =>
      refine ⟨r, [], none, [], hr, hfresh, fun _ => ⟨rfl, fun hphase => ?_⟩⟩
      have hnone := hfresh.reported.mpr hphase
      cases hnone
  | append_singleton acts a ih =>
      obtain ⟨r', chunks, exit, late, hr', haccounts, hrests⟩ := ih
      simp only [piecesRead, heard, gather_snoc, after_snoc, atReport_snoc,
        List.forall_mem_append] at haccounts hrests ⊢
      change ∃ (r'' : Run) (chunks : _) (exit : _) (late : _), _ ∧ r''.Accounts
        (fun stream => _ ++ (h.after acts).readBy g stream a) (_ ++ (h.after acts).heardBy g a)
        chunks exit late ∧ _
      rcases find?_runs_act (coherent_after hh acts) hr' a with ⟨what, rfl, hnext⟩ | ⟨ha, hsame⟩
      · obtain ⟨chunks', exit', late', hnew, hlate⟩ :=
          haccounts.next (h.after acts).supervisor.capacity what
        refine ⟨_, chunks', exit', late', hnext, ?_, ?_⟩
        · simpa only [readBy_step hr', heardBy_step hr'] using hnew
        · rintro ⟨hearlier, hnow⟩
          rw [atReportBy_step hr'] at hnow
          obtain ⟨hpunctual, hsettled⟩ := hrests hearlier
          refine ⟨?_, Run.isAtRest_of_reported hsettled hnow⟩
          rcases hlate with rfl | ⟨hphase, hworks⟩
          · exact hpunctual
          · rw [hsettled hphase] at hworks
            cases hworks
      · obtain ⟨hread, hheard, -⟩ := silent_act (h.after acts) ha
        refine ⟨r', chunks, exit, late, hsame, ?_, fun hall => hrests hall.1⟩
        simpa only [hread, hheard, List.append_nil] using haccounts

/-- Unless its pumps are given up, they rest when the exit of a run is reported. -/
theorem isAtRest_atReport {h : Host} (hh : h.supervisor.Coherent) {g : Nat} {r : Run}
    (hr : h.supervisor.runs.find? g = some r) (hpumping : r.isPumping = true) {acts : List Act}
    (hgiven : .step g .giveUp ∉ acts) : ∀ r₀ ∈ h.atReport g acts, r₀.isAtRest = true := by
  suffices hall : (∀ r₀ ∈ h.atReport g acts, r₀.isAtRest = true) ∧
      ∃ r', (h.after acts).supervisor.runs.find? g = some r' ∧
        (r'.isPumping = false → r'.isAtRest = true) from hall.1
  induction acts using List.reverseRecOn with
  | nil =>
      refine ⟨List.forall_mem_nil _, r, hr, fun hnot => ?_⟩
      rw [hpumping] at hnot
      cases hnot
  | append_singleton acts a ih =>
      rw [List.mem_append, not_or] at hgiven
      obtain ⟨hearlier, r', hr', hrest⟩ := ih hgiven.1
      rw [atReport_snoc, List.forall_mem_append, after_snoc]
      rcases find?_runs_act (coherent_after hh acts) hr' a with ⟨what, rfl, hnext⟩ | ⟨ha, hsame⟩
      · rw [atReportBy_step hr']
        refine ⟨⟨hearlier, fun r₀ hr₀ => ?_⟩, _, hnext,
          Run.isAtRest_next_of_ne_giveUp hrest ?_ _⟩
        · rw [(Run.mem_atReport_iff.mp hr₀).1]
          exact hrest (Run.isPumping_of_mem_atReport hr₀)
        · rintro rfl
          exact hgiven.2 List.mem_cons_self
      · rw [(silent_act _ ha).2.2]
        exact ⟨⟨hearlier, List.forall_mem_nil _⟩, r', hsame, hrest⟩

/-- Somebody listens until they leave. -/
theorem watched_after {h : Host} (hh : h.supervisor.Coherent) {g : Nat} {r : Run}
    (hr : h.supervisor.runs.find? g = some r) (acts : List Act) (hkept : .step g .leave ∉ acts) :
    ∃ r', (h.after acts).supervisor.runs.find? g = some r' ∧ r'.watched = r.watched := by
  induction acts generalizing h r with
  | nil => exact ⟨r, hr, rfl⟩
  | cons a rest ih =>
      rw [List.mem_cons, not_or] at hkept
      rcases find?_runs_act hh hr a with ⟨what, rfl, hnext⟩ | ⟨_, hsame⟩
      · obtain ⟨r', hr', hwatched⟩ := ih (coherent_act hh _) hnext hkept.2
        refine ⟨r', hr', hwatched.trans (Run.watched_next _ _ ?_)⟩
        rintro rfl
        exact hkept.1 rfl
      · exact ih (coherent_act hh _) hsame hkept.2

/-- The steps of one run, one after another. -/
theorem find?_runs_steps {h : Host} (hh : h.supervisor.Coherent) {g : Nat} {r : Run}
    (hr : h.supervisor.runs.find? g = some r) (steps : List Supervisor.Step) :
    (h.after (steps.map (.step g))).supervisor.runs.find? g =
      some (steps.foldl (Run.next h.supervisor.capacity) r) := by
  induction steps generalizing h r with
  | nil => exact hr
  | cons what rest ih =>
      have hnext : (h.act (.step g what)).supervisor.runs.find? g =
          some (r.next h.supervisor.capacity what) := by
        change (h.supervisor.step g what).runs.find? g = _
        rw [Supervisor.find?_runs_step, hr, Option.map_some]
      have hrest := ih (coherent_act hh _) hnext
      rwa [capacity_act] at hrest

/-- A key that one run has held is taken again only by another run. -/
theorem taken_of_isRunning {h : Host} (hh : h.supervisor.Coherent) {key : ProcessKey}
    {g pid : Nat} (hown : h.supervisor.records.find? key = some ⟨pid, g⟩) (acts : List Act)
    {record : ProcessRecord}
    (hrecord : (h.after acts).supervisor.records.find? key = some record)
    (hother : record.generation ≠ g) :
    ∃ earlier spawn later other, acts = earlier ++ .run key spawn :: later ∧
      ((h.after earlier).runWith key spawn).1 = .ok other := by
  induction acts using List.reverseRecOn with
  | nil =>
      obtain rfl := Option.some.inj (hown.symm.trans hrecord)
      exact absurd rfl hother
  | append_singleton acts a ih =>
      rw [after_snoc] at hrecord
      -- The record is an old one, unless this act has made it.
      have hold : (h.after acts).supervisor.records.find? key = some record →
          ∃ earlier spawn later other, acts ++ [a] = earlier ++ .run key spawn :: later ∧
            ((h.after earlier).runWith key spawn).1 = .ok other := by
        intro hbefore
        obtain ⟨earlier, spawn, later, other, rfl, hok⟩ := ih hbefore
        exact ⟨earlier, spawn, later ++ [a], other, by simp, hok⟩
      rcases act_cases (h.after acts) a with ⟨hsame, _⟩ |
        ⟨key', spawn, pid', rfl, _, hok, _, heq⟩ | ⟨g', what, _, _, heq⟩
      · exact hold (hsame ▸ hrecord)
      · by_cases hkey : key' = key
        · subst hkey
          exact ⟨acts, spawn, [], _, rfl, hok⟩
        · rw [heq, Supervisor.started, Table.find?_set, if_neg hkey] at hrecord
          exact hold hrecord
      · exact hold ((coherent_after hh acts).records_step (heq ▸ hrecord))

/-! ## The events of a handle -/

theorem isOver_iff {h : Host} {g : Nat} {r : Run} (hr : h.supervisor.runs.find? g = some r) :
    isOver g h = true ↔ r.phase = .reported ∧ r.queue = [] := by
  unfold isOver
  rw [hr]
  cases hphase : r.phase <;> simp [hphase]

/-- What has been heard and waits to be heard is told of the run. -/
theorem heard_prefix {h : Host} {g : Nat} {r : Run} (hr : h.supervisor.runs.find? g = some r)
    {read : OutputStream → List (List UInt8)} {heard : List ProcessEvent}
    {chunks late : List (OutputStream × String)} {exit : Option ExitInfo}
    (haccounts : r.Accounts read heard chunks exit late) :
    heard ++ h.queued g <+: ProcessEvent.told chunks exit late := by
  have hevents := haccounts.events
  simp only [queued, hr, Option.map_some, Option.getD_some]
  split at hevents
  · exact hevents ▸ List.prefix_rfl
  · rw [hevents.1, List.append_nil]
    exact hevents.2

/-- The record of a run that has been reported is gone. -/
theorem generation_ne_of_reported {h : Host} (hh : h.supervisor.Coherent) {g : Nat} {r : Run}
    (hr : h.supervisor.runs.find? g = some r) (hphase : r.phase = .reported)
    {key : ProcessKey} {record : ProcessRecord}
    (hrecord : h.supervisor.records.find? key = some record) : record.generation ≠ g := by
  rintro rfl
  obtain ⟨r', hr', _, _, hlive⟩ := hh.owned key record hrecord
  obtain rfl := Option.some.inj (hr.symm.trans hr')
  rw [hphase] at hlive
  cases hlive

/-- Start a process after any history of the host, and let anything happen.  The handle has
yielded and will yield next: texts of both streams, each stream's in the order in which its
pieces were read, and at most one exit.  The exit comes last if no worker is at a pump that is
not done when it is reported, and so it is unless the pumps have been given up.  Once the exit
is there, the record of the process is gone, and a run for its key is not refused unless another
run has taken the key in the meantime.  If somebody listens to the end, they have heard the
exit, and from everywhere the end can be reached. -/
theorem exit_heard_last (disk : Disk) (capacity : Nat) (before after : List Act)
    (key : ProcessKey) (spawn : Host → Except SpawnFailure Nat × Host) (g pid : Nat)
    (hrun : (((new disk capacity).after before).runWith key spawn).1 = .ok (g, pid)) :
    let joined := (((new disk capacity).after before).runWith key spawn).2
    let now := joined.after after
    let rests := ∀ r ∈ joined.atReport g after, r.isAtRest = true
    (∃ chunks exit late,
      joined.heard g after ++ now.queued g = ProcessEvent.told chunks exit late ∧
      (exit = none → late = []) ∧ (rests → late = []) ∧
      ∀ stream : OutputStream,
        stream.texts (chunks ++ late) <+: Stream.chunks none (joined.piecesRead g stream after)) ∧
    (.step g .giveUp ∉ after → rests) ∧
    (∀ info, .exited info ∈ joined.heard g after ++ now.queued g →
      (∀ record, now.supervisor.records.find? key = some record → record.generation ≠ g) ∧
      ∀ spawn', (now.runWith key spawn').1 = .error (.alreadyRunning key) →
        ∃ earlier spawn'' later other, after = earlier ++ .run key spawn'' :: later ∧
          ((joined.after earlier).runWith key spawn'').1 = .ok other) ∧
    (.step g .leave ∉ after → isOver g now = true → ∃ chunks info late,
      joined.heard g after = ProcessEvent.told chunks (some info) late ∧ (rests → late = [])) ∧
    ∃ rest, .step g .leave ∉ rest ∧ isOver g (now.after rest) = true := by
  intro joined now rests
  obtain ⟨hfree, hg, hstarted⟩ := of_runWith_eq_ok hrun
  have hold : ((new disk capacity).after before).supervisor.Coherent :=
    coherent_after (Supervisor.coherent_new capacity) before
  have hjoined : joined.supervisor.Coherent := hstarted ▸ hold.started hfree pid
  have hnow : now.supervisor.Coherent := coherent_after hjoined after
  have hown : joined.supervisor.records.find? key = some ⟨pid, g⟩ := by
    rw [hstarted, Supervisor.started, Table.find?_set, if_pos rfl, hg]
  have hfind : joined.supervisor.runs.find? g =
      some ⟨key, pid, .fresh, .fresh, [], .waiting, true⟩ := by
    rw [hstarted, Supervisor.started, Table.find?_set, if_pos hg.symm]
  obtain ⟨r, chunks, exit, late, hr, haccounts, hrests⟩ :=
    accounts_after hjoined hfind (Run.Accounts.fresh key pid) after
  have htold := heard_prefix hr haccounts
  refine ⟨?_, isAtRest_atReport hjoined hfind rfl, fun info hinfo => ?_, fun hkept hover => ?_,
    ?_⟩
  · obtain ⟨chunks', exit', late', heq, hpunctual, hlate, hchunks⟩ :=
      ProcessEvent.told_of_prefix htold haccounts.punctual
    refine ⟨chunks', exit', late', heq, hpunctual, fun hall => ?_, fun stream =>
      (stream.texts_prefix hchunks).trans (haccounts.texts_prefix stream)⟩
    rw [(hrests hall).1] at hlate
    exact List.prefix_nil.mp hlate
  · have hphase : r.phase = .reported := by
      rw [← haccounts.reported, ProcessEvent.eq_some_of_exited_mem_told (htold.subset hinfo)]
      rfl
    refine ⟨fun record hrecord => generation_ne_of_reported hnow hr hphase hrecord,
      fun spawn' hrefused => ?_⟩
    obtain ⟨record, hrecord⟩ : ∃ record, now.supervisor.records.find? key = some record := by
      rcases runWith_cases now key spawn' with ⟨hrunning, _⟩ | ⟨_, ⟨_, heq⟩ | ⟨_, heq⟩⟩
      · exact Option.isSome_iff_exists.mp hrunning
      · rw [heq] at hrefused
        cases hrefused
      · rw [heq] at hrefused
        cases hrefused
    exact taken_of_isRunning hjoined hown after hrecord
      (generation_ne_of_reported hnow hr hphase hrecord)
  · obtain ⟨r', hr', hwatched⟩ := watched_after hjoined hfind after hkept
    obtain rfl := Option.some.inj (hr.symm.trans hr')
    obtain ⟨hphase, hqueue⟩ := (isOver_iff hr).mp hover
    obtain ⟨info, rfl⟩ := Option.isSome_iff_exists.mp (haccounts.reported.mpr hphase)
    have hevents := haccounts.events
    rw [hwatched, if_pos rfl, hqueue, List.append_nil] at hevents
    exact ⟨chunks, info, late, hevents, fun hall => (hrests hall).1⟩
  · have hpositive : 0 < now.supervisor.capacity := by
      rw [capacity_after, hstarted, Supervisor.started, capacity_after]
      exact Nat.le_max_left 1 capacity
    have hsteps := find?_runs_steps hnow hr r.ending
    refine ⟨r.ending.map (.step g), ?_, (isOver_iff hsteps).mpr (r.ended_ending hpositive)⟩
    rw [List.mem_map]
    rintro ⟨what, hwhat, heq⟩
    obtain rfl := (Act.step.inj heq).2
    exact r.leave_not_mem_ending hwhat

/-- A process writes to both streams and is stopped, and its pumps are given up at rest.  Its
exit is the last that is heard of it, and by then another process has taken its key. -/
theorem exit_heard_last_stopped :
    let key : ProcessKey := ⟨⟨"s"⟩, ⟨"c"⟩⟩
    let spawn (pid : Nat) (h : Host) : Except SpawnFailure Nat × Host := (.ok pid, h)
    let start := ((new .empty 2).after []).runWith key (spawn 7)
    let history : List Act :=
      [.step 1 (.attend .stdout), .step 1 (.read .stdout [195]), .step 1 (.attend .stderr),
        .step 1 (.read .stdout [169]), .step 1 (.read .stderr [33]), .step 1 (.deliver .stderr),
        .step 1 (.deliver .stdout), .stop key, .step 1 (.exit ⟨none⟩), .step 1 .giveUp,
        .step 1 .remove, .run key (spawn 8), .step 1 (.unattend .stdout),
        .step 1 (.unattend .stderr), .step 1 .take, .step 1 .report, .step 1 .take,
        .step 1 .take]
    start.1 = .ok (1, 7) ∧ .step 1 .leave ∉ history ∧
      isOver 1 (start.2.after history) = true ∧
      (∀ r ∈ start.2.atReport 1 history, r.isAtRest = true) ∧
      (∃ chunks info, start.2.heard 1 history = ProcessEvent.told chunks (some info) []) ∧
      ∃ earlier spawn' later other, history = earlier ++ .run key spawn' :: later ∧
        ((start.2.after earlier).runWith key spawn').1 = .ok other := by
  intro key spawn start history
  have hrun : start.1 = .ok (1, 7) := rfl
  have hkept : .step 1 .leave ∉ history := by simp [history]
  have hover : isOver 1 (start.2.after history) = true := by decide +kernel
  have hrests : ∀ r ∈ start.2.atReport 1 history, r.isAtRest = true := by decide +kernel
  have hexited : .exited ⟨none⟩ ∈
      start.2.heard 1 history ++ (start.2.after history).queued 1 := by decide +kernel
  have hrunning : (start.2.after history).supervisor.isRunning key = true := by decide +kernel
  have hrefused : ((start.2.after history).runWith key (spawn 9)).1 =
      .error (.alreadyRunning key) := by rw [runWith_of_isRunning _ hrunning]
  obtain ⟨_, _, hfreed, hlast, _⟩ :=
    exit_heard_last .empty 2 [] history key (spawn 7) 1 7 hrun
  obtain ⟨chunks, info, late, hheard, hpunctual⟩ := hlast hkept hover
  rw [hpunctual hrests] at hheard
  exact ⟨hrun, hkept, hover, hrests, ⟨chunks, info, hheard⟩,
    (hfreed ⟨none⟩ hexited).2 (spawn 9) hrefused⟩

/-- The pumps of a process that has exited are given up while a worker is at one of them.  It
goes on, and its text comes behind the exit.  And a pump that holds a text for want of room is
given up while nobody is at it: the text has been read and is never heard. -/
theorem exit_overtaken :
    let key : ProcessKey := ⟨⟨"s"⟩, ⟨"c"⟩⟩
    let start := ((new .empty 1).after []).runWith key fun h => (.ok 7, h)
    let end_ : List Act := [.step 1 (.exit ⟨some 0⟩), .step 1 .giveUp, .step 1 .remove]
    let late : List Act := [.step 1 (.attend .stdout), .step 1 (.read .stdout [33])] ++ end_ ++
      [.step 1 .report, .step 1 .take, .step 1 (.deliver .stdout), .step 1 .take]
    let lost : List Act := [.step 1 (.attend .stdout), .step 1 (.read .stdout [97]),
      .step 1 (.deliver .stdout), .step 1 (.read .stdout [98]), .step 1 (.unattend .stdout)] ++
      end_ ++ [.step 1 .take, .step 1 .report, .step 1 .take]
    start.1 = .ok (1, 7) ∧
      start.2.heard 1 late = [.exited ⟨some 0⟩, .output .stdout "!"] ∧
      (¬∃ chunks exit, start.2.heard 1 late = ProcessEvent.told chunks exit []) ∧
      isOver 1 (start.2.after lost) = true ∧
      Stream.chunks none (start.2.piecesRead 1 .stdout lost) = ["a", "b"] ∧
      start.2.heard 1 lost = [.output .stdout "a", .exited ⟨some 0⟩] := by
  intro key start end_ late lost
  have hlate : start.2.heard 1 late = [.exited ⟨some 0⟩, .output .stdout "!"] := by
    decide +kernel
  refine ⟨rfl, hlate, ?_, by decide +kernel, by decide +kernel, by decide +kernel⟩
  rw [hlate]
  rintro ⟨chunks, exit, htold⟩
  -- Whatever is told without delay ends with the exit.
  cases exit with
  | none =>
      have hmem : (.exited ⟨some 0⟩ : ProcessEvent) ∈ ProcessEvent.told chunks none [] :=
        htold ▸ List.mem_cons_self
      simp [ProcessEvent.told, ProcessEvent.ofChunk] at hmem
  | some info =>
      have hlast := congrArg List.getLast? htold
      simp [ProcessEvent.told] at hlast

end Host
end Notebook
