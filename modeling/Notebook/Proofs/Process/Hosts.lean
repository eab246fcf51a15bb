import Notebook.Process.Host
import Notebook.Proofs.Process.Runs

/-!
# Histories of a host

Processes are run, stopped and killed on a host, in any order and for any keys, while pumps
and monitors take their steps and the machine goes on.  A run may fail for any reason, and
every step may come at any time: a step that is not due changes nothing.

* `run_eq_runWith`: `Host.run` is one of the runs that histories are made of.
* `act_cases`: what an act does to the supervisor.
* `Registered.act`: an act keeps the books in order.
* `records_match_runs`: at every point the records are those of the successful runs whose
  monitor has not freed their key.
-/

set_option autoImplicit false

namespace Notebook

open Unix (Machine Signal)

namespace Host

/-- Runs a process; `spawn` starts it, or says why it cannot be started. -/
def runWith (h : Host) (key : ProcessKey) (spawn : Host → Except SpawnFailure Nat × Host) :
    Except RunError (Nat × Nat) × Host :=
  let (result, supervisor, world) := h.supervisor.run key spawn h
  (result, { world with supervisor })

/-- Starts the process of a request on the machine. -/
def launch (parent : List (String × String)) (r : RunRequest) (h : Host) :
    Except SpawnFailure Nat × Host :=
  match h.spawner h.machine.disk r with
  | .ok pid => (.ok pid, h.attach parent h.supervisor.nextGeneration r)
  | .error failure => (.error failure, h)

/-- Something that happens on a host. -/
inductive Act where
  /-- Somebody runs a process. -/
  | run (key : ProcessKey) (spawn : Host → Except SpawnFailure Nat × Host)
  | stop (key : ProcessKey)
  | stopSession (session : SessionId)
  | killAll
  /-- A pump or a monitor takes a step, or somebody who listens. -/
  | step (generation : Nat) (what : Supervisor.Step)
  /-- The machine goes on. -/
  | pass (machine : Machine)

/-- The host after something has happened. -/
def act (h : Host) : Act → Host
  | .run key spawn => (h.runWith key spawn).2
  | .stop key => (h.stop key).2
  | .stopSession session => (h.stopSession session).2
  | .killAll => h.killAll
  | .step generation what => h.step generation what
  | .pass machine => { h with machine }

/-- The host after a history. -/
def after (h : Host) (acts : List Act) : Host :=
  acts.foldl act h

/-! ## What an act does -/

theorem run_eq_runWith (h : Host) (parent : List (String × String)) (r : RunRequest) :
    h.run parent r = h.runWith r.key (launch parent r) := by
  cases hkey : h.supervisor.records.contains r.key with
  | true => simp [Host.run, runWith, Supervisor.run, hkey]
  | false =>
      cases hspawn : h.spawner h.machine.disk r <;>
        simp [Host.run, runWith, Supervisor.run, launch, hkey, hspawn, attach]

@[simp]
theorem supervisor_signal (h : Host) (pid : Nat) (s : Signal) :
    (h.signal pid s).2.supervisor = h.supervisor := rfl

@[simp]
theorem supervisor_signalAll (h : Host) (s : Signal) (pids : List Nat) :
    (h.signalAll s pids).2.supervisor = h.supervisor := by
  unfold signalAll
  refine List.foldlRecOn (motive := fun known : Nat × Host => known.2.supervisor = h.supervisor)
    pids _ rfl ?_
  exact fun known hknown pid _ => hknown

/-- Stopping a process does not concern the records. -/
@[simp]
theorem supervisor_stop (h : Host) (key : ProcessKey) :
    (h.stop key).2.supervisor = h.supervisor := by
  unfold stop
  split <;> rfl

@[simp]
theorem supervisor_stopSession (h : Host) (session : SessionId) :
    (h.stopSession session).2.supervisor = h.supervisor :=
  supervisor_signalAll h .term _

@[simp]
theorem supervisor_killAll (h : Host) : h.killAll.supervisor = h.supervisor :=
  supervisor_signalAll h .kill _

/-- A run is refused for a key that is taken, fails, or starts a process. -/
theorem runWith_cases (h : Host) (key : ProcessKey)
    (spawn : Host → Except SpawnFailure Nat × Host) :
    (h.supervisor.isRunning key = true ∧
      h.runWith key spawn = (.error (.alreadyRunning key), h)) ∨
    (h.supervisor.isRunning key = false ∧
      ((∃ failure, h.runWith key spawn =
        (.error (.spawn failure), { (spawn h).2 with supervisor := h.supervisor })) ∨
      ∃ pid, h.runWith key spawn =
        (.ok (h.supervisor.nextGeneration, pid),
          { (spawn h).2 with supervisor := h.supervisor.started key pid }))) := by
  unfold runWith
  rcases Supervisor.run_cases h.supervisor key spawn h with
    ⟨hrunning, heq⟩ | ⟨hfree, ⟨failure, _, heq⟩ | ⟨pid, _, heq⟩⟩
  · exact Or.inl ⟨hrunning, by rw [heq]⟩
  · exact Or.inr ⟨hfree, Or.inl ⟨failure, by rw [heq]⟩⟩
  · exact Or.inr ⟨hfree, Or.inr ⟨pid, by rw [heq]⟩⟩

/-- A run for a key that is taken is refused and starts nothing. -/
theorem runWith_of_isRunning (h : Host) {key : ProcessKey}
    (hrunning : h.supervisor.isRunning key = true)
    (spawn : Host → Except SpawnFailure Nat × Host) :
    h.runWith key spawn = (.error (.alreadyRunning key), h) := by
  rcases runWith_cases h key spawn with ⟨_, heq⟩ | ⟨hfree, _⟩
  · exact heq
  · rw [hfree] at hrunning
    cases hrunning

/-- A run that starts a process. -/
theorem of_runWith_eq_ok {h : Host} {key : ProcessKey}
    {spawn : Host → Except SpawnFailure Nat × Host} {g pid : Nat}
    (hrun : (h.runWith key spawn).1 = .ok (g, pid)) :
    h.supervisor.isRunning key = false ∧ g = h.supervisor.nextGeneration ∧
      (h.runWith key spawn).2.supervisor = h.supervisor.started key pid := by
  rcases runWith_cases h key spawn with ⟨_, heq⟩ | ⟨hfree, ⟨failure, heq⟩ | ⟨pid', heq⟩⟩
  · rw [heq] at hrun
    cases hrun
  · rw [heq] at hrun
    cases hrun
  · rw [heq] at hrun ⊢
    obtain ⟨rfl, rfl⟩ := Prod.mk.inj (Except.ok.inj hrun)
    exact ⟨hfree, rfl, rfl⟩

/-- The runs that an act starts: generation, key and pid. -/
def startedBy (h : Host) : Act → List (Nat × ProcessKey × Nat)
  | .run key spawn =>
    match (h.runWith key spawn).1 with
    | .ok (generation, pid) => [(generation, key, pid)]
    | .error _ => []
  | _ => []

/-- The runs that a history starts. -/
def started (h : Host) (acts : List Act) : List (Nat × ProcessKey × Nat) :=
  gather act startedBy h acts

/-- What an act does to the supervisor: nothing, or it starts a run, or it is a step. -/
theorem act_cases (h : Host) (a : Act) :
    ((h.act a).supervisor = h.supervisor ∧ h.startedBy a = [] ∧
      ∀ generation what, a ≠ .step generation what) ∨
    (∃ key spawn pid, a = .run key spawn ∧ h.supervisor.isRunning key = false ∧
      (h.runWith key spawn).1 = .ok (h.supervisor.nextGeneration, pid) ∧
      h.startedBy a = [(h.supervisor.nextGeneration, key, pid)] ∧
      (h.act a).supervisor = h.supervisor.started key pid) ∨
    ∃ generation what, a = .step generation what ∧ h.startedBy a = [] ∧
      (h.act a).supervisor = h.supervisor.step generation what := by
  cases a with
  | run key spawn =>
      rcases runWith_cases h key spawn with
        ⟨_, heq⟩ | ⟨hfree, ⟨failure, heq⟩ | ⟨pid, heq⟩⟩
      · exact Or.inl ⟨by simp [act, heq], by simp [startedBy, heq], nofun⟩
      · exact Or.inl ⟨by simp [act, heq], by simp [startedBy, heq], nofun⟩
      · exact Or.inr (Or.inl ⟨key, spawn, pid, rfl, hfree, by rw [heq], by simp [startedBy, heq],
          by simp [act, heq]⟩)
  | stop key => exact Or.inl ⟨supervisor_stop h key, rfl, nofun⟩
  | stopSession session => exact Or.inl ⟨supervisor_stopSession h session, rfl, nofun⟩
  | killAll => exact Or.inl ⟨supervisor_killAll h, rfl, nofun⟩
  | step generation what => exact Or.inr (Or.inr ⟨generation, what, rfl, rfl, rfl⟩)
  | pass machine => exact Or.inl ⟨rfl, rfl, nofun⟩

/-! ## Records -/

/-- Whether the monitor of a run has not freed its key. -/
def isHeld (h : Host) (generation : Nat) : Bool :=
  (h.supervisor.runs.find? generation).any (·.phase.isLive)

/-- The books are in order: these runs have been started, each with a generation of its own,
and no key has two records. -/
structure Registered (h : Host) (runs : List (Nat × ProcessKey × Nat)) : Prop where
  coherent : h.supervisor.Coherent
  single : h.supervisor.records.keys.Nodup
  generations : (runs.map (·.1)).Nodup
  runs : ∀ g key pid, (g, key, pid) ∈ runs ↔
    (h.supervisor.runs.find? g).map (fun r => (r.key, r.pid)) = some (key, pid)

theorem registered_new (disk : Disk) (capacity : Nat) : Registered (new disk capacity) [] where
  coherent := Supervisor.coherent_new capacity
  single := List.nodup_nil
  generations := List.nodup_nil
  runs := by simp [new, Supervisor.new]

namespace Registered

variable {h : Host} {runs : List (Nat × ProcessKey × Nat)}

/-- A run that starts gets a generation that no run has had. -/
theorem start (hh : Registered h runs) {key : ProcessKey} {pid : Nat} {h' : Host}
    (hfree : h.supervisor.isRunning key = false)
    (heq : h'.supervisor = h.supervisor.started key pid) :
    Registered h' (runs ++ [(h.supervisor.nextGeneration, key, pid)]) := by
  have hnew : ∀ key' pid', (h.supervisor.nextGeneration, key', pid') ∉ runs := by
    intro key' pid' hmem
    have hfind := (hh.runs _ _ _).mp hmem
    rw [hh.coherent.future] at hfind
    cases hfind
  refine ⟨heq ▸ hh.coherent.started hfree pid, ?_, ?_, fun g key' pid' => ?_⟩
  · rw [heq]
    exact Table.nodup_keys_set _ hh.single _ _
  · rw [List.map_append, List.nodup_append]
    refine ⟨hh.generations, List.nodup_singleton _, ?_⟩
    intro g hg g' hg' hgg'
    obtain ⟨⟨g₁, key', pid'⟩, hmem, hg₁⟩ := List.mem_map.mp hg
    obtain rfl : g' = h.supervisor.nextGeneration := List.mem_singleton.mp hg'
    obtain rfl : g₁ = h.supervisor.nextGeneration := hg₁.trans hgg'
    exact hnew key' pid' hmem
  · rw [heq, List.mem_append, hh.runs, List.mem_singleton]
    simp only [Supervisor.started, Table.find?_set]
    by_cases hg : h.supervisor.nextGeneration = g
    · subst hg
      simp [hh.coherent.future, eq_comm]
    · have hg' : g ≠ h.supervisor.nextGeneration := fun e => hg e.symm
      simp [hg, hg']

/-- An act keeps the books in order. -/
theorem act (hh : Registered h runs) (a : Act) :
    Registered (h.act a) (runs ++ h.startedBy a) := by
  rcases act_cases h a with ⟨hsame, hnone, _⟩ | ⟨key, spawn, pid, _, hfree, _, hone, heq⟩ |
    ⟨g, what, _, hnone, heq⟩
  · rw [hnone, List.append_nil]
    exact ⟨hsame ▸ hh.coherent, hsame ▸ hh.single, hh.generations, hsame ▸ hh.runs⟩
  · rw [hone]
    exact hh.start hfree heq
  · rw [hnone, List.append_nil]
    refine ⟨heq ▸ hh.coherent.step g what, heq ▸ Supervisor.nodup_records_step hh.single g what,
      hh.generations, fun g' key pid => ?_⟩
    rw [heq, Supervisor.identity_step]
    exact hh.runs g' key pid

theorem after (hh : Registered h runs) (acts : List Act) :
    Registered (h.after acts) (runs ++ h.started acts) := by
  induction acts generalizing h runs with
  | nil => simpa [Host.after, started, gather] using hh
  | cons a rest ih =>
      have hrest := ih (hh.act a)
      rwa [List.append_assoc] at hrest

/-- The records are those of the runs whose key is held. -/
theorem mem_records_iff (hh : Registered h runs) (g : Nat) (key : ProcessKey) (pid : Nat) :
    (key, ⟨pid, g⟩) ∈ h.supervisor.records.entries ↔
      (g, key, pid) ∈ runs ∧ h.isHeld g = true := by
  rw [Table.mem_entries_iff _ hh.single, hh.runs]
  constructor
  · intro hrecord
    obtain ⟨r, hr, hkey, hpid, hlive⟩ := hh.coherent.owned key _ hrecord
    exact ⟨by rw [hr, Option.map_some, hkey, hpid], by simp [isHeld, hr, hlive]⟩
  · rintro ⟨hfind, hheld⟩
    obtain ⟨r, hr, hident⟩ := Option.map_eq_some_iff.mp hfind
    obtain ⟨rfl, rfl⟩ := Prod.mk.inj hident
    exact hh.coherent.held g r hr (by simpa [isHeld, hr] using hheld)

end Registered

/-- Let anything happen on a host, for any keys and in any order.  No key has more than one
record, and the records are exactly those of the runs that were started and whose monitor
has not freed their key, one for one.  A run for a key with a record is refused and starts
nothing, a run that fails leaves the supervisor as it was, and so does every call that stops
or kills processes. -/
theorem records_match_runs (disk : Disk) (capacity : Nat) (acts : List Act) :
    let h := (new disk capacity).after acts
    let runs := (new disk capacity).started acts
    h.supervisor.records.keys.Nodup ∧ (runs.map (·.1)).Nodup ∧
      (∀ generation key pid, (key, ⟨pid, generation⟩) ∈ h.supervisor.records.entries ↔
        (generation, key, pid) ∈ runs ∧ h.isHeld generation = true) ∧
      (∀ key spawn, h.supervisor.isRunning key = true →
        h.runWith key spawn = (.error (.alreadyRunning key), h)) ∧
      (∀ parent r, h.supervisor.isRunning r.key = true →
        h.run parent r = (.error (.alreadyRunning r.key), h)) ∧
      (∀ key spawn e, (h.runWith key spawn).1 = .error e →
        (h.runWith key spawn).2.supervisor = h.supervisor) ∧
      (∀ key, (h.stop key).2.supervisor = h.supervisor) ∧
      (∀ session, (h.stopSession session).2.supervisor = h.supervisor) ∧
      h.killAll.supervisor = h.supervisor := by
  intro h runs
  have hregistered : Registered h runs := (registered_new disk capacity).after acts
  refine ⟨hregistered.single, hregistered.generations, hregistered.mem_records_iff,
    fun key spawn hrunning => runWith_of_isRunning h hrunning spawn,
    fun parent r hrunning => ?_, fun key spawn e herror => ?_, supervisor_stop h,
    supervisor_stopSession h, supervisor_killAll h⟩
  · rw [run_eq_runWith, runWith_of_isRunning h hrunning]
  · rcases runWith_cases h key spawn with ⟨_, heq⟩ | ⟨_, ⟨failure, heq⟩ | ⟨pid, heq⟩⟩
    · rw [heq]
    · rw [heq]
    · rw [heq] at herror
      cases herror

end Host
end Notebook
