import Notebook.Process.Supervisor
import Notebook.Proofs.Table

/-!
# Supervision

What the supervisor knows of a process stands in two places: the record of its key and
its run.  `Supervisor.Coherent` ties them together: the records are those of the runs
whose key has not been freed.

* `run_cases`: a call to run either starts a process on a free key or changes nothing.
* `step_cases`: a step changes one run and goes on with it, or it frees its key.
* `Coherent.started`, `Coherent.step`: starting and stepping keep a supervisor coherent.
* `coherent_foldl_act`: so does every history.
-/

set_option autoImplicit false

namespace Notebook

/-- The key of the run has not been freed. -/
def MonitorPhase.isLive : MonitorPhase → Bool
  | .waiting => true
  | .draining _ => true
  | .drained _ => true
  | .removed _ => false
  | .reported => false

/-- The run `r'` is what has become of `r`, whose key is held as before.  An exit is not
queued before the key has been freed. -/
structure Run.GoesOn (r r' : Run) : Prop where
  key : r'.key = r.key
  pid : r'.pid = r.pid
  live : r'.phase.isLive = r.phase.isLive
  exits : ∀ info, .exited info ∈ r'.queue →
    .exited info ∈ r.queue ∨ r'.phase.isLive = false

/-- Nothing is lost to whoever takes the events: they stay, and a report adds the exit. -/
structure Run.Tells (r r' : Run) : Prop where
  watched : r'.watched = r.watched
  queue : ∃ new, r'.queue = r.queue ++ new
  reported : r'.phase = .reported →
    r.phase = .reported ∨ (r.watched = true → ∃ info, .exited info ∈ r'.queue)

theorem Run.GoesOn.trans {a b c : Run} (h : a.GoesOn b) (h' : b.GoesOn c) : a.GoesOn c :=
  ⟨h'.key.trans h.key, h'.pid.trans h.pid, h'.live.trans h.live, fun info hinfo =>
    (h'.exits info hinfo).elim
      (fun hb => (h.exits info hb).imp id fun hlive => h'.live.trans hlive) Or.inr⟩

theorem Run.Tells.trans {a b c : Run} (h : a.Tells b) (h' : b.Tells c) : a.Tells c := by
  obtain ⟨new, hnew⟩ := h.queue
  obtain ⟨new', hnew'⟩ := h'.queue
  refine ⟨h'.watched.trans h.watched,
    ⟨new ++ new', by rw [hnew', hnew, List.append_assoc]⟩, fun hreported => ?_⟩
  rcases h'.reported hreported with hb | hb
  · rcases h.reported hb with ha | ha
    · exact Or.inl ha
    · refine Or.inr fun hwatched => ?_
      obtain ⟨info, hinfo⟩ := ha hwatched
      exact ⟨info, hnew' ▸ List.mem_append_left new' hinfo⟩
  · exact Or.inr fun hwatched => hb (h.watched.trans hwatched)

namespace Supervisor

/-- The supervisor after a process was started. -/
def started (s : Supervisor) (key : ProcessKey) (pid : Nat) : Supervisor :=
  { s with
    nextGeneration := s.nextGeneration + 1
    records := s.records.set key ⟨pid, s.nextGeneration⟩
    runs := s.runs.set s.nextGeneration ⟨key, pid, .fresh, .fresh, [], .waiting, true⟩ }

/-- The supervisor after the key of a run was freed. -/
def freed (s : Supervisor) (g : Nat) (r : Run) (info : ExitInfo) : Supervisor :=
  { s.removeRecord g r with runs := s.runs.set g { r with phase := .removed info } }

theorem changeRun_eq {s : Supervisor} {g : Nat} {r : Run} (h : s.runs.find? g = some r)
    (f : Run → Run) : s.changeRun g f = { s with runs := s.runs.set g (f r) } := by
  simp only [changeRun, h]

/-- A call to run a process starts one on a free key, or changes nothing. -/
theorem run_cases {σ : Type} (s : Supervisor) (key : ProcessKey)
    (spawn : σ → Except SpawnFailure Nat × σ) (world : σ) :
    (s.isRunning key = true ∧ s.run key spawn world = (.error (.alreadyRunning key), s, world)) ∨
    (s.isRunning key = false ∧
      ((∃ failure, (spawn world).1 = .error failure ∧
        s.run key spawn world = (.error (.spawn failure), s, (spawn world).2)) ∨
      ∃ pid, (spawn world).1 = .ok pid ∧
        s.run key spawn world = (.ok (s.nextGeneration, pid), s.started key pid,
          (spawn world).2))) := by
  unfold run isRunning
  cases s.records.contains key with
  | true => exact Or.inl ⟨rfl, rfl⟩
  | false =>
      refine Or.inr ⟨rfl, ?_⟩
      rcases spawn world with ⟨result, world'⟩
      cases result with
      | error failure => exact Or.inl ⟨failure, rfl, rfl⟩
      | ok pid => exact Or.inr ⟨pid, rfl, rfl⟩

/-! ## Steps -/

/-- An event is queued, or there is nobody to take it. -/
theorem offer_cases {capacity : Nat} {r r' : Run} {event : ProcessEvent}
    (h : offer capacity r event = some r') :
    r.watched = false ∧ r' = r ∨
      r.watched = true ∧ r' = { r with queue := r.queue ++ [event] } := by
  unfold offer at h
  split at h
  · next hwatched =>
    split at h
    · exact Or.inr ⟨hwatched, (Option.some.inj h).symm⟩
    · cases h
  · next hwatched => exact Or.inl ⟨by simpa using hwatched, (Option.some.inj h).symm⟩

@[simp]
theorem runs_removeRecord (s : Supervisor) (g : Nat) (r : Run) :
    (s.removeRecord g r).runs = s.runs := by
  unfold removeRecord
  split
  · split <;> rfl
  · rfl

theorem goesOn_withPump (r : Run) (stream : OutputStream) (p : Pump) :
    r.GoesOn (r.withPump stream p) ∧ r.Tells (r.withPump stream p) := by
  cases stream with
  | stdout =>
      exact ⟨⟨rfl, rfl, rfl, fun _ => Or.inl⟩, rfl, ⟨[], (List.append_nil _).symm⟩, Or.inl⟩
  | stderr =>
      exact ⟨⟨rfl, rfl, rfl, fun _ => Or.inl⟩, rfl, ⟨[], (List.append_nil _).symm⟩, Or.inl⟩

/-- Queueing an event goes on with a run; an exit must not come too early. -/
theorem goesOn_offer {capacity : Nat} {r r' : Run} {event : ProcessEvent}
    (h : offer capacity r event = some r')
    (hevent : ∀ info, event = .exited info → r.phase.isLive = false) :
    r.GoesOn r' ∧ r.Tells r' := by
  rcases offer_cases h with ⟨_, rfl⟩ | ⟨_, rfl⟩
  · exact ⟨⟨rfl, rfl, rfl, fun _ => Or.inl⟩, rfl, ⟨[], (List.append_nil _).symm⟩, Or.inl⟩
  · refine ⟨⟨rfl, rfl, rfl, fun info hinfo => ?_⟩, rfl, ⟨[event], rfl⟩, Or.inl⟩
    rcases List.mem_append.mp hinfo with hold | hnew
    · exact Or.inl hold
    · exact Or.inr (hevent info (List.mem_singleton.mp hnew).symm)

/-- A monitor that goes on without freeing the key. -/
theorem goesOn_phase (r : Run) (phase : MonitorPhase) (hlive : phase.isLive = r.phase.isLive)
    (hphase : phase ≠ .reported) :
    r.GoesOn { r with phase } ∧ r.Tells { r with phase } :=
  ⟨⟨rfl, rfl, hlive, fun _ => Or.inl⟩, rfl, ⟨[], (List.append_nil _).symm⟩,
    fun h => absurd h hphase⟩

/-- A step changes one run and goes on with it, or it frees the key of the run. -/
theorem step_cases (s : Supervisor) (g : Nat) (what : Step) :
    s.step g what = s ∨
    ∃ r, s.runs.find? g = some r ∧
      ((∃ r', s.step g what = { s with runs := s.runs.set g r' } ∧ r.GoesOn r' ∧
        (what ≠ .take → what ≠ .leave → r.Tells r')) ∨
      ∃ info, r.phase = .drained info ∧ what = .remove ∧ s.step g what = s.freed g r info) := by
  unfold step
  cases hr : s.runs.find? g with
  | none => exact Or.inl rfl
  | some r =>
      -- What a step does besides waiting is to change the run.
      have hchange : ∀ (f : Run → Run), r.GoesOn (f r) →
          (what ≠ .take → what ≠ .leave → r.Tells (f r)) →
          ∃ r', s.changeRun g f = { s with runs := s.runs.set g r' } ∧ r.GoesOn r' ∧
            (what ≠ .take → what ≠ .leave → r.Tells r') :=
        fun f hgoes htells => ⟨f r, changeRun_eq hr f, hgoes, htells⟩
      have hpump : ∀ stream (p : Run → Pump), ∃ r',
          (s.changeRun g fun r => r.withPump stream (p r)) = { s with runs := s.runs.set g r' } ∧
            r.GoesOn r' ∧ (what ≠ .take → what ≠ .leave → r.Tells r') :=
        fun stream p => hchange (fun r => r.withPump stream (p r))
          (goesOn_withPump r stream (p r)).1 fun _ _ => (goesOn_withPump r stream (p r)).2
      cases what with
      | attend stream | read stream piece | finish stream =>
          dsimp only
          split
          · exact Or.inr ⟨r, rfl, Or.inl (hpump stream _)⟩
          · exact Or.inl rfl
      | unattend stream => exact Or.inr ⟨r, rfl, Or.inl (hpump stream _)⟩
      | deliver stream =>
          dsimp only
          split
          · split
            · split
              · next text _ _ r₁ hoffer =>
                  have h := goesOn_withPump r₁ stream { r₁.pump stream with held := none }
                  have h₁ := goesOn_offer hoffer nofun
                  exact Or.inr ⟨r, rfl, Or.inl (hchange (fun _ => _) (h₁.1.trans h.1)
                    fun _ _ => h₁.2.trans h.2)⟩
              · exact Or.inl rfl
            · exact Or.inl rfl
          · exact Or.inl rfl
      | exit info =>
          dsimp only
          split
          · next hphase =>
              have h := goesOn_phase r (.draining info) (by rw [hphase]; rfl) nofun
              exact Or.inr ⟨r, rfl, Or.inl (hchange _ h.1 fun _ _ => h.2)⟩
          · exact Or.inl rfl
      | drain =>
          dsimp only
          split
          · next info hphase =>
              split
              · have h := goesOn_phase r (.drained info) (by rw [hphase]; rfl) nofun
                exact Or.inr ⟨r, rfl, Or.inl (hchange _ h.1 fun _ _ => h.2)⟩
              · exact Or.inl rfl
          · exact Or.inl rfl
      | giveUp =>
          dsimp only
          split
          · next info hphase =>
              have h := goesOn_phase r (.drained info) (by rw [hphase]; rfl) nofun
              exact Or.inr ⟨r, rfl, Or.inl (hchange _ h.1 fun _ _ => h.2)⟩
          · exact Or.inl rfl
      | remove =>
          dsimp only
          split
          · next info hphase =>
              refine Or.inr ⟨r, rfl, Or.inr ⟨info, hphase, rfl, ?_⟩⟩
              rw [changeRun_eq (r := r) (by rw [runs_removeRecord, hr]), runs_removeRecord]
              rfl
          · exact Or.inl rfl
      | report =>
          dsimp only
          split
          · next info hphase =>
            split
            · next r₁ hoffer =>
                have hfreed : r.phase.isLive = false := by rw [hphase]; rfl
                obtain ⟨hgoes, htells⟩ := goesOn_offer hoffer fun _ _ => hfreed
                refine Or.inr ⟨r, rfl, Or.inl (hchange (fun _ => _) ?_ fun _ _ => ?_)⟩
                · exact ⟨hgoes.key, hgoes.pid, hfreed.symm, fun _ _ => Or.inr rfl⟩
                · refine ⟨htells.watched, htells.queue, fun _ => Or.inr fun hwatched => ?_⟩
                  rcases offer_cases hoffer with ⟨hunwatched, _⟩ | ⟨_, rfl⟩
                  · rw [hunwatched] at hwatched
                    cases hwatched
                  · exact ⟨info, List.mem_append_right _ List.mem_cons_self⟩
            · exact Or.inl rfl
          · exact Or.inl rfl
      | take =>
          exact Or.inr ⟨r, rfl, Or.inl (hchange _
            ⟨rfl, rfl, rfl, fun _ h => Or.inl (List.mem_of_mem_drop h)⟩
            fun h _ => absurd rfl h)⟩
      | leave =>
          exact Or.inr ⟨r, rfl, Or.inl (hchange _
            ⟨rfl, rfl, rfl, fun _ h => absurd h List.not_mem_nil⟩ fun _ h => absurd rfl h)⟩

/-- Taking an event changes nothing but the queue. -/
theorem step_take {s : Supervisor} {g : Nat} {r : Run} (hr : s.runs.find? g = some r) :
    s.step g .take = { s with runs := s.runs.set g { r with queue := r.queue.drop 1 } } := by
  unfold step
  rw [hr]
  exact changeRun_eq hr _

/-- The next event of a run is the head of its queue. -/
theorem of_nextEvent?_eq_some {s : Supervisor} {g : Nat} {event : ProcessEvent}
    (h : s.nextEvent? g = some event) :
    ∃ r rest, s.runs.find? g = some r ∧ r.queue = event :: rest := by
  unfold nextEvent? at h
  obtain ⟨r, hr, hhead⟩ := Option.bind_eq_some_iff.mp h
  obtain ⟨rest, hqueue⟩ := List.head?_eq_some_iff.mp hhead
  exact ⟨r, rest, hr, hqueue⟩

/-! ## Records and runs -/

/-- The records are those of the runs whose key has not been freed. -/
structure Coherent (s : Supervisor) : Prop where
  past : ∀ g r, s.runs.find? g = some r → g < s.nextGeneration
  owned : ∀ key record, s.records.find? key = some record →
    ∃ r, s.runs.find? record.generation = some r ∧ r.key = key ∧ r.pid = record.pid ∧
      r.phase.isLive = true
  held : ∀ g r, s.runs.find? g = some r → r.phase.isLive = true →
    s.records.find? r.key = some ⟨r.pid, g⟩
  exits : ∀ g r info, s.runs.find? g = some r → .exited info ∈ r.queue →
    r.phase.isLive = false

theorem coherent_new (capacity : Nat) : Coherent (new capacity) where
  past _ _ h := by simp [new] at h
  owned _ _ h := by simp [new] at h
  held _ _ h := by simp [new] at h
  exits _ _ _ h := by simp [new] at h

theorem isRunning_eq_false_iff (s : Supervisor) (key : ProcessKey) :
    s.isRunning key = false ↔ s.records.find? key = none :=
  Table.contains_eq_false_iff s.records key

namespace Coherent

variable {s : Supervisor}

/-- A generation that is still to come has no run. -/
theorem future (hs : Coherent s) : s.runs.find? s.nextGeneration = none := by
  cases h : s.runs.find? s.nextGeneration with
  | none => rfl
  | some r => exact absurd (hs.past _ r h) (Nat.lt_irrefl _)

/-- Starting a process on a free key keeps the supervisor coherent. -/
theorem started (hs : Coherent s) {key : ProcessKey} (hfree : s.isRunning key = false)
    (pid : Nat) : Coherent (s.started key pid) := by
  rw [isRunning_eq_false_iff] at hfree
  constructor
  · intro g r hr
    simp only [Supervisor.started, Table.find?_set] at hr ⊢
    split at hr
    · omega
    · have hpast := hs.past g r hr
      omega
  · intro key' record hrecord
    simp only [Supervisor.started, Table.find?_set] at hrecord ⊢
    split at hrecord
    · next hkey =>
        obtain rfl := Option.some.inj hrecord
        exact ⟨_, if_pos rfl, hkey, rfl, rfl⟩
    · obtain ⟨r, hr, hrest⟩ := hs.owned key' record hrecord
      have hpast := hs.past _ r hr
      exact ⟨r, by rw [if_neg (by omega), hr], hrest⟩
  · intro g r hr hlive
    simp only [Supervisor.started, Table.find?_set] at hr ⊢
    split at hr
    · next hg =>
        obtain rfl := Option.some.inj hr
        subst hg
        exact if_pos rfl
    · have hheld := hs.held g r hr hlive
      -- The key is free, so it is not that of a live run.
      have hkey : key ≠ r.key := by
        rintro rfl
        rw [hfree] at hheld
        cases hheld
      rw [if_neg hkey, hheld]
  · intro g r info hr hinfo
    simp only [Supervisor.started, Table.find?_set] at hr
    split at hr
    · obtain rfl := Option.some.inj hr
      cases hinfo
    · exact hs.exits g r info hr hinfo

/-- Going on with a run keeps the supervisor coherent. -/
theorem goesOn (hs : Coherent s) {g : Nat} {r r' : Run} (hr : s.runs.find? g = some r)
    (h : r.GoesOn r') : Coherent { s with runs := s.runs.set g r' } := by
  constructor
  · intro g' r'' hr''
    simp only [Table.find?_set] at hr''
    split at hr''
    · next hg => exact hg ▸ hs.past g r hr
    · exact hs.past g' r'' hr''
  · intro key record hrecord
    obtain ⟨r₁, hr₁, hkey, hpid, hlive⟩ := hs.owned key record hrecord
    simp only [Table.find?_set]
    by_cases hg : g = record.generation
    · rw [← hg, hr] at hr₁
      obtain rfl := Option.some.inj hr₁
      exact ⟨r', if_pos hg, h.key.trans hkey, h.pid.trans hpid, h.live.trans hlive⟩
    · exact ⟨r₁, by rw [if_neg hg, hr₁], hkey, hpid, hlive⟩
  · intro g' r'' hr'' hlive
    simp only [Table.find?_set] at hr''
    split at hr''
    · next hg =>
        obtain rfl := Option.some.inj hr''
        subst hg
        rw [h.key, h.pid]
        exact hs.held g r hr (h.live.symm.trans hlive)
    · exact hs.held g' r'' hr'' hlive
  · intro g' r'' info hr'' hinfo
    simp only [Table.find?_set] at hr''
    split at hr''
    · obtain rfl := Option.some.inj hr''
      rcases h.exits info hinfo with hold | hfreed
      · exact h.live.trans (hs.exits g r info hr hold)
      · exact hfreed
    · exact hs.exits g' r'' info hr'' hinfo

/-- The key of a run that is drained is freed with its record. -/
theorem freed_eq (hs : Coherent s) {g : Nat} {r : Run} (hr : s.runs.find? g = some r)
    {info : ExitInfo} (hphase : r.phase = .drained info) :
    s.freed g r info = { s with
      records := s.records.erase r.key
      runs := s.runs.set g { r with phase := .removed info } } := by
  have hheld := hs.held g r hr (by rw [hphase]; rfl)
  simp only [freed, removeRecord, hheld, if_true]

/-- Freeing a key keeps the supervisor coherent. -/
theorem freed (hs : Coherent s) {g : Nat} {r : Run} (hr : s.runs.find? g = some r)
    {info : ExitInfo} (hphase : r.phase = .drained info) :
    Coherent (s.freed g r info) := by
  have hheld := hs.held g r hr (by rw [hphase]; rfl)
  rw [hs.freed_eq hr hphase]
  constructor
  · intro g' r' hr'
    simp only [Table.find?_set] at hr'
    split at hr'
    · next hg => exact hg ▸ hs.past g r hr
    · exact hs.past g' r' hr'
  · intro key record hrecord
    simp only [Table.find?_erase] at hrecord
    split at hrecord
    · cases hrecord
    · next hkey =>
        obtain ⟨r₁, hr₁, hkey₁, hrest⟩ := hs.owned key record hrecord
        have hg : g ≠ record.generation := by
          -- The run of the freed key has lost its record.
          rintro rfl
          rw [hr] at hr₁
          obtain rfl := Option.some.inj hr₁
          exact hkey hkey₁
        exact ⟨r₁, by rw [Table.find?_set, if_neg hg, hr₁], hkey₁, hrest⟩
  · intro g' r' hr' hlive
    simp only [Table.find?_set] at hr'
    split at hr'
    · obtain rfl := Option.some.inj hr'
      cases hlive
    · next hg =>
        have hheld' := hs.held g' r' hr' hlive
        -- One record does not hold a key for two runs.
        have hkey : r.key ≠ r'.key := by
          intro hkey
          rw [← hkey, hheld] at hheld'
          exact hg (ProcessRecord.mk.inj (Option.some.inj hheld')).2
        rw [Table.find?_erase, if_neg hkey, hheld']
  · intro g' r' info' hr' hinfo
    simp only [Table.find?_set] at hr'
    split at hr'
    · obtain rfl := Option.some.inj hr'
      rfl
    · exact hs.exits g' r' info' hr' hinfo

/-- A step keeps the supervisor coherent. -/
theorem step (hs : Coherent s) (g : Nat) (what : Step) : Coherent (s.step g what) := by
  rcases step_cases s g what with hsame | ⟨r, hr, ⟨r', heq, hgoes, _⟩ | ⟨info, hphase, _, heq⟩⟩
  · rw [hsame]
    exact hs
  · rw [heq]
    exact hs.goesOn hr hgoes
  · rw [heq]
    exact hs.freed hr hphase

/-- A step makes no record. -/
theorem records_step (hs : Coherent s) {g : Nat} {what : Step} {key : ProcessKey}
    {record : ProcessRecord} (h : (s.step g what).records.find? key = some record) :
    s.records.find? key = some record := by
  rcases step_cases s g what with hsame | ⟨r, hr, ⟨r', heq, _⟩ | ⟨info, hphase, _, heq⟩⟩
  · rwa [hsame] at h
  · rwa [heq] at h
  · rw [heq, hs.freed_eq hr hphase] at h
    change (s.records.erase r.key).find? key = some record at h
    rw [Table.find?_erase] at h
    split at h
    · cases h
    · exact h

end Coherent

/-! ## Histories -/

/-- Something that happens to a supervisor and changes it. -/
inductive Act where
  /-- Somebody runs a process, which would get this pid. -/
  | start (key : ProcessKey) (pid : Nat)
  | step (generation : Nat) (what : Step)
  deriving DecidableEq, Repr

/-- The supervisor after something has happened. -/
def act (s : Supervisor) : Act → Supervisor
  | .start key pid => (s.run key (fun world : Unit => (.ok pid, world)) ()).2.1
  | .step generation what => s.step generation what

theorem Coherent.act {s : Supervisor} (hs : Coherent s) (a : Act) : Coherent (s.act a) := by
  cases a with
  | start key pid =>
      simp only [Supervisor.act]
      rcases run_cases s key (fun world : Unit => (.ok pid, world)) () with
        ⟨_, heq⟩ | ⟨hfree, ⟨_, _, heq⟩ | ⟨_, _, heq⟩⟩
      · rw [heq]
        exact hs
      · rw [heq]
        exact hs
      · rw [heq]
        exact hs.started hfree _
  | step generation what => exact hs.step generation what

/-- Every supervisor that can come about is coherent. -/
theorem coherent_foldl_act (acts : List Act) {s : Supervisor} (hs : Coherent s) :
    Coherent (acts.foldl act s) := by
  induction acts generalizing s with
  | nil => exact hs
  | cons a rest ih => exact ih (hs.act a)

end Supervisor
end Notebook
