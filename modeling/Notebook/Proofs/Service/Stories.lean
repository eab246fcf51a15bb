import Notebook.Proofs.Service.Beats

/-!
# Stories

What holds at every point of a story, whatever the order in which commands, incidents and
shutdowns come.

* `Story.numbers`: the requests queued to an instance carry 1, 2, 3 and so on.
* `Story.unused`: no ticket is registered twice.
* `apart_replay`: the waiting for a ticket ends in one way.
* `Story.answered_iff`: a ticket is answered exactly by the first response of its instance
  that has its number and is read while somebody waits.
* `Story.gone`: between two calls nobody waits for an instance that has died or has been
  shut down since its launch.
-/

set_option autoImplicit false

namespace Notebook
namespace Bridge

/-! ## Instances -/

/-- The last item of a list that is contained in a longer one is its last item, too, or
both can go without it. -/
theorem sublist_snoc {α : Type} (l : List α) (y : α) {h : List α} {x : α}
    (hl : (l ++ [y]).Sublist (h ++ [x])) : (l ++ [y]).Sublist h ∨ y = x ∧ l.Sublist h := by
  have hreverse := hl.reverse
  rw [List.reverse_append, List.reverse_append] at hreverse
  rcases List.sublist_cons_iff.mp hreverse with hold | ⟨r, heq, hr⟩
  · refine Or.inl (List.reverse_sublist.mp ?_)
    rw [List.reverse_append]
    exact hold
  · obtain ⟨rfl, rfl⟩ := List.cons.inj heq
    exact Or.inr ⟨rfl, List.reverse_sublist.mp hr⟩

theorem alive_change {g : Nat} {x : Beat} {i : Instance} (h : (x.change g i).alive = true) :
    i.alive = true := by
  unfold Beat.change at h
  split at h <;> (try split at h) <;> simp_all

theorem writable_change {g : Nat} {x : Beat} {i : Instance}
    (h : (x.change g i).writable = true) : i.writable = true := by
  unfold Beat.change at h
  split at h <;> (try split at h) <;> simp_all

theorem nextNumber_change {g : Nat} {x : Beat} (i : Instance) (hx : x ≠ .numbered g) :
    (x.change g i).nextNumber = i.nextNumber := by
  unfold Beat.change
  split <;> (try split) <;> simp_all

theorem le_nextNumber_change (g : Nat) (x : Beat) (i : Instance) :
    i.nextNumber ≤ (x.change g i).nextNumber := by
  unfold Beat.change
  split <;> (try split) <;> simp

/-- Reading the output of an instance is not begun again. -/
theorem reads_beat {b : Bridge} {x : Beat} {g : Nat} (hx : x ≠ .launched g)
    (h : b.reads g = false) : (b.beat x).reads g = false := by
  unfold reads at h ⊢
  rw [find?_beat b hx]
  cases hi : b.instances.find? g with
  | none => rfl
  | some i =>
      rw [hi] at h
      exact Bool.eq_false_iff.mpr fun halive =>
        Bool.eq_false_iff.mp h (alive_change halive)

/-- An input is not opened again. -/
theorem accepts_beat {b : Bridge} {x : Beat} {g : Nat} (hx : x ≠ .launched g)
    (h : b.accepts g = false) : (b.beat x).accepts g = false := by
  unfold accepts at h ⊢
  rw [find?_beat b hx]
  cases hi : b.instances.find? g with
  | none => rfl
  | some i =>
      rw [hi] at h
      exact Bool.eq_false_iff.mpr fun hwritable =>
        Bool.eq_false_iff.mp h (writable_change hwritable)

/-- An instance that there is has been launched. -/
theorem launched_of_find? {h : List Beat} {g : Nat} {i : Instance}
    (hi : (replay h).instances.find? g = some i) : .launched g ∈ h := by
  induction h using List.reverseRecOn generalizing i with
  | nil => cases hi
  | append_singleton h x ih =>
      by_cases hx : x = .launched g
      · simp [hx]
      · rw [replay_snoc, find?_beat _ hx, Option.map_eq_some_iff] at hi
        obtain ⟨i₀, hi₀, _⟩ := hi
        exact List.mem_append_left _ (ih hi₀)

/-- An instance that has been launched is known from then on. -/
theorem contains_of_launched {h : List Beat} {g : Nat} (hg : .launched g ∈ h) :
    (replay h).instances.contains g = true := by
  induction h using List.reverseRecOn with
  | nil => cases hg
  | append_singleton h x ih =>
      rw [replay_snoc, Table.contains]
      by_cases hx : x = .launched g
      · rw [hx, find?_beat_launched]
        rfl
      · rw [find?_beat _ hx, Option.isSome_map]
        refine ih ((List.mem_append.mp hg).resolve_right fun hlast => ?_)
        exact hx (List.mem_singleton.mp hlast).symm

/-- No instance is launched twice. -/
theorem Story.launches {p : Phase} {h : List Beat} (hs : Story p h) :
    (h.filterMap Beat.launch?).Nodup := by
  induction hs with
  | begin => exact List.nodup_nil
  | launch hs g hnew ih =>
      rw [List.filterMap_append, List.nodup_append]
      refine ⟨ih, List.nodup_singleton g, fun a ha b hb hab => hnew ?_⟩
      obtain ⟨x, hx, hlaunch⟩ := List.mem_filterMap.mp ha
      obtain rfl : b = g := List.mem_singleton.mp hb
      cases x with
      | launched g' =>
          obtain rfl : g' = a := Option.some.inj hlaunch
          exact hab ▸ hx
      | _ => cases hlaunch
  | check _ _ ih => exact ih
  | failDead _ _ ih => exact ih
  | failShut _ _ ih => exact ih
  | giveUp _ ih => exact ih
  | _ => simpa [Beat.launch?, List.filterMap_cons] using ‹(List.filterMap Beat.launch? _).Nodup›

/-- A launch that comes last is the first of its instance. -/
theorem ne_launched_of_nodup {h : List Beat} {x : Beat} {g : Nat}
    (hnodup : ((h ++ [x]).filterMap Beat.launch?).Nodup) (hmem : .launched g ∈ h) :
    x ≠ .launched g := by
  rintro rfl
  rw [List.filterMap_append, List.nodup_append] at hnodup
  exact hnodup.2.2 g (List.mem_filterMap.mpr ⟨_, hmem, rfl⟩) g List.mem_cons_self rfl

/-- The output of an instance that has died since its launch is not read any more. -/
theorem reads_of_dies {h : List Beat} {g : Nat} (hnodup : (h.filterMap Beat.launch?).Nodup)
    (hdies : [.launched g, .incident (.dies g)].Sublist h) : (replay h).reads g = false := by
  induction h using List.reverseRecOn with
  | nil => cases hdies
  | append_singleton h x ih =>
      have hmem : .launched g ∈ h ++ [x] := hdies.subset List.mem_cons_self
      rw [replay_snoc]
      rcases sublist_snoc [Beat.launched g] (.incident (.dies g)) hdies with hold | ⟨rfl, _⟩
      · have hx := ne_launched_of_nodup hnodup (hold.subset List.mem_cons_self)
        rw [List.filterMap_append, List.nodup_append] at hnodup
        exact reads_beat hx (ih hnodup.1 hold)
      · have hx : Beat.incident (.dies g) ≠ .launched g := nofun
        unfold reads
        rw [find?_beat _ hx, Option.any_map]
        cases (replay h).instances.find? g with
        | none => rfl
        | some i => simp [Beat.change]

/-- The input of an instance that has been shut down is closed. -/
theorem Story.accepts_of_cleared {p : Phase} {h : List Beat} (hs : Story p h) :
    (∀ g, p = .shutting g → (replay h).accepts g = false) ∧
      ∀ g, [.launched g, .cleared g].Sublist h → (replay h).accepts g = false := by
  -- Whatever comes later does not open the input.
  have hlater : ∀ {p : Phase} {h : List Beat} {x : Beat}, Story p (h ++ [x]) →
      (∀ g, [.launched g, .cleared g].Sublist h → (replay h).accepts g = false) →
      (∀ g, x ≠ .cleared g) →
      ∀ g, [.launched g, .cleared g].Sublist (h ++ [x]) →
        (replay (h ++ [x])).accepts g = false := by
    intro p h x hs hold hx g hcleared
    rcases sublist_snoc [Beat.launched g] (.cleared g) hcleared with hcleared | ⟨heq, _⟩
    · rw [replay_snoc]
      exact accepts_beat
        (ne_launched_of_nodup hs.launches (hcleared.subset List.mem_cons_self)) (hold g hcleared)
    · exact absurd heq.symm (hx g)
  induction hs with
  | begin => exact ⟨nofun, nofun⟩
  | incident hs i ih =>
      refine ⟨fun g hg => ?_, hlater (hs.incident i) ih.2 nofun⟩
      rw [replay_snoc]
      exact accepts_beat nofun (ih.1 g hg)
  | launch hs g hnew ih => exact ⟨nofun, hlater (hs.launch g hnew) ih.2 nofun⟩
  | number hs g ih => exact ⟨nofun, hlater (hs.number g) ih.2 nofun⟩
  | register hs hknown ih => exact ⟨nofun, hlater (hs.register hknown) ih.2 nofun⟩
  | check _ _ ih => exact ⟨nofun, ih.2⟩
  | queue hs haccepts c ih => exact ⟨nofun, hlater (hs.queue haccepts c) ih.2 nofun⟩
  | failDead _ _ ih => exact ⟨nofun, ih.2⟩
  | failShut _ _ ih => exact ⟨nofun, ih.2⟩
  | giveUp _ ih => exact ⟨nofun, ih.2⟩
  | withdraw hs ih => exact ⟨nofun, hlater hs.withdraw ih.2 nofun⟩
  | shut hs g ih =>
      refine ⟨fun g' hg => ?_, hlater (hs.shut g) ih.2 nofun⟩
      obtain rfl := Phase.shutting.inj hg
      have hx : Beat.shut g ≠ .launched g := nofun
      rw [replay_snoc]
      unfold accepts
      rw [find?_beat _ hx, Option.any_map]
      cases (replay _).instances.find? g with
      | none => rfl
      | some i => simp [Beat.change]
  | clear hs ih =>
      refine ⟨nofun, fun g hcleared => ?_⟩
      rw [replay_snoc]
      rcases sublist_snoc [Beat.launched g] (.cleared g) hcleared with hcleared | ⟨heq, _⟩
      · exact accepts_beat nofun (ih.2 g hcleared)
      · exact accepts_beat nofun (ih.1 g (by rw [Beat.cleared.inj heq]))

/-! ## Numbers -/

/-- The requests that have been queued to an instance, newest first. -/
def queuedTo (g : Nat) (trace : List Deed) : List Request :=
  trace.filterMap fun
    | .queued g' r => if g' = g then some r else none
    | _ => none

/-- The commands to the instances are numbered in order. -/
structure Counts (p : Phase) (h : List Beat) : Prop where
  queued : ∀ g, ((queuedTo g (replay h).trace).reverse.map (·.number)) =
    List.range' 1 (queuedTo g (replay h).trace).length
  unknown : ∀ g, (replay h).instances.find? g = none → queuedTo g (replay h).trace = []
  next : ∀ g i, (replay h).instances.find? g = some i → i.alive = true → i.writable = true →
    i.nextNumber = (queuedTo g (replay h).trace).length + 1 +
      if p.pending?.any (·.generation = g) then 1 else 0
  pending : ∀ t i, p.pending? = some t → (replay h).instances.find? t.generation = some i →
    i.nextNumber = t.number + 1
  checked : ∀ t waits, p = .checked t waits → (replay h).accepts t.generation = true →
    t.number = (queuedTo t.generation (replay h).trace).length + 1

theorem trace_beat (b : Bridge) {x : Beat} (hx : ∀ g r, x ≠ .queued g r) (g : Nat) :
    queuedTo g (b.beat x).trace = queuedTo g b.trace := by
  cases x with
  | launched g' => rfl
  | numbered g' => exact congrArg (queuedTo g) (trace_changeInstance b g' _)
  | registered t => rfl
  | queued g' r => exact absurd rfl (hx g' r)
  | withdrawn t => rfl
  | shut g' =>
      simp only [beat]
      split <;> rfl
  | cleared g' => rfl
  | incident i => exact congrArg (queuedTo g) (trace_apply b i)

/-- A beat that neither launches an instance nor numbers nor queues a command. -/
theorem Counts.beat {p : Phase} {h : List Beat} (hc : Counts p h) {x : Beat}
    (hlaunched : ∀ g, x ≠ .launched g) (hnumbered : ∀ g, x ≠ .numbered g)
    (hqueued : ∀ g r, x ≠ .queued g r) : Counts p (h ++ [x]) := by
  have hold : ∀ g i, (replay (h ++ [x])).instances.find? g = some i →
      ∃ i₀, (replay h).instances.find? g = some i₀ ∧ i = x.change g i₀ := by
    intro g i hi
    rw [replay_snoc, find?_beat _ (hlaunched g), Option.map_eq_some_iff] at hi
    obtain ⟨i₀, hi₀, rfl⟩ := hi
    exact ⟨i₀, hi₀, rfl⟩
  have htrace : ∀ g, queuedTo g (replay (h ++ [x])).trace = queuedTo g (replay h).trace :=
    fun g => (replay_snoc h x).symm ▸ trace_beat (replay h) hqueued g
  constructor
  · intro g
    rw [htrace]
    exact hc.queued g
  · intro g hnone
    rw [htrace]
    rw [replay_snoc, find?_beat _ (hlaunched g), Option.map_eq_none_iff] at hnone
    exact hc.unknown g hnone
  · intro g i hi halive hwritable
    obtain ⟨i₀, hi₀, rfl⟩ := hold g i hi
    rw [htrace, nextNumber_change i₀ (hnumbered g)]
    exact hc.next g i₀ hi₀ (alive_change halive) (writable_change hwritable)
  · intro t i hp hi
    obtain ⟨i₀, hi₀, rfl⟩ := hold _ i hi
    rw [nextNumber_change i₀ (hnumbered _)]
    exact hc.pending t i₀ hp hi₀
  · intro t waits hp haccepts
    rw [htrace]
    refine hc.checked t waits hp (Bool.not_eq_false _ |>.mp fun hshut => ?_)
    rw [replay_snoc, accepts_beat (hlaunched _) hshut] at haccepts
    cases haccepts

/-- A phase in which no command is pending but perhaps one that cannot be queued. -/
theorem Counts.fail {p p' : Phase} {h : List Beat} (hc : Counts p h)
    (hp' : p'.pending? = none)
    (hstopped : ∀ t, p.pending? = some t → (replay h).works t.generation = false) :
    Counts p' h := by
  refine ⟨hc.queued, hc.unknown, fun g i hi halive hwritable => ?_, ?_, ?_⟩
  · rw [hc.next g i hi halive hwritable, hp']
    cases hp : p.pending? with
    | none => rfl
    | some t =>
        have hne : t.generation ≠ g := by
          rintro rfl
          have hworks := hstopped t hp
          simp only [works, hi, halive, hwritable] at hworks
          cases hworks
        simp [hne]
  · intro t i hp
    rw [hp'] at hp
    cases hp
  · rintro t waits rfl
    cases hp'

theorem works_of_reads {b : Bridge} {g : Nat} (h : b.reads g = false) : b.works g = false := by
  unfold reads at h
  unfold works
  split
  · next i hi => simp_all
  · rfl

theorem works_of_accepts {b : Bridge} {g : Nat} (h : b.accepts g = false) :
    b.works g = false := by
  unfold accepts at h
  unfold works
  split
  · next i hi => simp_all
  · rfl

/-- A new instance has had no commands. -/
theorem Counts.launch {h : List Beat} (hc : Counts .idle h) {g : Nat}
    (hnew : .launched g ∉ h) : Counts .idle (h ++ [.launched g]) := by
  have hunknown : (replay h).instances.find? g = none := by
    cases hi : (replay h).instances.find? g with
    | none => rfl
    | some i => exact absurd (launched_of_find? hi) hnew
  have hfind : ∀ g', (replay (h ++ [.launched g])).instances.find? g' =
      if g = g' then some ⟨1, true, true⟩ else (replay h).instances.find? g' := by
    intro g'
    rw [replay_snoc]
    exact Table.find?_set _ _ _ _
  have htrace : ∀ g', queuedTo g' (replay (h ++ [.launched g])).trace =
      queuedTo g' (replay h).trace := fun g' => (replay_snoc h _).symm ▸ rfl
  refine ⟨fun g' => ?_, fun g' hnone => ?_, fun g' i hi halive hwritable => ?_, nofun, nofun⟩
  · rw [htrace]
    exact hc.queued g'
  · rw [htrace]
    rw [hfind] at hnone
    split at hnone
    · cases hnone
    · exact hc.unknown g' hnone
  · rw [htrace]
    rw [hfind] at hi
    split at hi
    · next hg =>
        obtain rfl := Option.some.inj hi
        rw [← hg, hc.unknown g hunknown]
        rfl
    · exact hc.next g' i hi halive hwritable

/-- A command that takes its number is pending. -/
theorem Counts.number {h : List Beat} (hc : Counts .idle h) (g : Nat) :
    Counts (.ready ⟨g, (replay h).nextNumber g⟩ false) (h ++ [.numbered g]) := by
  have hx : ∀ g', Beat.numbered g ≠ .launched g' := nofun
  have htrace : ∀ g', queuedTo g' (replay (h ++ [.numbered g])).trace =
      queuedTo g' (replay h).trace :=
    fun g' => (replay_snoc h _).symm ▸ trace_beat (replay h) (fun _ _ hx => by cases hx) g'
  have hold : ∀ g' i, (replay (h ++ [.numbered g])).instances.find? g' = some i →
      ∃ i₀, (replay h).instances.find? g' = some i₀ ∧ i = (Beat.numbered g).change g' i₀ := by
    intro g' i hi
    rw [replay_snoc, find?_beat _ (hx g'), Option.map_eq_some_iff] at hi
    obtain ⟨i₀, hi₀, rfl⟩ := hi
    exact ⟨i₀, hi₀, rfl⟩
  refine ⟨fun g' => ?_, fun g' hnone => ?_, fun g' i hi halive hwritable => ?_, ?_, nofun⟩
  · rw [htrace]
    exact hc.queued g'
  · rw [htrace]
    rw [replay_snoc, find?_beat _ (hx g'), Option.map_eq_none_iff] at hnone
    exact hc.unknown g' hnone
  · obtain ⟨i₀, hi₀, rfl⟩ := hold g' i hi
    have hnext := hc.next g' i₀ hi₀ (alive_change halive) (writable_change hwritable)
    rw [htrace]
    by_cases hg : g = g'
    · simp [Beat.change, Phase.pending?, hg] at hnext ⊢
      omega
    · simp [Beat.change, Phase.pending?, hg] at hnext ⊢
      omega
  · intro t i ht hi
    obtain rfl := Option.some.inj ht
    obtain ⟨i₀, hi₀, rfl⟩ := hold g i hi
    simp [Beat.change, nextNumber, hi₀]

/-- A command whose instance is found alive has the number that follows. -/
theorem Counts.check {h : List Beat} {t : Ticket} {waits : Bool}
    (hc : Counts (.ready t waits) h) (hreads : (replay h).reads t.generation = true) :
    Counts (.checked t waits) h := by
  refine ⟨hc.queued, hc.unknown, hc.next, hc.pending, fun t' waits' ht haccepts => ?_⟩
  obtain ⟨rfl, -⟩ := Phase.checked.inj ht
  unfold reads at hreads
  unfold accepts at haccepts
  cases hi : (replay h).instances.find? t.generation with
  | none =>
      rw [hi] at hreads
      cases hreads
  | some i =>
      rw [hi] at hreads haccepts
      have hnext := hc.next t.generation i hi hreads haccepts
      have hpending := hc.pending t i rfl hi
      simp [Phase.pending?] at hnext
      omega

/-- A command that is queued has the number that follows those of its instance. -/
theorem Counts.queue {h : List Beat} {t : Ticket} {waits : Bool}
    (hc : Counts (.checked t waits) h) (haccepts : (replay h).accepts t.generation = true)
    (c : Command) : Counts .idle (h ++ [.queued t.generation ⟨t.number, c⟩]) := by
  have hnumber := hc.checked t waits rfl haccepts
  have htrace : ∀ g, queuedTo g (replay (h ++ [.queued t.generation ⟨t.number, c⟩])).trace =
      if t.generation = g then ⟨t.number, c⟩ :: queuedTo g (replay h).trace
      else queuedTo g (replay h).trace := by
    intro g
    rw [replay_snoc]
    simp only [Bridge.beat, queuedTo, List.filterMap_cons]
    split <;> simp_all
  have hfind : ∀ g, (replay (h ++ [.queued t.generation ⟨t.number, c⟩])).instances.find? g =
      (replay h).instances.find? g := fun g => (replay_snoc h _).symm ▸ rfl
  refine ⟨fun g => ?_, fun g hnone => ?_, fun g i hi halive hwritable => ?_,
    fun _ _ ht => (by cases ht), fun _ _ hp => (by cases hp)⟩
  · rw [htrace]
    split
    · next hg =>
        subst hg
        rw [List.reverse_cons, List.map_append, hc.queued, List.length_cons,
          List.range'_1_concat, hnumber]
        simp [Nat.add_comm]
    · exact hc.queued g
  · rw [hfind] at hnone
    rw [htrace, if_neg, hc.unknown g hnone]
    rintro rfl
    simp [accepts, hnone] at haccepts
  · rw [hfind] at hi
    have hnext := hc.next g i hi halive hwritable
    rw [htrace]
    by_cases hg : t.generation = g
    · simp [Phase.pending?, hg] at hnext ⊢
      omega
    · simp [Phase.pending?, hg] at hnext ⊢
      omega

/-- The commands of a story are numbered in order. -/
theorem Story.counts {p : Phase} {h : List Beat} (hs : Story p h) : Counts p h := by
  induction hs with
  | begin => exact ⟨fun _ => rfl, fun _ _ => rfl, nofun, nofun, nofun⟩
  | incident hs i ih => exact ih.beat nofun nofun nofun
  | launch hs g hnew ih => exact ih.launch hnew
  | number hs g ih => exact ih.number g
  | @register h t hs hknown ih =>
      have hbeat : Counts (.ready t false) (h ++ [.registered t]) := ih.beat nofun nofun nofun
      exact ⟨hbeat.queued, hbeat.unknown, hbeat.next, hbeat.pending, nofun⟩
  | check hs hreads ih => exact ih.check hreads
  | queue hs haccepts c ih => exact ih.queue haccepts c
  | failDead hs hdead ih =>
      refine ih.fail rfl fun t ht => ?_
      obtain rfl := Option.some.inj ht
      exact works_of_reads hdead
  | failShut hs hshut ih =>
      refine ih.fail rfl fun t ht => ?_
      obtain rfl := Option.some.inj ht
      exact works_of_accepts hshut
  | giveUp hs ih => exact ih.fail rfl nofun
  | @withdraw h t hs ih =>
      have hidle : Counts .idle h := ih.fail rfl nofun
      exact hidle.beat nofun nofun nofun
  | @shut h hs g ih =>
      have hshutting : Counts (.shutting g) h := ih.fail rfl nofun
      exact hshutting.beat nofun nofun nofun
  | @clear h g hs ih =>
      have hidle : Counts .idle h := ih.fail rfl nofun
      exact hidle.beat nofun nofun nofun

/-- The requests that a story queues to an instance carry 1, 2, 3 and so on. -/
theorem Story.numbers {p : Phase} {h : List Beat} (hs : Story p h) {g n : Nat} {r : Request}
    (hr : (queuedTo g (replay h).trace).reverse[n]? = some r) : r.number = n + 1 := by
  have hnumber := congrArg (·[n]?) (hs.counts.queued g)
  simp only [List.getElem?_map, hr, Option.map_some] at hnumber
  obtain ⟨hn, heq⟩ := List.getElem?_eq_some_iff.mp hnumber.symm
  rw [List.getElem_range'] at heq
  omega

/-! ## Tickets -/

/-- Nobody waits by a ticket that is used twice. -/
structure Unused (p : Phase) (h : List Beat) : Prop where
  issued : ∀ t ∈ tickets h, ∃ i, (replay h).instances.find? t.generation = some i ∧
    t.number < i.nextNumber
  single : (tickets h).Nodup
  fresh : ∀ t, p.fresh? = some t → t ∉ tickets h

/-- A beat that neither launches an instance nor makes anybody wait. -/
theorem Unused.beat {p : Phase} {h : List Beat} (hu : Unused p h) {x : Beat}
    (hlaunched : x.launch? = none) (hx : x.ticket? = none) : Unused p (h ++ [x]) := by
  have htickets : tickets (h ++ [x]) = tickets h := by
    simp [tickets, hx]
  constructor
  · intro t ht
    rw [htickets] at ht
    obtain ⟨i, hi, hlt⟩ := hu.issued t ht
    refine ⟨x.change t.generation i, ?_, Nat.lt_of_lt_of_le hlt (le_nextNumber_change _ _ _)⟩
    rw [replay_snoc, find?_beat _ (Beat.ne_launched hlaunched _), hi, Option.map_some]
  · rw [htickets]
    exact hu.single
  · rw [htickets]
    exact hu.fresh

/-- A phase in which no command has just taken its number. -/
theorem Unused.goesOn {p p' : Phase} {h : List Beat} (hu : Unused p h)
    (hp' : p'.fresh? = none) : Unused p' h :=
  ⟨hu.issued, hu.single, fun t ht => by rw [hp'] at ht; cases ht⟩

/-- In a story nobody waits by a ticket that is used twice. -/
theorem Story.unused {p : Phase} {h : List Beat} (hs : Story p h) : Unused p h := by
  induction hs with
  | begin =>
      refine ⟨fun t ht => ?_, List.nodup_nil, fun t ht => ?_⟩ <;> cases ht
  | incident hs i ih => exact ih.beat rfl rfl
  | @launch h hs g hnew ih =>
      have htickets : tickets (h ++ [.launched g]) = tickets h := by
        simp [tickets, Beat.ticket?]
      refine ⟨fun t ht => ?_, htickets ▸ ih.single, htickets ▸ ih.fresh⟩
      rw [htickets] at ht
      obtain ⟨i, hi, hlt⟩ := ih.issued t ht
      refine ⟨i, ?_, hlt⟩
      rw [replay_snoc]
      refine (Table.find?_set _ _ _ _).trans ((if_neg ?_).trans hi)
      rintro rfl
      exact hnew (launched_of_find? hi)
  | @number h hs g ih =>
      have hbeat : Unused .idle (h ++ [.numbered g]) := ih.beat rfl rfl
      refine ⟨hbeat.issued, hbeat.single, fun t ht hmem => ?_⟩
      obtain rfl := Option.some.inj ht
      rw [tickets_append, List.mem_append] at hmem
      obtain ⟨i, hi, hlt⟩ := ih.issued _ (hmem.resolve_right List.not_mem_nil)
      simp only [nextNumber, hi, Option.map_some, Option.getD_some] at hlt
      exact Nat.lt_irrefl _ hlt
  | @register h t hs hknown ih =>
      have hfind : ∀ g, (replay (h ++ [.registered t])).instances.find? g =
          (replay h).instances.find? g := fun g => (replay_snoc h _).symm ▸ rfl
      have htickets : tickets (h ++ [.registered t]) = tickets h ++ [t] := by
        simp [tickets, Beat.ticket?]
      obtain ⟨i, hi⟩ := Option.isSome_iff_exists.mp hknown
      refine ⟨fun t' ht' => ?_, ?_, fun t' ht' => by cases ht'⟩
      · rw [hfind]
        rw [htickets] at ht'
        rcases List.mem_append.mp ht' with hold | hnew
        · exact ih.issued t' hold
        · obtain rfl := List.mem_singleton.mp hnew
          have hpending := hs.counts.pending t' i rfl hi
          exact ⟨i, hi, by omega⟩
      · rw [htickets, List.nodup_append]
        refine ⟨ih.single, List.nodup_singleton t, fun a ha b hb hab => ?_⟩
        obtain rfl := List.mem_singleton.mp hb
        exact ih.fresh _ rfl (hab ▸ ha)
  | check _ _ ih => exact ih.goesOn rfl
  | queue hs haccepts c ih => exact (ih.beat rfl rfl).goesOn rfl
  | failDead _ _ ih => exact ih.goesOn rfl
  | failShut _ _ ih => exact ih.goesOn rfl
  | giveUp _ ih => exact ih.goesOn rfl
  | withdraw hs ih => exact (ih.beat rfl rfl).goesOn rfl
  | shut hs g ih => exact (ih.beat rfl rfl).goesOn rfl
  | clear hs ih => exact (ih.beat rfl rfl).goesOn rfl

/-! ## Answers -/

/-- The reading of a response to the ticket. -/
theorem response?_eq_some_iff (t : Ticket) (x : Beat) (response : Json) :
    x.response? t = some response ↔ ∃ frame, x = .incident (.frame t.generation frame) ∧
      Incoming.ofJson? frame = some (.response t.number response) := by
  constructor
  · intro h
    unfold Beat.response? at h
    split at h
    · next g frame =>
        split at h
        · next n response' hframe =>
            split at h
            · next ht =>
                obtain rfl := Option.some.inj h
                subst ht
                exact ⟨frame, rfl, hframe⟩
            · cases h
        · cases h
    · cases h
  · rintro ⟨frame, rfl, hframe⟩
    simp [Beat.response?, hframe]

/-- Once a ticket is not waited for and is not registered again, its answer stays. -/
theorem answered_settled {h later : List Beat} {t : Ticket} (hwaits : ¬Waits h t)
    (hlater : .registered t ∉ later) :
    (replay (h ++ later)).answered.find? t = (replay h).answered.find? t ∧
      ¬Waits (h ++ later) t := by
  induction later using List.reverseRecOn with
  | nil =>
      rw [List.append_nil]
      exact ⟨rfl, hwaits⟩
  | append_singleton later x ih =>
      rw [List.mem_append, not_or] at hlater
      obtain ⟨hanswered, hnot⟩ := ih hlater.1
      rw [← mem_waiting_replay_iff] at hnot
      rw [← mem_waiting_replay_iff, ← List.append_assoc, replay_snoc]
      refine ⟨?_, ?_⟩
      · rw [find?_answered_beat, if_neg hnot, hanswered]
      · rw [mem_waiting_beat]
        rintro (rfl | ⟨hold, _⟩)
        · exact hlater.2 List.mem_cons_self
        · exact hnot hold

/-- An answer has come with the first response that was read while somebody waited. -/
theorem answeredWith_of_find? {h : List Beat} {t : Ticket} {response : Json}
    (hanswered : (replay h).answered.find? t = some response) :
    AnsweredWith h t response := by
  induction h using List.reverseRecOn with
  | nil => cases hanswered
  | append_singleton h x ih =>
      have hold : (replay h).answered.find? t = some response →
          AnsweredWith (h ++ [x]) t response := by
        intro hold
        obtain ⟨past, during, frame, later, rfl, hrest⟩ := ih hold
        exact ⟨past, during, frame, later ++ [x], by simp, hrest⟩
      rw [replay_snoc, find?_answered_beat] at hanswered
      split at hanswered
      · next hwaits =>
          cases hresponse : x.response? t with
          | none =>
              rw [hresponse, Option.none_or] at hanswered
              exact hold hanswered
          | some response' =>
              rw [hresponse, Option.some_or] at hanswered
              obtain rfl := Option.some.inj hanswered
              obtain ⟨frame, rfl, hframe⟩ := (response?_eq_some_iff t x _).mp hresponse
              obtain ⟨past, during, rfl, hduring⟩ := (mem_waiting_replay_iff h t).mp hwaits
              exact ⟨past, during, frame, [], by simp, hduring, hframe⟩
      · exact hold hanswered

/-- In a story a ticket is answered exactly by the first response of its instance that has
its number and is read while somebody waits. -/
theorem Story.answered_iff {p : Phase} {h : List Beat} (hs : Story p h) (t : Ticket)
    (response : Json) :
    (replay h).answered.find? t = some response ↔ AnsweredWith h t response := by
  refine ⟨answeredWith_of_find?, ?_⟩
  rintro ⟨past, during, frame, later, rfl, hduring, hframe⟩
  have hresponse : (Beat.incident (.frame t.generation frame)).response? t = some response :=
    (response?_eq_some_iff t _ _).mpr ⟨frame, rfl, hframe⟩
  have hwaits : t ∈ (replay (past ++ .registered t :: during)).waiting :=
    (mem_waiting_replay_iff _ t).mpr ⟨past, during, rfl, hduring⟩
  have hsplit : past ++ .registered t :: during ++ .incident (.frame t.generation frame) :: later =
      (past ++ .registered t :: during ++ [.incident (.frame t.generation frame)]) ++ later := by
    simp
  have hread : ¬Waits (past ++ .registered t :: during ++
      [.incident (.frame t.generation frame)]) t := by
    rw [← mem_waiting_replay_iff, replay_snoc, mem_waiting_beat]
    rintro (heq | ⟨_, hnot⟩)
    · cases heq
    · exact hnot (Or.inl (by rw [hresponse]; rfl))
  have honce : .registered t ∉ later := by
    intro hmem
    have hsingle := hs.unused.single
    rw [hsplit, tickets_append, List.nodup_append] at hsingle
    exact hsingle.2.2 t ((mem_tickets_iff _ t).mpr (by simp)) t
      ((mem_tickets_iff _ t).mpr hmem) rfl
  rw [hsplit, (answered_settled hread honce).1, replay_snoc, find?_answered_beat,
    if_pos hwaits, hresponse, Option.some_or]

/-- Nothing is known of a ticket that has not been registered. -/
theorem unknown_replay {h : List Beat} {t : Ticket} (hunknown : t ∉ tickets h) :
    (replay h).answered.find? t = none ∧ t ∉ (replay h).expired := by
  rw [mem_tickets_iff] at hunknown
  refine ⟨?_, fun hexpired => ?_⟩
  · cases hfind : (replay h).answered.find? t with
    | none => rfl
    | some response =>
        obtain ⟨past, during, frame, later, rfl, -⟩ := answeredWith_of_find? hfind
        exact absurd (by simp) hunknown
  · obtain ⟨past, during, later, rfl, -⟩ := (mem_expired_replay_iff h t).mp hexpired
    exact hunknown (by simp)

/-- If no ticket is registered twice, the waiting for one ends in one way: whoever waits has
neither been answered nor waited too long, and whoever has waited too long has not been
answered. -/
theorem apart_replay {h : List Beat} (hsingle : (tickets h).Nodup) (t : Ticket) :
    (t ∈ (replay h).waiting →
        (replay h).answered.find? t = none ∧ t ∉ (replay h).expired) ∧
      (t ∈ (replay h).expired → (replay h).answered.find? t = none) := by
  induction h using List.reverseRecOn with
  | nil => exact ⟨nofun, nofun⟩
  | append_singleton h x ih =>
      rw [tickets_append, List.nodup_append] at hsingle
      obtain ⟨hbefore, -, hnew⟩ := hsingle
      obtain ⟨hwaiting, hexpired⟩ := ih hbefore
      rw [replay_snoc, mem_waiting_beat, mem_expired_beat, find?_answered_beat]
      refine ⟨?_, ?_⟩
      · rintro (rfl | ⟨hwaits, hgoes⟩)
        · have hunknown : t ∉ tickets h := fun hmem =>
            hnew t hmem t ((mem_tickets_iff _ t).mpr List.mem_cons_self) rfl
          obtain ⟨hunanswered, hpatient⟩ := unknown_replay hunknown
          have hresponse : (Beat.registered t).response? t = none := rfl
          refine ⟨?_, fun hlate => ?_⟩
          · rw [hresponse, hunanswered, Option.none_or, ite_self]
          · rcases hlate with hlate | ⟨hx, -⟩
            · exact hpatient hlate
            · cases hx
        · rw [Beat.Ends, not_or, Bool.not_eq_true, Option.isSome_eq_false_iff,
            Option.isNone_iff_eq_none] at hgoes
          obtain ⟨hunanswered, hpatient⟩ := hwaiting hwaits
          refine ⟨?_, fun hlate => ?_⟩
          · rw [hgoes.1, hunanswered, Option.none_or, ite_self]
          · rcases hlate with hlate | ⟨rfl, -⟩
            · exact hpatient hlate
            · exact hgoes.2 rfl
      · rintro (hlate | ⟨rfl, hwaits⟩)
        · have hgone : t ∉ (replay h).waiting := fun hmem => (hwaiting hmem).2 hlate
          rw [if_neg hgone, hexpired hlate]
        · have hresponse : (Beat.incident (.expires t)).response? t = none := rfl
          rw [hresponse, Option.none_or, ite_self, (hwaiting hwaits).1]

/-! ## Instances that are gone -/

/-- Since its launch the output of the instance has ended and those who waited have been
turned away, or it has been shut down. -/
def Gone (h : List Beat) (g : Nat) : Prop :=
  [.launched g, .incident (.dies g), .incident (.forgets g)].Sublist h ∨
    [.launched g, .cleared g].Sublist h

/-- A beat makes an instance gone only if it turns away those who wait for it. -/
theorem gone_snoc {h : List Beat} {x : Beat} {g : Nat} (hgone : Gone (h ++ [x]) g) :
    Gone h g ∨ ∀ t : Ticket, t.generation = g → x.Ends t := by
  rcases hgone with hdies | hcleared
  · rcases sublist_snoc [Beat.launched g, .incident (.dies g)] (.incident (.forgets g)) hdies
      with hold | ⟨rfl, _⟩
    · exact Or.inl (Or.inl hold)
    · exact Or.inr fun t ht => Or.inr ht
  · rcases sublist_snoc [Beat.launched g] (.cleared g) hcleared with hold | ⟨rfl, _⟩
    · exact Or.inl (Or.inr hold)
    · exact Or.inr fun t ht => Or.inr ht

/-- The request in progress may still wait: it will find out. -/
def Phase.WillFind (b : Bridge) (t : Ticket) : Phase → Prop
  | .ready t' true => t = t'
  | .checked t' true => t = t' ∧ b.accepts t.generation = false
  | .failed t' true => t = t'
  | _ => False

/-- A beat that makes nobody wait leaves nobody behind. -/
theorem waits_snoc {h : List Beat} {x : Beat} {P : Ticket → Prop}
    (hold : ∀ g, Gone h g → ∀ t, Waits h t → t.generation = g → P t)
    (hx : x.ticket? = none) :
    ∀ g, Gone (h ++ [x]) g → ∀ t, Waits (h ++ [x]) t → t.generation = g →
      P t ∧ ¬x.Ends t := by
  intro g hgone t hwaits ht
  rw [← mem_waiting_replay_iff, replay_snoc, mem_waiting_beat, mem_waiting_replay_iff] at hwaits
  rcases hwaits with heq | ⟨hwaits, hends⟩
  · rw [heq] at hx
    cases hx
  · rcases gone_snoc hgone with hgone | hgone
    · exact ⟨hold g hgone t hwaits ht, hends⟩
    · exact absurd (hgone t ht) hends

/-- Whoever waits for an instance that is gone belongs to the request in progress. -/
theorem Story.gone_or_found {p : Phase} {h : List Beat} (hs : Story p h) :
    ∀ g, Gone h g → ∀ t, Waits h t → t.generation = g → p.WillFind (replay h) t := by
  induction hs with
  | begin =>
      intro g hgone t hwaits
      cases (mem_waiting_replay_iff [] t).mpr hwaits
  | @incident p h hs i ih =>
      intro g hgone t hwaits ht
      have hfinds := (waits_snoc ih rfl g hgone t hwaits ht).1
      cases p with
      | checked t' waits =>
          cases waits with
          | true =>
              refine ⟨hfinds.1, ?_⟩
              rw [replay_snoc]
              exact accepts_beat nofun hfinds.2
          | false => exact hfinds
      | ready t' waits => cases waits <;> exact hfinds
      | failed t' waits => cases waits <;> exact hfinds
      | idle => exact hfinds
      | shutting g' => exact hfinds
  | launch hs g hnew ih =>
      exact fun g hgone t hwaits ht => (waits_snoc ih rfl g hgone t hwaits ht).1
  | number hs g ih =>
      exact fun g hgone t hwaits ht => (waits_snoc ih rfl g hgone t hwaits ht).1.elim
  | @register h t hs hknown ih =>
      intro g hgone t' hwaits ht
      rw [← mem_waiting_replay_iff, replay_snoc, mem_waiting_beat,
        mem_waiting_replay_iff] at hwaits
      rcases hwaits with heq | ⟨hwaits, _⟩
      · exact (Beat.registered.inj heq).symm
      · rcases gone_snoc hgone with hgone | hends
        · exact (ih g hgone t' hwaits ht).elim
        · rcases hends t' ht with hresponse | hdismissed
          · cases hresponse
          · exact hdismissed.elim
  | @check h t waits hs hreads ih =>
      intro g hgone t' hwaits ht
      have hfinds := ih g hgone t' hwaits ht
      cases waits with
      | false => exact hfinds
      | true =>
          obtain rfl : t' = t := hfinds
          refine ⟨rfl, ?_⟩
          -- The instance is not dead, so it has been shut down.
          rcases hgone with hdies | hcleared
          · have hdead : [.launched g, .incident (.dies g)].Sublist h :=
              List.Sublist.trans (by simp) hdies
            rw [ht, reads_of_dies hs.launches hdead] at hreads
            cases hreads
          · exact ht ▸ hs.accepts_of_cleared.2 g hcleared
  | @queue h t waits hs haccepts c ih =>
      intro g hgone t' hwaits ht
      have hfinds := (waits_snoc ih rfl g hgone t' hwaits ht).1
      cases waits with
      | false => exact hfinds.elim
      | true =>
          obtain ⟨rfl, hshut⟩ := hfinds
          rw [hshut] at haccepts
          cases haccepts
  | @failDead h t waits hs hdead ih =>
      intro g hgone t' hwaits ht
      have hfinds := ih g hgone t' hwaits ht
      cases waits <;> exact hfinds
  | @failShut h t waits hs hshut ih =>
      intro g hgone t' hwaits ht
      have hfinds := ih g hgone t' hwaits ht
      cases waits with
      | false => exact hfinds
      | true => exact hfinds.1
  | giveUp hs ih => exact fun g hgone t hwaits ht => (ih g hgone t hwaits ht).elim
  | withdraw hs ih =>
      intro g hgone t' hwaits ht
      obtain ⟨hfinds, hends⟩ := waits_snoc ih rfl g hgone t' hwaits ht
      exact absurd (Or.inr hfinds) hends
  | shut hs g ih =>
      exact fun g hgone t hwaits ht => (waits_snoc ih rfl g hgone t hwaits ht).1.elim
  | clear hs ih =>
      exact fun g hgone t hwaits ht => (waits_snoc ih rfl g hgone t hwaits ht).1.elim

/-- Between two calls nobody waits for an instance that is gone. -/
theorem Story.gone {h : List Beat} (hs : Story .idle h) {g : Nat} (hgone : Gone h g)
    {t : Ticket} (ht : t.generation = g) : ¬Waits h t :=
  fun hwaits => hs.gone_or_found g hgone t hwaits ht

end Bridge
end Notebook
