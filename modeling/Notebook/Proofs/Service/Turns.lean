import Notebook.Proofs.Service.Invariants
import Notebook.Proofs.Service.Stories
import Mathlib.Order.BooleanAlgebra.Set
import Mathlib.Data.List.Nodup

/-!
# Opening and closing take turns

An instance that is told to open a file which it has open already, or to close one which it
has not, is at a loss.  So on every instance the requests that open and close a path have to
take turns, starting with one that opens it.

Whether a request is in turn is seen from what its instance has been told before: `told` gives
the paths that are open by then.  `Bridge.Settled` is the invariant between two calls: all
requests so far were in turn, the open files have different paths, and the attached instance, if
it works, has exactly these paths open.  `Bridge.Turning b g paths b'` holds in the middle of a
call that was made in `b` and by now has left `g` with the given paths open.

The bridge asks only whether it has a record of a filename.  It does not see that another open
file has the same path.  And where opening a file that is open closes it first, moving a record
does not look at what is at the new name, so the requests there get out of turn.  `Move.Clear`
excludes both.

* `InTurn.alternate`: what is in turn alternates.
* `ends_ensure_turning`: a call begins with the paths of the records open.
* `settled_play`: every clear move leads from a settled bridge to a settled one.
* `turns_alternate`: in every clear history opening and closing take turns.
* `turns_repeat`: how a path comes to be opened twice.
-/

set_option autoImplicit false

namespace Notebook

/-! ## Turns -/

/-- What a request may do to a path. -/
inductive FileTurn where
  | opening
  | closing
  deriving DecidableEq, Repr

/-- Which turn it is, counted from zero. -/
def FileTurn.ofIndex (i : Nat) : FileTurn :=
  if i % 2 = 0 then .opening else .closing

/-- What a command does to a path, if it opens or closes it. -/
def Command.turn? (path : String) : Command → Option FileTurn
  | .openFile path' _ => if path' = path then some .opening else none
  | .closeFile path' => if path' = path then some .closing else none
  | _ => none

/-- How a path has been opened and closed on an instance, oldest first. -/
def fileTurns (trace : List Deed) (g : Nat) (path : String) : List FileTurn :=
  (Bridge.queuedTo g trace).reverse.filterMap (·.command.turn? path)

/-- The paths that are open. -/
def Memory.paths (m : Memory) : Set String :=
  {p | m p ≠ none}

/-- Only a path that is not open is opened, and only one that is open is closed. -/
def Command.Fits (paths : Set String) : Command → Prop
  | .openFile path _ => path ∉ paths
  | .closeFile path => path ∈ paths
  | _ => True

/-- The open paths after a command. -/
def Command.obeyed (paths : Set String) : Command → Set String
  | .openFile path _ => insert path paths
  | .closeFile path => paths \ {path}
  | _ => paths

theorem Command.paths_remember (c : Command) (m : Memory) :
    Memory.paths (c.remember m) = c.obeyed (Memory.paths m) := by
  ext p
  cases c with
  | openFile path content =>
      by_cases hp : p = path <;> simp [Memory.paths, remember, obeyed, hp]
  | closeFile path => by_cases hp : p = path <;> simp [Memory.paths, remember, obeyed, hp]
  | _ => rfl

/-- A request is in turn if it fits what its instance has been told before.  An instance is
launched before it is told anything. -/
def Deed.InTurn (earlier : List Deed) : Deed → Prop
  | .launched g => Bridge.queuedTo g earlier = []
  | .queued g r => r.command.Fits (Memory.paths (told earlier g))
  | .released _ => True

/-- Everything was done in turn. -/
def InTurn : List Deed → Prop
  | [] => True
  | deed :: earlier => deed.InTurn earlier ∧ InTurn earlier

/-- Every request was in turn when it was queued. -/
theorem InTurn.fits {later earlier : List Deed} {g : Nat} {r : Request}
    (h : InTurn (later ++ .queued g r :: earlier)) :
    r.command.Fits (Memory.paths (told earlier g)) := by
  induction later with
  | nil => exact h.1
  | cons deed rest ih => exact ih h.2

theorem fileTurns_queued (earlier : List Deed) (g : Nat) (r : Request) (path : String) :
    fileTurns (.queued g r :: earlier) g path =
      fileTurns earlier g path ++ (r.command.turn? path).toList := by
  simp only [fileTurns, Bridge.queuedTo, List.filterMap_cons, if_true, List.reverse_cons,
    List.filterMap_append, List.filterMap_nil]
  cases r.command.turn? path <;> rfl

theorem fileTurns_other (earlier : List Deed) {g g' : Nat} (hg : g' ≠ g) (r : Request)
    (path : String) : fileTurns (.queued g' r :: earlier) g path = fileTurns earlier g path := by
  simp only [fileTurns, Bridge.queuedTo, List.filterMap_cons, if_neg hg]

/-- The turns of a path alternate, and it is open after an odd number of them. -/
def Alternate (turns : List FileTurn) (path : String) (paths : Set String) : Prop :=
  ∃ n, turns = (List.range n).map FileTurn.ofIndex ∧ (path ∈ paths ↔ n % 2 = 1)

/-- A command that fits takes the next turn of its path, and none of the other paths. -/
theorem Command.Fits.alternate {c : Command} {paths : Set String} {path : String}
    {turns : List FileTurn} (hc : c.Fits paths) (h : Alternate turns path paths) :
    Alternate (turns ++ (c.turn? path).toList) path (c.obeyed paths) := by
  obtain ⟨n, rfl, hn⟩ := h
  have hnext : (List.range n).map FileTurn.ofIndex ++ [FileTurn.ofIndex n] =
      (List.range (n + 1)).map FileTurn.ofIndex := by
    rw [List.range_succ, List.map_append, List.map_singleton]
  cases c with
  | openFile path' content =>
      by_cases hp : path' = path
      · subst hp
        have heven : n % 2 = 0 := Nat.mod_two_ne_one.mp fun hodd => hc (hn.mpr hodd)
        refine ⟨n + 1, ?_, iff_of_true (Set.mem_insert _ _) (by omega)⟩
        rw [← hnext]
        simp [turn?, FileTurn.ofIndex, heven]
      · refine ⟨n, by simp [turn?, hp], ?_⟩
        simpa [obeyed, Ne.symm hp] using hn
  | closeFile path' =>
      by_cases hp : path' = path
      · subst hp
        have hodd : n % 2 = 1 := hn.mp hc
        refine ⟨n + 1, ?_, iff_of_false (fun h => h.2 rfl) (by omega)⟩
        rw [← hnext]
        simp [turn?, FileTurn.ofIndex, hodd]
      · refine ⟨n, by simp [turn?, hp], ?_⟩
        simpa [obeyed, Ne.symm hp] using hn
  | _ => exact ⟨n, List.append_nil _, hn⟩

/-- What was done in turn alternates. -/
theorem InTurn.alternate {trace : List Deed} (h : InTurn trace) (g : Nat) (path : String) :
    Alternate (fileTurns trace g path) path (Memory.paths (told trace g)) := by
  have hnone : Alternate [] path (Memory.paths fun _ => none) :=
    ⟨0, rfl, iff_of_false (fun hmem => hmem rfl) (by decide)⟩
  induction trace with
  | nil => exact hnone
  | cons deed earlier ih =>
      obtain ⟨hdeed, hearlier⟩ := h
      have hbefore := ih hearlier
      cases deed with
      | launched g' =>
          by_cases hg : g' = g
          · subst hg
            have hfresh : Bridge.queuedTo g' earlier = [] := hdeed
            have hturns : fileTurns (.launched g' :: earlier) g' path = [] := by
              change (Bridge.queuedTo g' earlier).reverse.filterMap _ = []
              rw [hfresh]
              rfl
            rw [hturns, told, if_pos rfl]
            exact hnone
          · rw [told, if_neg hg]
            exact hbefore
      | queued g' r =>
          by_cases hg : g' = g
          · subst hg
            rw [fileTurns_queued, told, if_pos rfl, Command.paths_remember]
            exact Command.Fits.alternate hdeed hbefore
          · rw [fileTurns_other _ hg, told, if_neg hg]
            exact hbefore
      | released g' => exact hbefore

namespace Bridge

open Call

/-! ## Requests that are queued -/

/-- The input of an instance is not opened during a pause. -/
theorem accepts_of_elapse {b : Bridge} {g : Nat} (h : b.elapse.accepts g = true) :
    b.accepts g = true := by
  have hdue : ∀ (due : List Incident) (b : Bridge), (due.foldl apply b).accepts g = true →
      b.accepts g = true := by
    intro due
    induction due with
    | nil => exact fun _ h => h
    | cons i rest ih =>
        intro b h
        by_contra hshut
        rw [Bool.not_eq_true] at hshut
        have hstill : (b.apply i).accepts g = false :=
          accepts_beat (x := .incident i) nofun hshut
        rw [ih (b.apply i) h] at hstill
        cases hstill
  unfold elapse at h
  split at h
  · exact h
  · next due later _ => exact hdue due { b with incidents := later } h

/-- A request is queued only to an instance that has worked. -/
theorem ends_send_works (b : Bridge) (g : Nat) (r : Request) :
    Ends (send g r) b (fun _ _ => b.works g = true) fun _ _ => True := by
  simp only [send, ends_bind, ends_get]
  split
  · next n writable hi =>
      simp only [ends_bind, ends_pause, ends_get]
      split
      · next n' alive hi' =>
          have haccepts : b.accepts g = true := accepts_of_elapse (by simp [accepts, hi'])
          simp only [ends_perform]
          simpa [accepts, works, hi] using haccepts
      · exact trivial
  · exact trivial

theorem ends_notify_works (b : Bridge) (g : Nat) (c : Command) :
    Ends (notify g c) b (fun _ _ => b.works g = true) fun _ _ => True := by
  simp only [notify, ends_bind, ends_pause]
  refine (ends_takeNumber b g).mono ?_ (fun _ _ h => h.elim)
  rintro n b₁ ⟨hlater, _⟩
  exact (ends_send_works _ g _).mono
    (fun _ _ h => (hlater.trans (later_elapse b₁)).works g h) (fun _ _ h => h)

/-! ## Bridges that take turns -/

/-- The open files have different paths. -/
structure Unmixed (path : String → String) (records : Table String String) : Prop where
  single : records.keys.Nodup
  distinct : ∀ f f', records.contains f = true → records.contains f' = true →
    path f = path f' → f = f'

/-- The paths of the open files. -/
def openPaths (path : String → String) (records : Table String String) : Set String :=
  {p | ∃ f, records.contains f = true ∧ path f = p}

/-- Everything was done in turn, and nothing yet to an instance that is still to come. -/
structure TakesTurns (b : Bridge) : Prop where
  inTurn : InTurn b.trace
  unknown : ∀ g, b.nextGeneration ≤ g → queuedTo g b.trace = []
  attached : ∀ g, b.attached = some g → g < b.nextGeneration

/-- Between two calls the attached instance has the paths of the open files open. -/
structure Settled (b : Bridge) : Prop where
  turns : b.TakesTurns
  unmixed : Unmixed b.servicePath b.records
  current : ∀ g, b.attached = some g → b.works g = true →
    Memory.paths (told b.trace g) = openPaths b.servicePath b.records

/-- A call made in `b` is talking to `g`, which has these paths open by now. -/
structure Turning (b : Bridge) (g : Nat) (paths : Set String) (b' : Bridge) : Prop where
  files : SameFiles b b'
  attached : b'.attached = some g
  turns : b'.TakesTurns
  current : b'.works g = true → Memory.paths (told b'.trace g) = paths

section Files

variable {path : String → String} {records : Table String String}

/-- A file may be opened if no other open file has its path. -/
theorem Unmixed.set (h : Unmixed path records) {f : String}
    (hclear : ∀ f', records.contains f' = true → path f' = path f → f' = f) (content : String) :
    Unmixed path (records.set f content) := by
  refine ⟨Table.nodup_keys_set records h.single f content, fun f₁ f₂ h₁ h₂ hpath => ?_⟩
  rcases (Table.contains_set records f content f₁).mp h₁ with rfl | h₁
  · rcases (Table.contains_set records f content f₂).mp h₂ with rfl | h₂
    · rfl
    · exact (hclear f₂ h₂ hpath.symm).symm
  · rcases (Table.contains_set records f content f₂).mp h₂ with rfl | h₂
    · exact hclear f₁ h₁ hpath
    · exact h.distinct f₁ f₂ h₁ h₂ hpath

theorem Unmixed.erase (h : Unmixed path records) (f : String) :
    Unmixed path (records.erase f) := by
  refine ⟨Table.nodup_keys_erase records h.single f, fun f₁ f₂ h₁ h₂ => ?_⟩
  obtain ⟨-, hopen₁⟩ := (Table.contains_erase records f f₁).mp h₁
  obtain ⟨-, hopen₂⟩ := (Table.contains_erase records f f₂).mp h₂
  exact h.distinct f₁ f₂ hopen₁ hopen₂

theorem openPaths_set (f content : String) :
    openPaths path (records.set f content) = insert (path f) (openPaths path records) := by
  ext p
  constructor
  · rintro ⟨f', hopen, rfl⟩
    rcases (Table.contains_set records f content f').mp hopen with rfl | hopen
    · exact Or.inl rfl
    · exact Or.inr ⟨f', hopen, rfl⟩
  · rintro (rfl | ⟨f', hopen, rfl⟩)
    · exact ⟨f, (Table.contains_set records f content f).mpr (Or.inl rfl), rfl⟩
    · exact ⟨f', (Table.contains_set records f content f').mpr (Or.inr hopen), rfl⟩

theorem openPaths_erase (h : Unmixed path records) {f : String}
    (hf : records.contains f = true) :
    openPaths path (records.erase f) = openPaths path records \ {path f} := by
  ext p
  constructor
  · rintro ⟨f', hopen, rfl⟩
    obtain ⟨hother, hopen⟩ := (Table.contains_erase records f f').mp hopen
    exact ⟨⟨f', hopen, rfl⟩, fun hpath => hother (h.distinct f' f hopen hf hpath).symm⟩
  · rintro ⟨⟨f', hopen, rfl⟩, hpath⟩
    refine ⟨f', (Table.contains_erase records f f').mpr ⟨?_, hopen⟩, rfl⟩
    rintro rfl
    exact hpath rfl

theorem SameFiles.unmixed {b b' : Bridge} (h : SameFiles b b')
    (hb : Unmixed b.servicePath b.records) : Unmixed b'.servicePath b'.records := by
  rw [h.servicePath, h.records]
  exact hb

end Files

namespace TakesTurns

variable {b b' : Bridge}

theorem of_same (h : b.TakesTurns) (htrace : b'.trace = b.trace)
    (hnext : b'.nextGeneration = b.nextGeneration)
    (hattached : b'.attached = b.attached ∨ b'.attached = none) : b'.TakesTurns := by
  refine ⟨htrace ▸ h.inTurn, fun g hg => ?_, fun g hg => ?_⟩
  · rw [htrace]
    exact h.unknown g (hnext ▸ hg)
  · rw [hnext]
    rcases hattached with hsame | hnone
    · exact h.attached g (hsame ▸ hg)
    · rw [hnone] at hg
      cases hg

theorem of_later (h : b.TakesTurns) (hlater : Later b b') (htrace : b'.trace = b.trace) :
    b'.TakesTurns :=
  h.of_same htrace hlater.nextGeneration (Or.inl hlater.attached)

/-- A request to a launched instance that fits what it has been told. -/
theorem queued (h : b.TakesTurns) (hlater : Later b b') {g : Nat} {r : Request}
    (htrace : b'.trace = .queued g r :: b.trace) (hg : g < b.nextGeneration)
    (hfits : r.command.Fits (Memory.paths (told b.trace g))) : b'.TakesTurns := by
  refine ⟨htrace ▸ ⟨hfits, h.inTurn⟩, fun g' hg' => ?_, fun g' hg' => ?_⟩
  · rw [hlater.nextGeneration] at hg'
    have hother : g ≠ g' := (hg.trans_le hg').ne
    simp only [htrace, queuedTo, List.filterMap_cons, if_neg hother]
    exact h.unknown g' hg'
  · rw [hlater.nextGeneration]
    exact h.attached g' (hlater.attached ▸ hg')

theorem ends_notify (h : b.TakesTurns) {g : Nat} (hg : g < b.nextGeneration) {c : Command}
    (hfits : c.Fits (Memory.paths (told b.trace g))) :
    Ends (notify g c) b (fun _ => TakesTurns) fun _ => TakesTurns := by
  refine (Bridge.ends_notify b g c).mono ?_ ?_
  · rintro _ b' ⟨hlater, n, htrace⟩
    exact h.queued hlater htrace hg hfits
  · rintro _ b' ⟨hlater, _, htrace⟩
    exact h.of_later hlater htrace

theorem ends_release (h : b.TakesTurns) (g : Nat) :
    Ends (release g) b (fun _ => TakesTurns) fun _ => TakesTurns := by
  refine (Bridge.ends_release b g).mono ?_ (fun _ _ h => h.elim)
  rintro _ b' ⟨hlater, _, htrace | htrace⟩
  · exact h.of_later hlater htrace
  · refine ⟨htrace ▸ ⟨trivial, h.inTurn⟩, fun g' hg' => ?_, fun g' hg' => ?_⟩
    · rw [htrace]
      exact h.unknown g' (hlater.nextGeneration ▸ hg')
    · rw [hlater.nextGeneration]
      exact h.attached g' (hlater.attached ▸ hg')

/-- Files with different paths are opened one by one on an instance that has none of them
open. -/
theorem ends_openAll {g : Nat} (records : List (String × String)) (h : b.TakesTurns)
    (hg : g < b.nextGeneration) (hpaths : (records.map fun r => b.servicePath r.1).Nodup)
    (hclosed : ∀ r ∈ records, b.servicePath r.1 ∉ Memory.paths (told b.trace g)) :
    Ends (openAll g records) b (fun _ => TakesTurns) fun _ => TakesTurns := by
  induction records generalizing b with
  | nil => exact h
  | cons r rest ih =>
      obtain ⟨filename, content⟩ := r
      obtain ⟨hfirst, hrest⟩ := List.nodup_cons.mp hpaths
      simp only [openAll, ends_bind, ends_get, ends_pause]
      have hfits : b.servicePath filename ∉ Memory.paths (told b.trace g) :=
        hclosed (filename, content) List.mem_cons_self
      have hnotify := h.ends_notify hg (c := .openFile (b.servicePath filename) content) hfits
      refine (hnotify.and (ends_notify_told b g _)).mono ?_ (fun _ _ h => h.1)
      rintro _ b₁ ⟨h₁, hlater, htold⟩
      have hpause := hlater.trans (later_elapse b₁)
      refine ih (h₁.of_later (later_elapse b₁) (trace_elapse b₁)) ?_ ?_ ?_
      · rw [hpause.nextGeneration]
        exact hg
      · rw [hpause.servicePath]
        exact hrest
      · intro r hr
        rw [hpause.servicePath, trace_elapse, htold, Command.paths_remember]
        rintro (heq | hmem)
        · exact hfirst (List.mem_map.mpr ⟨r, hr, heq⟩)
        · exact hclosed r (List.mem_cons_of_mem _ hr) hmem

/-- The records are opened in turn on a new instance. -/
theorem ends_launch (h : b.TakesTurns) (hunmixed : Unmixed b.servicePath b.records) :
    Ends launch b (fun _ => TakesTurns) fun _ => TakesTurns := by
  have hkeys : (b.sortedRecords.map (·.1)).Nodup :=
    ((perm_sortedRecords b).map Prod.fst).nodup_iff.mpr hunmixed.single
  have hmap : b.sortedRecords.map (fun r => b.servicePath r.1) = b.openFiles.map b.servicePath :=
    List.map_map.symm
  have hpaths : (b.sortedRecords.map fun r => b.servicePath r.1).Nodup := by
    rw [hmap]
    refine List.Nodup.map_on (fun f hf f' hf' hpath => ?_) hkeys
    exact hunmixed.distinct f f' ((mem_openFiles_iff b f).mp hf) ((mem_openFiles_iff b f').mp hf')
      hpath
  simp only [launch, ends_bind]
  refine (ends_nextLaunch b).mono ?_ (fun _ _ h => h.elim)
  rintro problem _ ⟨launches, rfl⟩
  cases problem with
  | some problem => exact h.of_same rfl rfl (Or.inl rfl)
  | none =>
      simp only [ends_bind, ends_get, ends_set, ends_perform]
      generalize hb₁ : ({ b with
        nextGeneration := b.nextGeneration + 1
        instances := b.instances.set b.nextGeneration ⟨1, true, true⟩
        findings := .empty
        launches
        trace := .launched b.nextGeneration :: b.trace } : Bridge) = b₁
      have hnext : b₁.nextGeneration = b.nextGeneration + 1 := hb₁ ▸ rfl
      have hpath : b₁.servicePath = b.servicePath := hb₁ ▸ rfl
      have hblank : told b₁.trace b.nextGeneration = fun _ => none := by
        subst hb₁
        exact if_pos rfl
      have h₁ : b₁.TakesTurns := by
        subst hb₁
        refine ⟨⟨h.unknown _ le_rfl, h.inTurn⟩, fun g hg => ?_, fun g hg => ?_⟩
        · exact h.unknown g ((Nat.le_succ _).trans hg)
        · exact (h.attached g hg).trans (Nat.lt_succ_self _)
      clear hb₁
      have hlaunched : b.nextGeneration < b₁.nextGeneration := hnext ▸ Nat.lt_succ_self _
      have hattach : ∀ {b₂ : Bridge}, b₂.TakesTurns → Later b₁ b₂ →
          ({ b₂ with attached := some b.nextGeneration } : Bridge).TakesTurns := by
        refine fun h₂ hlater => ⟨h₂.inTurn, h₂.unknown, fun g hg => ?_⟩
        obtain rfl := Option.some.inj hg
        exact hlater.nextGeneration ▸ hlaunched
      have hopened := h₁.ends_openAll b.sortedRecords hlaunched (hpath ▸ hpaths)
        (fun _ _ hmem => by simp [hblank, Memory.paths] at hmem)
      change Ends (openAll b.nextGeneration b.sortedRecords) b₁ _ _
      refine (hopened.and (Bridge.ends_openAll _ _ b₁)).mono ?_ (fun _ _ h => h.1)
      rintro _ b₂ ⟨h₂, hlater, _⟩
      split
      · exact hattach h₂ hlater
      · simp only [ends_bind, ends_pause, ends_modify]
        refine ((h₂.ends_notify (hlater.nextGeneration ▸ hlaunched) (by exact trivial)).and
          (Bridge.ends_notify b₂ _ _)).mono ?_ (fun _ _ h => h.1)
        rintro _ b₃ ⟨h₃, hlater₃, _⟩
        exact hattach (h₃.of_later (later_elapse b₃) (trace_elapse b₃))
          ((hlater.trans hlater₃).trans (later_elapse b₃))

theorem ends_ensure (h : b.TakesTurns) (hunmixed : Unmixed b.servicePath b.records) :
    Ends ensure b (fun _ => TakesTurns) fun _ => TakesTurns := by
  have hkeeps := Bridge.keeps_ensure
    (p := fun b => b.TakesTurns ∧ Unmixed b.servicePath b.records)
    (fun b h => ⟨h.1.of_same rfl rfl (Or.inr rfl), h.2⟩)
    (fun g b h => ((h.1.ends_release g).and (Bridge.ends_release b g)).mono
      (fun _ _ h' => ⟨h'.1, (SameFiles.of_later h'.2.1).unmixed h.2⟩) (fun _ _ h' => h'.2.elim))
    (fun b h => ((h.1.ends_launch h.2).and (Bridge.ends_launch b)).mono
      (fun _ _ h' => ⟨h'.1, h'.2.1.unmixed h.2⟩) (fun _ _ h' => ⟨h'.1, h'.2.1.unmixed h.2⟩)) b
  exact (hkeeps ⟨h, hunmixed⟩).mono (fun _ _ h => h.1) (fun _ _ h => h.1)

end TakesTurns

/-! ## Talking to an instance -/

section Talking

variable {b b' b'' : Bridge} {g : Nat} {paths : Set String}

/-- The paths of the records are open on an instance that was told of every record. -/
theorem paths_opened (b : Bridge) :
    Memory.paths (b.opened b.sortedRecords fun _ => none) = openPaths b.servicePath b.records := by
  have hopened : ∀ (records : List (String × String)) (m : Memory),
      Memory.paths (b.opened records m) =
        {p | ∃ r ∈ records, b.servicePath r.1 = p} ∪ Memory.paths m := by
    intro records
    induction records with
    | nil =>
        intro m
        simp [opened]
    | cons r rest ih =>
        intro m
        have hrest := ih ((Command.openFile (b.servicePath r.1) r.2).remember m)
        rw [Command.paths_remember] at hrest
        refine hrest.trans ?_
        ext p
        simp only [Command.obeyed, Set.mem_union, Set.mem_insert_iff, Set.mem_ofPred_eq,
          List.mem_cons, exists_eq_or_imp]
        rw [eq_comm (a := p), or_left_comm, or_assoc]
  rw [hopened]
  ext p
  constructor
  · rintro (⟨r, hr, rfl⟩ | hnone)
    · exact ⟨r.1, (mem_openFiles_iff b r.1).mp (List.mem_map_of_mem (f := (·.1)) hr), rfl⟩
    · exact absurd rfl hnone
  · rintro ⟨f, hopen, rfl⟩
    obtain ⟨r, hr, rfl⟩ := List.mem_map.mp ((mem_openFiles_iff b f).mpr hopen)
    exact Or.inl ⟨r, hr, rfl⟩

namespace Settled

/-- What is not about files and instances may change. -/
theorem of_same (hb : b.Settled) (hfiles : SameFiles b b') (htrace : b'.trace = b.trace)
    (hnext : b'.nextGeneration = b.nextGeneration)
    (hattached : b'.attached = b.attached ∨ b'.attached = none)
    (hworks : ∀ g, b'.works g = true → b.works g = true) : b'.Settled := by
  refine ⟨hb.turns.of_same htrace hnext hattached, hfiles.unmixed hb.unmixed,
    fun g hg hw => ?_⟩
  rw [htrace, hfiles.servicePath, hfiles.records]
  rcases hattached with hsame | hnone
  · exact hb.current g (hsame ▸ hg) (hworks g hw)
  · rw [hnone] at hg
    cases hg

theorem of_later (hb : b.Settled) (h : Later b b') (htrace : b'.trace = b.trace) : b'.Settled :=
  hb.of_same (.of_later h) htrace h.nextGeneration (Or.inl h.attached) h.works

end Settled

namespace Turning

theorem elapse (h : Turning b g paths b') : Turning b g paths b'.elapse := by
  have hlater := later_elapse b'
  have htrace := trace_elapse b'
  refine ⟨h.files.trans (.of_later hlater), hlater.attached.trans h.attached,
    h.turns.of_later hlater htrace, fun hworks => ?_⟩
  rw [htrace]
  exact h.current (hlater.works g hworks)

/-- One more request to the instance, which fits. -/
theorem queued (h : Turning b g paths b') (hlater : Later b' b'') {r : Request}
    (htrace : b''.trace = .queued g r :: b'.trace)
    (hfits : r.command.Fits (Memory.paths (told b'.trace g))) :
    Turning b g (r.command.obeyed paths) b'' := by
  refine ⟨h.files.trans (.of_later hlater), hlater.attached.trans h.attached,
    h.turns.queued hlater htrace (h.turns.attached g h.attached) hfits, fun hworks => ?_⟩
  rw [htrace, told, if_pos rfl, Command.paths_remember, h.current (hlater.works g hworks)]

/-- The instance has stopped.  There is nobody left to be told anything. -/
theorem stopped (hb : Unmixed b.servicePath b.records) (h : Turning b g paths b')
    (hlater : Later b' b'') (htrace : b''.trace = b'.trace) (hstopped : b''.works g = false) :
    b''.Settled := by
  refine ⟨h.turns.of_later hlater htrace, (h.files.trans (.of_later hlater)).unmixed hb,
    fun g' hg' hworks => ?_⟩
  rw [hlater.attached, h.attached] at hg'
  obtain rfl := Option.some.inj hg'
  rw [hstopped] at hworks
  cases hworks

/-- The instance is told something that fits, or it has stopped. -/
theorem ends_notify (hb : Unmixed b.servicePath b.records) (h : Turning b g paths b')
    {c : Command} (hfits : c.Fits paths) :
    Ends (notify g c) b' (fun _ => Turning b g (c.obeyed paths)) fun _ => Settled := by
  refine ((Bridge.ends_notify b' g c).and (ends_notify_works b' g c)).mono ?_ ?_
  · rintro _ b'' ⟨⟨hlater, n, htrace⟩, hworks⟩
    exact h.queued hlater htrace ((h.current hworks).symm ▸ hfits)
  · rintro _ b'' ⟨⟨hlater, hstopped, htrace⟩, -⟩
    exact h.stopped hb hlater htrace hstopped

/-- The talk ends when the open files have these paths. -/
theorem settled (h : Turning b g paths b') (hattached : b''.attached = b'.attached)
    (hnext : b''.nextGeneration = b'.nextGeneration) (htrace : b''.trace = b'.trace)
    (hinstances : b''.instances = b'.instances)
    (hunmixed : Unmixed b''.servicePath b''.records)
    (hpaths : openPaths b''.servicePath b''.records = paths) : b''.Settled := by
  refine ⟨h.turns.of_same htrace hnext (Or.inl hattached), hunmixed, fun g' hg' hworks => ?_⟩
  rw [hattached, h.attached] at hg'
  obtain rfl := Option.some.inj hg'
  have hworks' : b'.works g = true := by
    simp only [works, hinstances] at hworks ⊢
    exact hworks
  rw [htrace, hpaths]
  exact h.current hworks'

/-- A talk that leaves the paths of the records open. -/
theorem keeps (hb : Unmixed b.servicePath b.records)
    (h : Turning b g (openPaths b.servicePath b.records) b') : b'.Settled := by
  refine h.settled rfl rfl rfl rfl (h.files.unmixed hb) ?_
  rw [h.files.servicePath, h.files.records]

end Turning

/-- A call that needs the service begins with the paths of the records open. -/
theorem ends_ensure_turning (hb : b.Settled) :
    Ends ensure b (fun g => Turning b g (openPaths b.servicePath b.records)) fun _ => Settled := by
  refine ((ends_ensure b).and (hb.turns.ends_ensure hb.unmixed)).mono ?_ ?_
  · rintro g b' ⟨⟨hfiles, hattached, htold⟩, hturns⟩
    refine ⟨hfiles, hattached, hturns, fun hworks => ?_⟩
    rcases htold with rfl | htold
    · exact hb.current g hattached hworks
    · rw [htold, paths_opened]
  · rintro _ b' ⟨⟨hfiles, hnone⟩, hturns⟩
    refine ⟨hturns, hfiles.unmixed hb.unmixed, fun g hg => ?_⟩
    rw [hnone] at hg
    cases hg

end Talking

/-! ## Calls -/

namespace Settled

variable {b : Bridge}

theorem keeps_start : Keeps Settled start b := by
  intro hb
  simp only [start, ends_bind, ends_pure]
  exact (ends_ensure_turning hb).mono (fun _ _ h => h.keeps hb.unmixed) (fun _ _ h => h)

/-- A request that is not about single files. -/
theorem keeps_request {c : Command} (hfits : ∀ paths, c.Fits paths)
    (hobeyed : ∀ paths, c.obeyed paths = paths) :
    Keeps Settled (do
      let generation ← ensure
      pause
      notify generation c) b := by
  intro hb
  simp only [ends_bind, ends_pause]
  refine (ends_ensure_turning hb).mono ?_ (fun _ _ h => h)
  intro g b₁ h₁
  refine (h₁.elapse.ends_notify hb.unmixed (hfits _)).mono ?_ (fun _ _ h => h)
  intro _ b₂ h₂
  rw [hobeyed] at h₂
  exact h₂.keeps hb.unmixed

theorem keeps_reload : Keeps Settled reload b :=
  keeps_request (fun _ => trivial) fun _ => rfl

theorem keeps_requestDiagnostics (filenames : List String) (delay : Nat) :
    Keeps Settled (requestDiagnostics filenames delay) b := by
  refine .get_bind ?_
  simp only
  split
  · exact .pure _
  · exact keeps_request (fun _ => trivial) fun _ => rfl

theorem keeps_navigate (navigation : Navigation) (filename : String) (offset : Nat) :
    Keeps Settled (navigate navigation filename offset) b := by
  refine .get_bind ?_
  split
  · exact .throw _
  · intro hb
    simp only [ends_bind, ends_pause]
    refine (ends_ensure_turning hb).mono ?_ (fun _ _ h => h)
    intro g b₁ h₁
    refine (ends_request b₁.elapse g _).mono ?_ ?_
    · rintro _ b' ⟨hlater, n, htrace⟩
      exact (h₁.elapse.queued hlater htrace trivial).keeps hb.unmixed
    · rintro _ b' ⟨hlater, hstopped, htrace⟩
      exact h₁.elapse.stopped hb.unmixed hlater htrace hstopped

theorem keeps_release (g : Nat) : Keeps Settled (release g) b := by
  intro hb
  refine ((hb.turns.ends_release g).and (ends_release b g)).mono ?_ (fun _ _ h => h.2.elim)
  rintro _ b' ⟨hturns, hlater, -, htrace⟩
  have hfiles := SameFiles.of_later hlater
  have htold : told b'.trace = told b.trace := by
    rcases htrace with htrace | htrace
    · rw [htrace]
    · rw [htrace]
      rfl
  refine ⟨hturns, hfiles.unmixed hb.unmixed, fun g' hg' hworks => ?_⟩
  rw [htold, hfiles.servicePath, hfiles.records]
  exact hb.current g' (hlater.attached ▸ hg') (hlater.works g' hworks)

theorem keeps_shutdown : Keeps Settled shutdown b :=
  Bridge.keeps_shutdown
    (fun _ hb => hb.of_same ⟨rfl, rfl⟩ rfl rfl (Or.inr rfl) fun _ h => h)
    (fun g _ => keeps_release g)
    (fun _ hb => hb.of_same ⟨rfl, rfl⟩ rfl rfl (Or.inl rfl) fun _ h => h) b

/-- A file is opened at the end of a call that has left the other files' paths open. -/
theorem ends_opening {b' : Bridge} {g : Nat} {paths : Set String} {f : String} (content : String)
    (hb : b.Settled) (h : Turning b g paths b') (hfits : b.servicePath f ∉ paths)
    (hpaths : insert (b.servicePath f) paths =
      insert (b.servicePath f) (openPaths b.servicePath b.records))
    (hclear : ∀ f', b.isOpen f' = true → b.servicePath f' = b.servicePath f → f' = f) :
    Ends (do
      notify g (.openFile (b.servicePath f) content)
      pause
      record f content) b' (fun _ => Settled) fun _ => Settled := by
  simp only [ends_bind, ends_pause, record, ends_modify]
  refine (h.ends_notify hb.unmixed (c := .openFile _ content) hfits).mono ?_ (fun _ _ h => h)
  intro _ b₂ h₂
  have hfiles : SameFiles b b₂.elapse := h₂.elapse.files
  refine h₂.elapse.settled rfl rfl rfl rfl ?_ ?_
  · change Unmixed b₂.elapse.servicePath (b₂.elapse.records.set f content)
    rw [hfiles.servicePath, hfiles.records]
    exact hb.unmixed.set hclear content
  · change openPaths b₂.elapse.servicePath (b₂.elapse.records.set f content) = _
    rw [hfiles.servicePath, hfiles.records, openPaths_set]
    exact hpaths.symm

/-- A path that no other open file has is not open unless the file is. -/
theorem servicePath_notMem {f : String} (hclosed : b.isOpen f = false)
    (hclear : ∀ f', b.isOpen f' = true → b.servicePath f' = b.servicePath f → f' = f) :
    b.servicePath f ∉ openPaths b.servicePath b.records := by
  rintro ⟨f', hopen, hpath⟩
  rw [← hclear f' hopen hpath, isOpen, hopen] at hclosed
  cases hclosed

theorem keeps_update (f content : String)
    (hclear : ∀ f', b.isOpen f' = true → b.servicePath f' = b.servicePath f → f' = f) :
    Keeps Settled (update f content) b := by
  intro hb
  unfold update
  simp only [ends_bind, ends_get, ends_pause]
  refine (ends_ensure_turning hb).mono ?_ (fun _ _ h => h)
  intro g b₁ h₁
  split
  · next hopen =>
      have hmem : b.servicePath f ∈ openPaths b.servicePath b.records := ⟨f, hopen, rfl⟩
      rw [ends_bind]
      refine (h₁.elapse.ends_notify hb.unmixed (c := .closeFile _) hmem).mono ?_ (fun _ _ h => h)
      intro _ b₂ h₂
      exact ends_opening content hb h₂.elapse (fun h => h.2 rfl) Set.insert_sdiff_singleton hclear
  · next hclosed =>
      rw [Bool.not_eq_true] at hclosed
      exact ends_opening content hb h₁.elapse (servicePath_notMem hclosed hclear) rfl hclear

theorem keeps_openFile (f content : String)
    (hclear : ∀ f', b.isOpen f' = true → b.servicePath f' = b.servicePath f → f' = f) :
    Keeps Settled (openFile f content) b := by
  refine .get_bind ?_
  split
  · exact keeps_update f content hclear
  · next hclosed =>
      rw [Bool.not_eq_true] at hclosed
      intro hb
      rw [ends_bind]
      refine (ends_ensure_turning hb).mono ?_ (fun _ _ h => h)
      intro g b₁ h₁
      exact ends_opening content hb h₁.elapse (servicePath_notMem hclosed hclear) rfl hclear

theorem keeps_closeFile (f : String) : Keeps Settled (closeFile f) b := by
  refine .get_bind ?_
  split
  · next hopen =>
      intro hb
      generalize hb₁ : ({ b with
        records := b.records.erase f
        findings := b.findings.remove f } : Bridge) = b₁
      have hunmixed : Unmixed b₁.servicePath b₁.records := by
        subst hb₁
        exact hb.unmixed.erase f
      have hpaths : openPaths b₁.servicePath b₁.records =
          openPaths b.servicePath b.records \ {b.servicePath f} := by
        subst hb₁
        exact openPaths_erase hb.unmixed hopen
      have hturns : b₁.TakesTurns := hb.turns.of_same (hb₁ ▸ rfl) (hb₁ ▸ rfl) (Or.inl (hb₁ ▸ rfl))
      have hworks : b₁.works = b.works := hb₁ ▸ rfl
      have htrace : b₁.trace = b.trace := hb₁ ▸ rfl
      have hattached : b₁.attached = b.attached := hb₁ ▸ rfl
      rw [ends_bind, ends_set]
      -- The record is gone by now; a working instance still has the path open.
      split
      · next g hg =>
          split
          · have h₁ : Turning b₁ g (openPaths b.servicePath b.records) b₁ := by
              refine ⟨.refl b₁, hattached.trans hg, hturns, fun hw => ?_⟩
              rw [htrace]
              exact hb.current g hg (hworks ▸ hw)
            have hmem : b.servicePath f ∈ openPaths b.servicePath b.records := ⟨f, hopen, rfl⟩
            refine (h₁.ends_notify hunmixed (c := .closeFile _) hmem).mono ?_ (fun _ _ h => h)
            intro _ b₂ h₂
            rw [Command.obeyed, ← hpaths] at h₂
            exact h₂.keeps hunmixed
          · next hstopped =>
              refine ⟨hturns, hunmixed, fun g' hg' hw => ?_⟩
              rw [hattached, hg] at hg'
              obtain rfl := Option.some.inj hg'
              exact absurd (hworks ▸ hw) hstopped
      · next hnone =>
          refine ⟨hturns, hunmixed, fun g hg => ?_⟩
          rw [hattached, hnone] at hg
          cases hg
  · exact .pure _

/-- A record is moved to a path that no other open file has. -/
theorem keeps_rename (old new content : String)
    (hclear : ∀ f', b.isOpen f' = true → b.servicePath f' = b.servicePath new → f' = old) :
    Keeps Settled (rename old new content) b := by
  intro hb
  have hother : ∀ f', (b.records.erase old).contains f' = true →
      b.servicePath f' ≠ b.servicePath new := by
    intro f' hopen hpath
    obtain ⟨hne, hopen⟩ := (Table.contains_erase b.records old f').mp hopen
    exact hne (hclear f' hopen hpath).symm
  have hmoved : Unmixed b.servicePath ((b.records.erase old).set new content) :=
    (hb.unmixed.erase old).set (fun f' hopen hpath => absurd hpath (hother f' hopen)) content
  have hfits : b.servicePath new ∉ openPaths b.servicePath (b.records.erase old) := by
    rintro ⟨f', hopen, hpath⟩
    exact hother f' hopen hpath
  -- The instance has let go of the old path, and the record follows when it has the new one.
  have hmove : ∀ b₁ g, Turning b g (openPaths b.servicePath (b.records.erase old)) b₁ →
      Ends (do
        notify g (.openFile (b.servicePath new) content)
        pause
        modify fun b => { b with
          records := (b.records.erase old).set new content
          findings := b.findings.remove old }
        reload
        pause
        let b ← get
        requestDiagnostics b.openFiles b.settings.diagnosticsDelay.toNat) b₁
        (fun _ => Settled) fun _ => Settled := by
    intro b₁ g h₁
    simp only [ends_bind, ends_modify, ends_pause, ends_get]
    refine (h₁.ends_notify hb.unmixed (c := .openFile _ content) hfits).mono ?_ (fun _ _ h => h)
    intro _ b₂ h₂
    have hfiles : SameFiles b b₂.elapse := h₂.elapse.files
    have h₃ : ({ b₂.elapse with
        records := (b₂.elapse.records.erase old).set new content
        findings := b₂.elapse.findings.remove old } : Bridge).Settled := by
      refine h₂.elapse.settled rfl rfl rfl rfl ?_ ?_
      · change Unmixed b₂.elapse.servicePath ((b₂.elapse.records.erase old).set new content)
        rw [hfiles.servicePath, hfiles.records]
        exact hmoved
      · change openPaths b₂.elapse.servicePath
          ((b₂.elapse.records.erase old).set new content) = _
        rw [hfiles.servicePath, hfiles.records, openPaths_set]
        rfl
    refine (keeps_reload h₃).mono (fun _ b₄ h₄ => ?_) (fun _ _ h => h)
    exact keeps_requestDiagnostics _ _ (h₄.of_later (later_elapse b₄) (trace_elapse b₄))
  simp only [ends_bind, ends_modify, ends_pause, ends_get] at hmove
  simp only [rename, ends_bind, ends_get, ends_pause]
  refine (ends_ensure_turning hb).mono ?_ (fun _ _ h => h)
  intro g b₁ h₁
  split
  · next hold =>
      have hmem : b.servicePath old ∈ openPaths b.servicePath b.records := ⟨old, hold, rfl⟩
      simp only [ends_bind, ends_modify, ends_pause, ends_get]
      refine (h₁.elapse.ends_notify hb.unmixed (c := .closeFile _) hmem).mono ?_ (fun _ _ h => h)
      intro _ b₂ h₂
      rw [Command.obeyed, ← openPaths_erase hb.unmixed hold] at h₂
      exact hmove _ g h₂.elapse
  · next hclosed =>
      rw [Bool.not_eq_true, isOpen, Table.contains_eq_false_iff] at hclosed
      rw [← Table.erase_of_find?_eq_none _ _ hclosed] at h₁
      simp only [ends_bind, ends_modify, ends_pause, ends_get]
      exact hmove _ g h₁.elapse

/-- Taking a report settles nothing anew. -/
theorem handle (hb : b.Settled) (report : Report) : (b.handle report).2.Settled := by
  obtain ⟨findings, heq⟩ := handle_eq b report
  rw [heq]
  exact hb.of_same ⟨rfl, rfl⟩ rfl rfl (Or.inl rfl) fun _ h => h

end Settled

/-! ## Histories -/

/-- No other open file has the path that the move opens.  A record that is moved away does not
count. -/
def Move.Clear (b : Bridge) : Move → Prop
  | .openFile f _ | .update f _ =>
    ∀ f' ∈ b.records.keys, b.servicePath f' = b.servicePath f → f' = f
  | .rename old new _ => ∀ f' ∈ b.records.keys, b.servicePath f' = b.servicePath new → f' = old
  | _ => True

instance decidableClear (b : Bridge) : (m : Move) → Decidable (m.Clear b)
  | .openFile f _ | .update f _ =>
    inferInstanceAs (Decidable (∀ f' ∈ b.records.keys,
      b.servicePath f' = b.servicePath f → f' = f))
  | .rename old new _ =>
    inferInstanceAs (Decidable (∀ f' ∈ b.records.keys,
      b.servicePath f' = b.servicePath new → f' = old))
  | .start | .closeFile _ | .reload | .requestDiagnostics _ _ | .navigate _ _ _ | .shutdown
  | .collect _ _ | .hear | .happens _ | .plan _ _ _ => .isTrue trivial

/-- All moves are clear when they are made. -/
def Clears (b : Bridge) : List Move → Prop
  | [] => True
  | m :: rest => m.Clear b ∧ (b.play m).Clears rest

instance decidableClears : (b : Bridge) → (moves : List Move) → Decidable (b.Clears moves)
  | _, [] => .isTrue trivial
  | b, m :: rest =>
    have : Decidable ((b.play m).Clears rest) := decidableClears (b.play m) rest
    inferInstanceAs (Decidable (m.Clear b ∧ (b.play m).Clears rest))

/-- Every clear move leads from a settled bridge to a settled one. -/
theorem settled_play {b : Bridge} (hb : b.Settled) {m : Move} (hm : m.Clear b) :
    (b.play m).Settled := by
  have hopen : ∀ {f'}, b.isOpen f' = true → f' ∈ b.records.keys :=
    (Table.contains_iff_mem_keys _ _).mp
  cases m with
  | start => exact Ends.always (Settled.keeps_start hb)
  | openFile f content =>
      exact Ends.always (Settled.keeps_openFile f content (fun f' h => hm f' (hopen h)) hb)
  | update f content =>
      exact Ends.always (Settled.keeps_update f content (fun f' h => hm f' (hopen h)) hb)
  | closeFile f => exact Ends.always (Settled.keeps_closeFile f hb)
  | rename old new content =>
      exact Ends.always (Settled.keeps_rename old new content (fun f' h => hm f' (hopen h)) hb)
  | reload => exact Ends.always (Settled.keeps_reload hb)
  | requestDiagnostics filenames delay =>
      exact Ends.always (Settled.keeps_requestDiagnostics filenames delay hb)
  | navigate navigation f offset =>
      exact Ends.always (Settled.keeps_navigate navigation f offset hb)
  | shutdown => exact Ends.always (Settled.keeps_shutdown hb)
  | collect ticket navigation =>
      rcases play_collect_cases b ticket navigation with heq | heq
      · rwa [heq]
      · rw [heq]
        exact hb.of_later (later_apply b (.expires ticket)) (trace_apply b _)
  | hear =>
      simp only [play]
      split
      · exact hb
      · next report rest _ =>
          exact Settled.handle (b := { b with reports := rest })
            (hb.of_same ⟨rfl, rfl⟩ rfl rfl (Or.inl rfl) fun _ h => h) report
  | happens incident => exact hb.of_later (later_apply b incident) (trace_apply b incident)
  | plan hindrance launches incidents =>
      exact hb.of_same ⟨rfl, rfl⟩ rfl rfl (Or.inl rfl) fun _ h => h

theorem settled_new (settings : ServiceSettings) (projectDir : String) :
    (new settings projectDir).Settled :=
  ⟨⟨trivial, fun _ _ => rfl, nofun⟩, ⟨List.nodup_nil, nofun⟩, nofun⟩

theorem settled_playAll (moves : List Move) {b : Bridge} (hb : b.Settled)
    (hclears : b.Clears moves) : (b.playAll moves).Settled := by
  induction moves generalizing b with
  | nil => exact hb
  | cons m rest ih => exact ih (settled_play hb hclears.1) hclears.2

/-- On every instance the requests that open and close a path alternate, starting with one that
opens it.  So no path is opened that is open on that instance by then, and none is closed that
is not.  The service may do whatever it likes meanwhile; no other open file must have a path
that is opened. -/
theorem turns_alternate (settings : ServiceSettings) (projectDir : String) (moves : List Move)
    (hclears : (new settings projectDir).Clears moves) :
    let trace := ((new settings projectDir).playAll moves).trace
    (∀ g path i (hi : i < (fileTurns trace g path).length),
      (fileTurns trace g path)[i] = FileTurn.ofIndex i) ∧
    ∀ later earlier g r, trace = later ++ .queued g r :: earlier →
      r.command.Fits (Memory.paths (told earlier g)) := by
  intro trace
  have hsettled := settled_playAll moves (settled_new settings projectDir) hclears
  have hturn : InTurn trace := hsettled.turns.inTurn
  refine ⟨fun g path i hi => ?_, fun later earlier g r hsplit => ?_⟩
  · obtain ⟨n, hturns, -⟩ := hturn.alternate g path
    simp only [hturns, List.getElem_map, List.getElem_range]
  · rw [hsplit] at hturn
    exact hturn.fits

/-- An instance dies, and its files go on on another one under changing names. -/
theorem turns_alternate_relaunched :
    let moves : List Move := [.openFile "a.ts" "1", .update "a.ts" "2", .happens (.dies 1),
      .rename "a.ts" "b.ts" "3", .rename "b.ts" "/book/src/b.ts" "4"]
    let trace := ((new .standard "/book").playAll moves).trace
    (new .standard "/book").Clears moves ∧
    fileTurns trace 1 "/book/src/a.ts" = [.opening, .closing, .opening] ∧
    fileTurns trace 2 "/book/src/a.ts" = [.opening, .closing] ∧
    fileTurns trace 2 "/book/src/b.ts" = [.opening, .closing, .opening] ∧
    ∀ g path i (hi : i < (fileTurns trace g path).length),
      (fileTurns trace g path)[i] = FileTurn.ofIndex i := by
  refine ⟨by decide +kernel, by decide +kernel, by decide +kernel, by decide +kernel, ?_⟩
  exact (turns_alternate .standard "/book" _ (by decide +kernel)).1

/-- A path is opened twice when a file is renamed to another that is open, and when two
filenames share it.  A rename that fails since no instance can be launched leaves the old record,
so that renaming the file back is already enough. -/
theorem turns_repeat :
    let shared := (new .standard "/book").playAll
      [.openFile "a.ts" "1", .openFile "/book/src/a.ts" "2"]
    let moved := (new .standard "/book").playAll
      [.openFile "a.ts" "1", .openFile "b.ts" "2", .rename "a.ts" "b.ts" "3"]
    let movedBack := (new .standard "/book").playAll
      [.openFile "a.ts" "1", .happens (.dies 1), .plan none [some (.failed "no")] [],
        .rename "a.ts" "b.ts" "1", .rename "b.ts" "a.ts" "1"]
    fileTurns shared.trace 1 "/book/src/a.ts" = [.opening, .opening] ∧
    fileTurns moved.trace 1 "/book/src/b.ts" = [.opening, .opening] ∧
    fileTurns movedBack.trace 2 "/book/src/a.ts" = [.opening, .opening] := by
  decide +kernel

end Bridge
end Notebook
