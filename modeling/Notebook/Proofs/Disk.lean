import Notebook.Disk
import Notebook.Proofs.Table
import Mathlib.Data.Set.Basic

/-!
# Places on the disk

`Disk.placeOf` is the place that a path names by itself.  Where a path leads on a disk depends
on the disk only in so far as there have to be directories on the way.

`Touches places d d'` says that from `d` to `d'` nothing has changed outside of `places`, and
that every directory is still one.  A path that leads somewhere then still leads there, and what
is read elsewhere stays the same.

* `LeadsFrom.locate`: from a directory, a path with one more name needs one more step.
* `Touches.leads`, `Touches.read`: what is kept.
* `write_touches`, `removeFile_touches`, `makeDirectories_touches`: an operation that comes off
  touches nothing but the place that its path names.
-/

set_option autoImplicit false

namespace Notebook
namespace Disk

variable {d d' d'' : Disk} {places : Set Place} {place next : Place} {path : String}

/-! ## Nodes -/

theorem node?_put (d : Disk) {place : Place} (hplace : place ≠ []) (node : Node) (q : Place) :
    (d.put place node).node? q = if place = q then some node else d.node? q := by
  unfold node?
  by_cases hq : q = []
  · rw [if_pos hq, if_pos hq, if_neg fun h => hplace (h.trans hq)]
  · rw [if_neg hq, if_neg hq]
    exact Table.find?_set _ _ _ _

theorem node?_erase (d : Disk) {place : Place} (hplace : place ≠ []) (q : Place) :
    (⟨d.nodes.erase place⟩ : Disk).node? q = if place = q then none else d.node? q := by
  unfold node?
  by_cases hq : q = []
  · rw [if_pos hq, if_pos hq, if_neg fun h => hplace (h.trans hq)]
  · rw [if_neg hq, if_neg hq]
    exact Table.find?_erase _ _ _

/-- The root is a directory. -/
theorem ne_nil_of_node? (h : d.node? place ≠ some .directory) : place ≠ [] := by
  rintro rfl
  exact h rfl

/-! ## Following paths -/

/-- The place that one component leads to. -/
def follow (place : Place) : Path.Component → Place
  | .root => []
  | .current => place
  | .parent => place.dropLast
  | .name name => place ++ [name]

/-- The place that a path names. -/
def placeOf (path : String) : Place :=
  (Path.components path.toList).foldl follow []

/-- A component is followed from a directory. -/
theorem of_step_eq_ok {c : Path.Component} (h : d.step place c = .ok next) :
    d.node? place = some .directory ∧ next = follow place c := by
  unfold step at h
  split at h
  · cases h
  · cases h
  · next hdirectory =>
      refine ⟨hdirectory, ?_⟩
      cases c with
      | root => exact (Except.ok.inj h).symm
      | current => exact (Except.ok.inj h).symm
      | parent => exact (Except.ok.inj h).symm
      | name name =>
          simp only at h
          split at h
          · cases h
          · split at h
            · cases h
            · exact (Except.ok.inj h).symm

theorem foldlM_step_cons {c : Path.Component} {cs : List Path.Component} :
    (c :: cs).foldlM d.step place = .ok next ↔
      ∃ place₁, d.step place c = .ok place₁ ∧ cs.foldlM d.step place₁ = .ok next := by
  rw [List.foldlM_cons]
  cases hstep : d.step place c with
  | error e => simp [bind, Except.bind]
  | ok place₁ => simp [bind, Except.bind]

theorem of_foldlM_step {cs : List Path.Component} (h : cs.foldlM d.step place = .ok next) :
    next = cs.foldl follow place := by
  induction cs generalizing place with
  | nil => exact (Except.ok.inj h).symm
  | cons c rest ih =>
      obtain ⟨place₁, hstep, hrest⟩ := foldlM_step_cons.mp h
      rw [List.foldl_cons, ← (of_step_eq_ok hstep).2]
      exact ih hrest

theorem of_locate_eq_ok (h : d.locate [] path = .ok place) : place = placeOf path := by
  unfold locate at h
  split at h
  · cases h
  · exact of_foldlM_step h

/-- A path with one more name names a place one step below. -/
theorem placeOf_eq_append {dir : String} {name : List Char}
    (h : Path.components path.toList = Path.components dir.toList ++ [.name name]) :
    placeOf path = placeOf dir ++ [name] := by
  rw [placeOf, h, List.foldl_append]
  rfl

/-- The path leads from a directory to another.  An empty path leads nowhere else. -/
structure LeadsFrom (d : Disk) (cwd : Place) (path : String) (place : Place) : Prop where
  way : (Path.components path.toList).foldlM d.step cwd = .ok place
  there : d.node? place = some .directory

/-- The path leads to a directory.  An empty path leads to the root. -/
def Leads (d : Disk) (path : String) : Prop :=
  (Path.components path.toList).foldlM d.step [] = .ok (placeOf path) ∧
    d.node? (placeOf path) = some .directory

theorem Leads.fromRoot (h : d.Leads path) : d.LeadsFrom [] path (placeOf path) :=
  ⟨h.1, h.2⟩

theorem step_name (h : d.node? place = some .directory) (name : List Char) :
    d.step place (.name name) =
      if nameLimit < nameSize name then .error .nameTooLong
      else if '\x00' ∈ name then .error .invalidName
      else .ok (place ++ [name]) := by
  simp only [step, h]

/-- From a directory, a path with one more name is followed by one more step. -/
theorem LeadsFrom.locate {cwd : Place} {dir : String} {name : List Char}
    (hdir : d.LeadsFrom cwd dir place)
    (hpath : Path.components path.toList = Path.components dir.toList ++ [.name name]) :
    d.locate cwd path = d.step place (.name name) := by
  have hnonempty : path.isEmpty = false := by
    cases hempty : path.isEmpty with
    | false => rfl
    | true =>
        rw [String.isEmpty_iff.mp hempty] at hpath
        simp [Path.components, Path.pieces, Path.component?] at hpath
  rw [Disk.locate, hnonempty, hpath, List.foldlM_append, hdir.way]
  change [Path.Component.name name].foldlM d.step place = _
  rw [List.foldlM_cons]
  cases d.step place (.name name) <;> rfl

theorem Leads.locate {dir : String} {name : List Char} (hdir : d.Leads dir)
    (hpath : Path.components path.toList = Path.components dir.toList ++ [.name name]) :
    d.locate [] path = d.step (placeOf dir) (.name name) :=
  hdir.fromRoot.locate hpath

/-- A name in a directory leads to the same place on every disk with this directory. -/
theorem Leads.locate_congr {dir : String} {name : List Char} (hdir : d.Leads dir)
    (hdir' : d'.Leads dir)
    (hpath : Path.components path.toList = Path.components dir.toList ++ [.name name]) :
    d'.locate [] path = d.locate [] path := by
  rw [hdir.locate hpath, hdir'.locate hpath, step_name hdir.2, step_name hdir'.2]

/-- What lies in a directory has led through it. -/
theorem Leads.parent {dir : String} {name : List Char} (h : d.Leads path)
    (hpath : Path.components path.toList = Path.components dir.toList ++ [.name name]) :
    d.Leads dir := by
  have hway := h.1
  rw [hpath, List.foldlM_append] at hway
  cases hdir : (Path.components dir.toList).foldlM d.step [] with
  | error e => simp [hdir, bind, Except.bind] at hway
  | ok place =>
      obtain rfl : place = placeOf dir := of_foldlM_step hdir
      rw [hdir] at hway
      obtain ⟨_, hstep, -⟩ := foldlM_step_cons.mp hway
      exact ⟨hdir, (of_step_eq_ok hstep).1⟩

/-! ## Touching places -/

/-- Nothing has changed outside of the places, and directories have stayed directories. -/
structure Touches (places : Set Place) (d d' : Disk) : Prop where
  nodes : ∀ place ∉ places, d'.node? place = d.node? place
  directories : ∀ place, d.node? place = some .directory → d'.node? place = some .directory

namespace Touches

theorem refl (places : Set Place) (d : Disk) : Touches places d d :=
  ⟨fun _ _ => rfl, fun _ h => h⟩

theorem trans (h : Touches places d d') (h' : Touches places d' d'') : Touches places d d'' :=
  ⟨fun p hp => (h'.nodes p hp).trans (h.nodes p hp),
    fun p hp => h'.directories p (h.directories p hp)⟩

theorem mono {places' : Set Place} (h : Touches places d d') (hsub : places ⊆ places') :
    Touches places' d d' :=
  ⟨fun p hp => h.nodes p fun hmem => hp (hsub hmem), h.directories⟩

theorem step (h : Touches places d d') {c : Path.Component} (hstep : d.step place c = .ok next) :
    d'.step place c = .ok next := by
  have hdirectory := (of_step_eq_ok hstep).1
  unfold Disk.step at hstep ⊢
  rw [hdirectory] at hstep
  rw [h.directories place hdirectory]
  exact hstep

/-- A way that could be gone can still be gone. -/
theorem foldlM_step (h : Touches places d d') {cs : List Path.Component}
    (hcs : cs.foldlM d.step place = .ok next) : cs.foldlM d'.step place = .ok next := by
  induction cs generalizing place with
  | nil => exact hcs
  | cons c rest ih =>
      obtain ⟨place₁, hstep, hrest⟩ := foldlM_step_cons.mp hcs
      exact foldlM_step_cons.mpr ⟨place₁, h.step hstep, ih hrest⟩

theorem leads (h : Touches places d d') (hpath : d.Leads path) : d'.Leads path :=
  ⟨h.foldlM_step hpath.1, h.directories _ hpath.2⟩

theorem locate (h : Touches places d d') (hpath : d.locate [] path = .ok place) :
    d'.locate [] path = .ok place := by
  unfold Disk.locate at hpath ⊢
  split
  · next hempty =>
      rw [if_pos hempty] at hpath
      cases hpath
  · next hempty =>
      rw [if_neg hempty] at hpath
      exact h.foldlM_step hpath

end Touches

/-! ## Reading -/

/-- What is read at a path is the file at its place, to which the path has to lead. -/
theorem read_eq_ok_iff {data : ByteArray} :
    d.read [] path = .ok data ↔ d.locate [] path = .ok (placeOf path) ∧
      (∃ executable, d.node? (placeOf path) = some (.file data executable)) ∧
      endsAsDirectory path.toList = false := by
  unfold read find
  cases hlocate : d.locate [] path with
  | error e => simp [bind, Except.bind]
  | ok place =>
      obtain rfl := of_locate_eq_ok hlocate
      cases hnode : d.node? (placeOf path) with
      | none => simp [bind, Except.bind, hnode]
      | some node =>
          cases node with
          | directory => simp [bind, Except.bind, hnode]
          | file data' executable =>
              cases hends : endsAsDirectory path.toList with
              | true => simp [bind, Except.bind, hnode]
              | false => simp [bind, Except.bind, hnode]

/-- What is read elsewhere stays the same. -/
theorem Touches.read (h : Touches places d d') {data : ByteArray}
    (hpath : placeOf path ∉ places) (hread : d.read [] path = .ok data) :
    d'.read [] path = .ok data := by
  obtain ⟨hlocate, ⟨executable, hnode⟩, hends⟩ := read_eq_ok_iff.mp hread
  exact read_eq_ok_iff.mpr
    ⟨h.locate hlocate, ⟨executable, (h.nodes _ hpath).trans hnode⟩, hends⟩

/-- Nothing is there if nothing is stored. -/
theorem isThere_eq_false (h : d.node? (placeOf path) = none) : d.isThere [] path = false := by
  unfold isThere find
  cases hlocate : d.locate [] path with
  | error e => rfl
  | ok place =>
      obtain rfl := of_locate_eq_ok hlocate
      simp [bind, Except.bind, h, Except.toOption]

/-! ## Changing -/

/-- Storing a file touches its place alone, as long as no directory was there. -/
theorem put_touches (hplace : d.node? place ≠ some .directory) (node : Node) :
    Touches {place} d (d.put place node) := by
  have hne := ne_nil_of_node? hplace
  refine ⟨fun q hq => ?_, fun q hq => ?_⟩
  · rw [node?_put d hne, if_neg fun h => hq h.symm]
  · rw [node?_put d hne, if_neg]
    · exact hq
    · rintro rfl
      exact hplace hq

/-- What was written is a file, which keeps its mode if it was there before. -/
theorem write_cases {data : ByteArray} (h : d.write [] path data = .ok d') :
    ∃ executable, d' = d.put (placeOf path) (.file data executable) ∧
      d.locate [] path = .ok (placeOf path) ∧ endsAsDirectory path.toList = false ∧
      (d.node? (placeOf path) = none ∨
        ∃ old, d.node? (placeOf path) = some (.file old executable)) := by
  unfold write target at h
  cases hlocate : d.locate [] path with
  | error e =>
      rw [hlocate] at h
      cases h
  | ok place =>
      obtain rfl := of_locate_eq_ok hlocate
      simp only [hlocate, bind, Except.bind] at h
      cases hnode : d.node? (placeOf path) with
      | none =>
          rw [hnode] at h
          cases hends : endsAsDirectory path.toList with
          | true => simp [hends] at h
          | false =>
              simp only [hends] at h
              exact ⟨false, (Except.ok.inj h).symm, rfl, rfl, Or.inl rfl⟩
      | some node =>
          rw [hnode] at h
          cases node with
          | directory => cases h
          | file old executable =>
              cases hends : endsAsDirectory path.toList with
              | true => simp [hends] at h
              | false =>
                  simp only [hends] at h
                  exact ⟨executable, (Except.ok.inj h).symm, rfl, rfl, Or.inr ⟨old, rfl⟩⟩

/-- What was written can be read. -/
theorem write_touches {data : ByteArray} (h : d.write [] path data = .ok d') :
    Touches {placeOf path} d d' ∧ d'.read [] path = .ok data := by
  obtain ⟨executable, rfl, hlocate, hends, hnode⟩ := write_cases h
  have hdirectory : d.node? (placeOf path) ≠ some .directory := by
    rcases hnode with hnode | ⟨old, hnode⟩ <;> rw [hnode] <;> nofun
  have htouches := put_touches hdirectory (.file data executable)
  refine ⟨htouches, read_eq_ok_iff.mpr ⟨htouches.locate hlocate, ⟨executable, ?_⟩, hends⟩⟩
  rw [node?_put d (ne_nil_of_node? hdirectory), if_pos rfl]

/-- Writing what can be read already changes nothing. -/
theorem write_back {data : ByteArray} (hread : d.read [] path = .ok data)
    (h : d.write [] path data = .ok d') : Touches ∅ d d' := by
  obtain ⟨executable, rfl, -, -, hnode⟩ := write_cases h
  obtain ⟨-, ⟨executable', hold⟩, -⟩ := read_eq_ok_iff.mp hread
  have hsame : d.node? (placeOf path) = some (.file data executable) := by
    rcases hnode with hnone | ⟨old, hnode⟩
    · rw [hold] at hnone
      cases hnone
    · rw [hold] at hnode ⊢
      cases hnode
      rfl
  have hnodes : ∀ q, (d.put (placeOf path) (.file data executable)).node? q = d.node? q := by
    intro q
    rw [node?_put d (ne_nil_of_node? (by rw [hsame]; nofun))]
    split
    · next heq => exact heq ▸ hsame.symm
    · rfl
  exact ⟨fun q _ => hnodes q, fun q hq => (hnodes q).trans hq⟩

/-- A file that was removed is gone. -/
theorem removeFile_touches (h : d.removeFile [] path = .ok d') :
    Touches {placeOf path} d d' ∧ d'.node? (placeOf path) = none := by
  unfold removeFile find at h
  cases hlocate : d.locate [] path with
  | error e =>
      rw [hlocate] at h
      cases h
  | ok place =>
      obtain rfl := of_locate_eq_ok hlocate
      simp only [hlocate, bind, Except.bind] at h
      cases hnode : d.node? (placeOf path) with
      | none =>
          rw [hnode] at h
          cases h
      | some node =>
          rw [hnode] at h
          cases node with
          | directory => cases h
          | file data executable =>
              cases hends : endsAsDirectory path.toList with
              | true => simp [hends] at h
              | false =>
                  simp only [hends] at h
                  obtain rfl := Except.ok.inj h
                  have hdirectory : d.node? (placeOf path) ≠ some .directory := by
                    rw [hnode]
                    nofun
                  have hne := ne_nil_of_node? hdirectory
                  refine ⟨⟨fun q hq => ?_, fun q hq => ?_⟩, ?_⟩
                  · rw [node?_erase d hne, if_neg fun h => hq h.symm]
                  · rw [node?_erase d hne, if_neg]
                    · exact hq
                    · rintro rfl
                      exact hdirectory hq
                  · rw [node?_erase d hne, if_pos rfl]

/-- A file that cannot be removed from a directory since it is not found is not there. -/
theorem node?_of_removeFile_notFound {dir : String} {name : List Char} (hdir : d.Leads dir)
    (hpath : Path.components path.toList = Path.components dir.toList ++ [.name name])
    (h : d.removeFile [] path = .error .notFound) : d.node? (placeOf path) = none := by
  unfold removeFile find at h
  cases hlocate : d.locate [] path with
  | error e =>
      simp only [hlocate, bind, Except.bind] at h
      rw [hdir.locate hpath, step_name hdir.2] at hlocate
      obtain rfl := Except.error.inj h
      split at hlocate
      · cases hlocate
      · split at hlocate
        · cases hlocate
        · cases hlocate
  | ok place =>
      obtain rfl := of_locate_eq_ok hlocate
      simp only [hlocate, bind, Except.bind] at h
      cases hnode : d.node? (placeOf path) with
      | none => rfl
      | some node =>
          rw [hnode] at h
          cases node with
          | directory => cases h
          | file data executable =>
              cases hends : endsAsDirectory path.toList with
              | true => simp [hends] at h
              | false => simp [hends] at h

/-! ## Making directories -/

theorem foldlM_makeStep_cons {c : Path.Component} {cs : List Path.Component}
    {s s' : Disk × Place} :
    (c :: cs).foldlM makeStep s = .ok s' ↔
      ∃ s₁, makeStep s c = .ok s₁ ∧ cs.foldlM makeStep s₁ = .ok s' := by
  rw [List.foldlM_cons]
  cases hstep : makeStep s c with
  | error e => simp [bind, Except.bind]
  | ok s₁ => simp [bind, Except.bind]

/-- A component leads to a directory that is there, or to a place that is made one. -/
theorem makeStep_cases {c : Path.Component} (h : makeStep (d, place) c = .ok (d', next)) :
    d.step place c = .ok next ∧ (d.node? next = some .directory ∧ d' = d ∨
      d.node? next = none ∧ d' = d.put next .directory) := by
  unfold makeStep at h
  cases hstep : d.step place c with
  | error e =>
      simp [hstep, bind, Except.bind] at h
  | ok next' =>
      simp only [hstep, bind, Except.bind] at h
      cases hnode : d.node? next' with
      | none =>
          rw [hnode] at h
          obtain ⟨rfl, rfl⟩ := Prod.mk.inj (Except.ok.inj h)
          exact ⟨rfl, Or.inr ⟨hnode, rfl⟩⟩
      | some node =>
          rw [hnode] at h
          cases node with
          | file data executable => cases h
          | directory =>
              obtain ⟨rfl, rfl⟩ := Prod.mk.inj (Except.ok.inj h)
              exact ⟨rfl, Or.inl ⟨hnode, rfl⟩⟩

/-- A component that is made leads to a directory, which is new or was there before. -/
theorem of_makeStep_eq_ok {c : Path.Component} (h : makeStep (d, place) c = .ok (d', next)) :
    d.step place c = .ok next ∧ Touches {next} d d' ∧ d'.node? next = some .directory ∧
      (d.node? next = some .directory → d' = d) := by
  obtain ⟨hstep, ⟨hnode, rfl⟩ | ⟨hnode, rfl⟩⟩ := makeStep_cases h
  · exact ⟨hstep, Touches.refl _ d', hnode, fun _ => rfl⟩
  · have hdirectory : d.node? next ≠ some .directory := by
      rw [hnode]
      nofun
    refine ⟨hstep, put_touches hdirectory .directory, ?_, fun h => absurd h hdirectory⟩
    rw [node?_put d (ne_nil_of_node? hdirectory), if_pos rfl]

/-- Where directories were made, the way can be gone. -/
theorem of_foldlM_makeStep {cs : List Path.Component} (hplace : d.node? place = some .directory)
    (h : cs.foldlM makeStep (d, place) = .ok (d', next)) :
    Touches Set.univ d d' ∧ cs.foldlM d'.step place = .ok next ∧
      d'.node? next = some .directory := by
  induction cs generalizing d place with
  | nil =>
      obtain ⟨rfl, rfl⟩ := Prod.mk.inj (Except.ok.inj h)
      exact ⟨Touches.refl _ d, rfl, hplace⟩
  | cons c rest ih =>
      obtain ⟨⟨d₁, place₁⟩, hmake, hrest⟩ := foldlM_makeStep_cons.mp h
      obtain ⟨hstep, htouches, hdirectory, -⟩ := of_makeStep_eq_ok hmake
      have hfirst : Touches Set.univ d d₁ := htouches.mono (Set.subset_univ _)
      obtain ⟨hlater, hway, hlast⟩ := ih hdirectory hrest
      exact ⟨hfirst.trans hlater,
        foldlM_step_cons.mpr ⟨place₁, (hfirst.trans hlater).step hstep, hway⟩, hlast⟩

/-- A way along directories is left as it is. -/
theorem foldlM_makeStep_of_step {cs : List Path.Component}
    (h : cs.foldlM d.step place = .ok next) (hnext : d.node? next = some .directory) :
    cs.foldlM makeStep (d, place) = .ok (d, next) := by
  induction cs generalizing place with
  | nil => exact congrArg (fun place => Except.ok (d, place)) (Except.ok.inj h)
  | cons c rest ih =>
      obtain ⟨place₁, hstep, hrest⟩ := foldlM_step_cons.mp h
      have hplace₁ : d.node? place₁ = some .directory := by
        cases rest with
        | nil => exact Except.ok.inj hrest ▸ hnext
        | cons c' rest' =>
            obtain ⟨_, hstep', -⟩ := foldlM_step_cons.mp hrest
            exact (of_step_eq_ok hstep').1
      refine foldlM_makeStep_cons.mpr ⟨(d, place₁), ?_, ih hrest⟩
      simp [makeStep, hstep, hplace₁, bind, Except.bind]

/-- Where the way is there, nothing has to be made. -/
theorem Leads.makeDirectories (h : d.Leads path) : d.makeDirectories [] path = .ok d := by
  rw [Disk.makeDirectories, foldlM_makeStep_of_step h.1 h.2]
  rfl

/-- A directory that was made is led to. -/
theorem makeDirectories_leads (h : d.makeDirectories [] path = .ok d') : d'.Leads path := by
  unfold makeDirectories at h
  cases hmake : (Path.components path.toList).foldlM makeStep (d, []) with
  | error e =>
      rw [hmake] at h
      cases h
  | ok made =>
      rw [hmake] at h
      obtain rfl := Except.ok.inj h
      have hroot : d.node? [] = some .directory := rfl
      obtain ⟨-, hway, hlast⟩ := of_foldlM_makeStep hroot hmake
      have hplace : made.2 = placeOf path := of_foldlM_step hway
      exact ⟨hplace ▸ hway, hplace ▸ hlast⟩

/-- A directory below one that is there is the only one that may have to be made. -/
theorem makeDirectories_touches {dir : String} {name : List Char} (hdir : d.Leads dir)
    (hpath : Path.components path.toList = Path.components dir.toList ++ [.name name])
    (h : d.makeDirectories [] path = .ok d') :
    Touches {placeOf path} d d' ∧ (d.node? (placeOf path) = some .directory → d' = d) := by
  unfold makeDirectories at h
  rw [hpath, List.foldlM_append, foldlM_makeStep_of_step hdir.1 hdir.2] at h
  cases hmake : makeStep (d, placeOf dir) (.name name) with
  | error e =>
      simp [bind, Except.bind, hmake] at h
  | ok made =>
      simp only [bind, Except.bind, List.foldlM_cons, List.foldlM_nil, hmake, pure,
        Except.pure] at h
      obtain rfl := Except.ok.inj h
      obtain ⟨hstep, htouches, -, hkept⟩ := of_makeStep_eq_ok hmake
      have hplace : made.2 = placeOf path :=
        (of_step_eq_ok hstep).2.trans (placeOf_eq_append hpath).symm
      exact ⟨hplace ▸ htouches, hplace ▸ hkept⟩

end Disk
end Notebook
