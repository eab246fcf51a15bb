import Notebook.Proofs.Service.Launches
import Notebook.Proofs.Table

/-!
# What the service knows of the records

A bridge keeps a content for every open file, and an instance remembers what it has been
told.  `Memory.Shows m path records` says that a memory shows exactly the records, each
under its path.  `Bridge.Faithful names b` is the invariant that ties the two together: as
long as the attached instance works, it has been told the records and nothing else.

The filenames in use are taken from a set `names` on which the service paths differ.  If
two of them shared a path, closing one would close the other for the service.

* `shows_openFile`, `shows_closeFile`: what opening and closing do to such a memory.
* `shows_opened`: a launched instance is told exactly the records.
* `Faithful.shows_relaunch`: so is one that is launched in the place of another.
-/

set_option autoImplicit false

namespace Notebook

/-- The memory shows the records, each under its path, and nothing else. -/
def Memory.Shows (m : Memory) (path : String → String) (records : Table String String) :
    Prop :=
  ∀ p c, m p = some c ↔ ∃ f, path f = p ∧ records.find? f = some c

/-- Only what the records give matters. -/
theorem Memory.Shows.congr {m : Memory} {path : String → String}
    {records records' : Table String String} (h : m.Shows path records)
    (hfind : ∀ f, records.find? f = records'.find? f) : m.Shows path records' := by
  intro p c
  rw [h p c]
  exact exists_congr fun f => and_congr_right fun _ => by rw [hfind f]

namespace Bridge

open Call

/-- The filenames have different service paths. -/
def Apart (names : Set String) (path : String → String) : Prop :=
  ∀ f ∈ names, ∀ f' ∈ names, path f = path f' → f = f'

/-- The filenames of the records. -/
def Within (names : Set String) (records : Table String String) : Prop :=
  ∀ f c, records.find? f = some c → f ∈ names

/-- As long as the attached instance works, it has been told the records. -/
structure Faithful (names : Set String) (b : Bridge) : Prop where
  apart : Apart names b.servicePath
  within : Within names b.records
  single : b.records.keys.Nodup
  current : ∀ g, b.attached = some g → b.works g = true →
    Memory.Shows (told b.trace g) b.servicePath b.records

/-! ## Memories -/

section Memories

variable {names : Set String} {path : String → String} {records : Table String String}
  {m : Memory}

/-- Opening a file shows it in the place of what its path has shown. -/
theorem shows_openFile (hapart : Apart names path) (hwithin : Within names records)
    (hm : m.Shows path records) {f : String} (hf : f ∈ names) (c : String) :
    ((Command.openFile (path f) c).remember m).Shows path (records.set f c) := by
  intro p c'
  simp only [Command.remember, Table.find?_set]
  by_cases hp : p = path f
  · subst hp
    rw [if_pos rfl]
    constructor
    · intro hc
      exact ⟨f, rfl, by rw [if_pos rfl, hc]⟩
    · rintro ⟨f', hpath, hfind⟩
      by_cases hff : f = f'
      · rw [if_pos hff] at hfind
        exact hfind
      · rw [if_neg hff] at hfind
        exact absurd (hapart f' (hwithin f' c' hfind) f hf hpath).symm hff
  · rw [if_neg hp, hm p c']
    constructor
    · rintro ⟨f', hpath, hfind⟩
      have hff : f ≠ f' := by
        rintro rfl
        exact hp hpath.symm
      exact ⟨f', hpath, by rw [if_neg hff, hfind]⟩
    · rintro ⟨f', hpath, hfind⟩
      have hff : f ≠ f' := by
        rintro rfl
        exact hp hpath.symm
      rw [if_neg hff] at hfind
      exact ⟨f', hpath, hfind⟩

/-- Closing a file hides it alone. -/
theorem shows_closeFile (hapart : Apart names path) (hwithin : Within names records)
    (hm : m.Shows path records) {f : String} (hf : f ∈ names) :
    ((Command.closeFile (path f)).remember m).Shows path (records.erase f) := by
  intro p c'
  simp only [Command.remember, Table.find?_erase]
  by_cases hp : p = path f
  · subst hp
    rw [if_pos rfl]
    constructor
    · intro hc
      cases hc
    · rintro ⟨f', hpath, hfind⟩
      by_cases hff : f = f'
      · rw [if_pos hff] at hfind
        cases hfind
      · rw [if_neg hff] at hfind
        exact absurd (hapart f' (hwithin f' c' hfind) f hf hpath).symm hff
  · rw [if_neg hp, hm p c']
    constructor
    · rintro ⟨f', hpath, hfind⟩
      have hff : f ≠ f' := by
        rintro rfl
        exact hp hpath.symm
      exact ⟨f', hpath, by rw [if_neg hff, hfind]⟩
    · rintro ⟨f', hpath, hfind⟩
      by_cases hff : f = f'
      · rw [if_pos hff] at hfind
        cases hfind
      · rw [if_neg hff] at hfind
        exact ⟨f', hpath, hfind⟩

theorem within_set (hwithin : Within names records) {f : String} (hf : f ∈ names)
    (c : String) : Within names (records.set f c) := by
  intro f' c' hfind
  rw [Table.find?_set] at hfind
  split at hfind
  · next hff => exact hff ▸ hf
  · exact hwithin f' c' hfind

theorem within_erase (hwithin : Within names records) (f : String) :
    Within names (records.erase f) := by
  intro f' c' hfind
  rw [Table.find?_erase] at hfind
  split at hfind
  · cases hfind
  · exact hwithin f' c' hfind

end Memories

/-- Opening several files one after the other. -/
theorem shows_opened {names : Set String} (b : Bridge) (hapart : Apart names b.servicePath)
    (records : List (String × String)) (hnames : ∀ r ∈ records, r.1 ∈ names)
    {shown : Table String String} (hwithin : Within names shown) {m : Memory}
    (hm : m.Shows b.servicePath shown) :
    (b.opened records m).Shows b.servicePath
      (records.foldl (fun t r => t.set r.1 r.2) shown) := by
  induction records generalizing shown m with
  | nil => exact hm
  | cons r rest ih =>
      have hr := hnames r List.mem_cons_self
      exact ih (fun r hr => hnames r (List.mem_cons_of_mem _ hr)) (within_set hwithin hr r.2)
        (shows_openFile hapart hwithin hm hr r.2)

theorem perm_sortedRecords (b : Bridge) : b.sortedRecords.Perm b.records.entries :=
  List.mergeSort_perm _ _

theorem mem_openFiles_iff (b : Bridge) (f : String) : f ∈ b.openFiles ↔ b.isOpen f = true := by
  rw [isOpen, Table.contains_iff_mem_keys]
  exact ((perm_sortedRecords b).map Prod.fst).mem_iff

theorem mem_openFiles_of_find? (b : Bridge) {f c : String}
    (hfind : b.records.find? f = some c) : f ∈ b.openFiles :=
  (mem_openFiles_iff b f).mpr (Option.isSome_iff_exists.mpr ⟨c, hfind⟩)

/-- An instance that is told of every record shows exactly the records. -/
theorem Faithful.shows_relaunch {names : Set String} {b : Bridge} (hb : Faithful names b) :
    Memory.Shows (b.opened b.sortedRecords fun _ => none) b.servicePath b.records := by
  have hmem : ∀ f c, (f, c) ∈ b.sortedRecords ↔ b.records.find? f = some c := by
    intro f c
    rw [(perm_sortedRecords b).mem_iff, Table.mem_entries_iff _ hb.single]
  have hkeys : (b.sortedRecords.map (·.1)).Nodup :=
    ((perm_sortedRecords b).map Prod.fst).nodup_iff.mpr hb.single
  have hblank : Memory.Shows (fun _ => none) b.servicePath .empty := by
    intro p c
    simp
  have hempty : Within names .empty := by
    intro f c hfind
    simp at hfind
  have hshows := shows_opened b hb.apart b.sortedRecords
    (fun r hr => hb.within r.1 r.2 ((hmem r.1 r.2).mp hr)) hempty hblank
  intro p c
  rw [hshows p c]
  refine exists_congr fun f => and_congr_right fun _ => ?_
  rw [Table.find?_foldl_set _ hkeys, hmem]
  simp

end Bridge
end Notebook
