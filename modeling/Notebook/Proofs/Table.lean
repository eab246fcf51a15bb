import Notebook.Table
import Mathlib.Data.List.Basic
import Mathlib.Data.List.Nodup
import Mathlib.Data.List.Perm.Basic

/-!
# Entries of tables

`Table.find?` is the view of a table, and its entries are a list.  Here the two are
tied together: exactly the keys without a value are not listed, and as long as no key is
listed twice, the listed values are those that `find?` gives.  `set` and `erase` never
list a key twice.
-/

set_option autoImplicit false

namespace Notebook
namespace Table

variable {κ ν : Type} [DecidableEq κ]

theorem lookup_eq_none_iff (k : κ) (entries : List (κ × ν)) :
    lookup k entries = none ↔ k ∉ entries.map (·.1) := by
  induction entries with
  | nil => simp [lookup]
  | cons entry rest ih =>
      obtain ⟨key, value⟩ := entry
      by_cases h : key = k
      · simp [lookup, h]
      · have h' : k ≠ key := fun e => h e.symm
        simp [lookup, h, h', ih]

/-- Exactly the keys without a value are not listed. -/
theorem find?_eq_none_iff (t : Table κ ν) (k : κ) : t.find? k = none ↔ k ∉ t.keys :=
  lookup_eq_none_iff k t.entries

theorem mem_of_lookup (k : κ) (v : ν) (entries : List (κ × ν))
    (h : lookup k entries = some v) : (k, v) ∈ entries := by
  induction entries with
  | nil => simp [lookup] at h
  | cons entry rest ih =>
      obtain ⟨key, value⟩ := entry
      by_cases hk : key = k
      · simp only [lookup, hk, if_true, Option.some.injEq] at h
        rw [hk, h]
        exact List.mem_cons_self
      · simp only [lookup, hk, if_false] at h
        exact List.mem_cons_of_mem _ (ih h)

theorem lookup_of_mem (k : κ) (v : ν) (entries : List (κ × ν))
    (hkeys : (entries.map (·.1)).Nodup) (h : (k, v) ∈ entries) :
    lookup k entries = some v := by
  induction entries with
  | nil => simp at h
  | cons entry rest ih =>
      obtain ⟨key, value⟩ := entry
      rw [List.map_cons, List.nodup_cons] at hkeys
      rcases List.mem_cons.mp h with heq | hrest
      · obtain ⟨rfl, rfl⟩ := Prod.mk.inj heq
        simp [lookup]
      · have hne : key ≠ k := by
          rintro rfl
          exact hkeys.1 (List.mem_map.mpr ⟨(key, v), hrest, rfl⟩)
        simp only [lookup, hne, if_false]
        exact ih hkeys.2 hrest

/-- Without a key listed twice, the entries are the values by key. -/
theorem mem_entries_iff (t : Table κ ν) (hkeys : t.keys.Nodup) (k : κ) (v : ν) :
    (k, v) ∈ t.entries ↔ t.find? k = some v :=
  ⟨lookup_of_mem k v t.entries hkeys, mem_of_lookup k v t.entries⟩

theorem keys_place (k : κ) (v : ν) (entries : List (κ × ν)) :
    (place k v entries).map (·.1) =
      if k ∈ entries.map (·.1) then entries.map (·.1) else entries.map (·.1) ++ [k] := by
  induction entries with
  | nil => simp [place]
  | cons entry rest ih =>
      obtain ⟨key, value⟩ := entry
      by_cases h : key = k
      · simp [place, h]
      · have h' : k ≠ key := fun e => h e.symm
        simp only [place, h, if_false, List.map_cons, ih, List.mem_cons, h', false_or]
        split <;> simp

/-- Giving a key a value lists no key twice. -/
theorem nodup_keys_set (t : Table κ ν) (hkeys : t.keys.Nodup) (k : κ) (v : ν) :
    (t.set k v).keys.Nodup := by
  change ((place k v t.entries).map (·.1)).Nodup
  rw [keys_place]
  split
  · exact hkeys
  · next hk =>
      rw [List.nodup_append]
      refine ⟨hkeys, List.nodup_singleton k, ?_⟩
      intro a ha b hb hab
      rw [List.mem_singleton] at hb
      subst hab hb
      exact hk ha

/-- Taking a key out lists no key twice. -/
theorem nodup_keys_erase (t : Table κ ν) (hkeys : t.keys.Nodup) (k : κ) :
    (t.erase k).keys.Nodup :=
  hkeys.sublist (List.Sublist.map _ List.filter_sublist)

/-- Taking a key out that has no value changes nothing. -/
theorem erase_of_find?_eq_none (t : Table κ ν) (k : κ) (h : t.find? k = none) :
    t.erase k = t := by
  obtain ⟨entries⟩ := t
  rw [find?_eq_none_iff] at h
  refine congrArg Table.mk (List.filter_eq_self.mpr ?_)
  intro entry hentry
  rw [decide_eq_true_iff]
  rintro rfl
  exact h (List.mem_map_of_mem hentry)

theorem place_of_lookup_eq_none (k : κ) (v : ν) (entries : List (κ × ν))
    (h : lookup k entries = none) : place k v entries = entries ++ [(k, v)] := by
  induction entries with
  | nil => rfl
  | cons entry rest ih =>
      obtain ⟨key, value⟩ := entry
      by_cases hk : key = k
      · simp [lookup, hk] at h
      · simp only [lookup, hk, if_false] at h
        simp [place, hk, ih h]

/-- A new key is listed last. -/
theorem entries_set_of_find?_eq_none (t : Table κ ν) {k : κ} {v : ν} (h : t.find? k = none) :
    (t.set k v).entries = t.entries ++ [(k, v)] :=
  place_of_lookup_eq_none k v t.entries h

/-- An entry and the other entries. -/
theorem perm_erase (t : Table κ ν) (hkeys : t.keys.Nodup) {k : κ} {v : ν}
    (h : t.find? k = some v) : t.entries.Perm ((k, v) :: (t.erase k).entries) := by
  have hmem : (k, v) ∈ t.entries := (t.mem_entries_iff hkeys k v).mpr h
  obtain ⟨before, after, hsplit⟩ := List.append_of_mem hmem
  have hrest : ∀ entry ∈ before ++ after, entry.1 ≠ k := by
    unfold keys at hkeys
    rw [hsplit, List.map_append, List.map_cons, List.nodup_middle, List.nodup_cons,
      ← List.map_append] at hkeys
    rintro entry hentry rfl
    exact hkeys.1 (List.mem_map_of_mem (f := (·.1)) hentry)
  have herase : (t.erase k).entries = before ++ after := by
    change t.entries.filter _ = _
    have hself : (before ++ after).filter (fun entry => entry.1 ≠ k) = before ++ after :=
      List.filter_eq_self.mpr fun entry hentry => by simpa using hrest entry hentry
    rw [List.filter_append] at hself
    rw [hsplit, List.filter_append, List.filter_cons_of_neg (by simp), hself]
  rw [herase, hsplit]
  exact List.perm_middle

/-- Giving several different keys a value. -/
theorem find?_foldl_set (entries : List (κ × ν)) (hkeys : (entries.map (·.1)).Nodup)
    (t : Table κ ν) (k : κ) (v : ν) :
    (entries.foldl (fun t e => t.set e.1 e.2) t).find? k = some v ↔
      (k, v) ∈ entries ∨ k ∉ entries.map (·.1) ∧ t.find? k = some v := by
  induction entries generalizing t with
  | nil => simp
  | cons entry rest ih =>
      obtain ⟨key, value⟩ := entry
      rw [List.map_cons, List.nodup_cons] at hkeys
      rw [List.foldl_cons, ih hkeys.2, find?_set]
      by_cases h : key = k
      · subst h
        have hrest : (key, v) ∉ rest := fun hmem =>
          hkeys.1 (List.mem_map_of_mem (f := (·.1)) hmem)
        simp [hrest, hkeys.1, eq_comm]
      · have h' : k ≠ key := fun e => h e.symm
        simp [h, h']

/-- A key that had no value is one more. -/
theorem size_set (t : Table κ ν) (k : κ) (v : ν) :
    (t.set k v).size = if k ∈ t.keys then t.size else t.size + 1 := by
  have hkeys := congrArg List.length (keys_place k v t.entries)
  rw [List.length_map] at hkeys
  change (place k v t.entries).length = _
  rw [hkeys]
  unfold keys size
  split <;> simp

/-- A key that has a value is not new. -/
theorem mem_keys_of_find? {t : Table κ ν} {k : κ} {v : ν} (h : t.find? k = some v) : k ∈ t.keys :=
  List.mem_map_of_mem (f := (·.1)) (mem_of_lookup k v t.entries h)

theorem size_set_of_find? {t : Table κ ν} {k : κ} {v : ν} (h : t.find? k = some v) (v' : ν) :
    (t.set k v').size = t.size :=
  (size_set t k v').trans (if_pos (mem_keys_of_find? h))

theorem contains_eq_false_iff (t : Table κ ν) (k : κ) :
    t.contains k = false ↔ t.find? k = none := by
  rw [contains, Option.isSome_eq_false_iff, Option.isNone_iff_eq_none]

theorem contains_iff_mem_keys (t : Table κ ν) (k : κ) : t.contains k = true ↔ k ∈ t.keys := by
  rw [← not_iff_not, Bool.not_eq_true, contains_eq_false_iff, find?_eq_none_iff]

theorem contains_set (t : Table κ ν) (k : κ) (v : ν) (k' : κ) :
    (t.set k v).contains k' = true ↔ k = k' ∨ t.contains k' = true := by
  rw [contains, find?_set]
  by_cases hk : k = k'
  · simp [hk]
  · simp [hk, contains]

theorem contains_erase (t : Table κ ν) (k k' : κ) :
    (t.erase k).contains k' = true ↔ k ≠ k' ∧ t.contains k' = true := by
  rw [contains, find?_erase]
  by_cases hk : k = k'
  · simp [hk]
  · simp [hk, contains]

end Table
end Notebook
