/-!
# Tables

A table assigns values to keys.  It is a list of entries in the order in which their
keys first came in, and `find?` is its view: `find?_set` and `find?_erase` say what
the two changes do to it.
-/

namespace Notebook

/-- Values by key. -/
structure Table (κ : Type) (ν : Type) where
  entries : List (κ × ν)
  deriving DecidableEq, Repr

namespace Table

variable {κ ν : Type} [DecidableEq κ]

/-- The table without entries. -/
def empty : Table κ ν :=
  ⟨[]⟩

instance : Inhabited (Table κ ν) := ⟨empty⟩

/-- The value of a key in a list of entries. -/
def lookup (k : κ) : List (κ × ν) → Option ν
  | [] => none
  | (key, value) :: rest => if key = k then some value else lookup k rest

/-- A list of entries with a value put in the place of the key's old one. -/
def place (k : κ) (v : ν) : List (κ × ν) → List (κ × ν)
  | [] => [(k, v)]
  | (key, value) :: rest =>
    if key = k then (key, v) :: rest else (key, value) :: place k v rest

/-- The value of a key. -/
def find? (t : Table κ ν) (k : κ) : Option ν :=
  lookup k t.entries

/-- Whether a key has a value. -/
def contains (t : Table κ ν) (k : κ) : Bool :=
  (t.find? k).isSome

/-- Gives a key a value. -/
def set (t : Table κ ν) (k : κ) (v : ν) : Table κ ν :=
  ⟨place k v t.entries⟩

/-- Takes a key out. -/
def erase (t : Table κ ν) (k : κ) : Table κ ν :=
  ⟨t.entries.filter fun entry => entry.1 ≠ k⟩

/-- The keys. -/
def keys (t : Table κ ν) : List κ :=
  t.entries.map (·.1)

/-- The number of entries. -/
def size (t : Table κ ν) : Nat :=
  t.entries.length

@[simp]
theorem find?_empty (k : κ) : (empty : Table κ ν).find? k = none := rfl

theorem lookup_place (k k' : κ) (v : ν) (entries : List (κ × ν)) :
    lookup k' (place k v entries) = if k = k' then some v else lookup k' entries := by
  induction entries with
  | nil => simp [place, lookup]
  | cons entry rest ih =>
    obtain ⟨key, value⟩ := entry
    by_cases h : key = k
    · subst h
      by_cases h' : key = k' <;> simp [place, lookup, h']
    · by_cases h' : key = k'
      · subst h'
        have hk : ¬k = key := fun e => h e.symm
        simp [place, lookup, h, hk]
      · simp [place, lookup, h, h', ih]

/-- What a table gives after a key was given a value. -/
theorem find?_set (t : Table κ ν) (k k' : κ) (v : ν) :
    (t.set k v).find? k' = if k = k' then some v else t.find? k' :=
  lookup_place k k' v t.entries

/-- What a table gives after a key was taken out. -/
theorem find?_erase (t : Table κ ν) (k k' : κ) :
    (t.erase k).find? k' = if k = k' then none else t.find? k' := by
  obtain ⟨entries⟩ := t
  simp only [find?, erase]
  induction entries with
  | nil => simp [lookup]
  | cons entry rest ih =>
    obtain ⟨key, value⟩ := entry
    by_cases h : key = k
    · subst h
      by_cases h' : key = k' <;> simp_all [lookup]
    · by_cases h' : key = k'
      · subst h'
        have hk : ¬k = key := fun e => h e.symm
        simp [lookup, h, hk]
      · simp_all [lookup]

end Table
end Notebook
