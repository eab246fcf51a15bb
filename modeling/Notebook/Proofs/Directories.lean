import Mathlib.Data.List.Nodup
import Notebook.Proofs.Text.Bytes
import Notebook.Proofs.Trees

/-!
# Looking into directories

A path that leads to a directory leads with a name behind it to what lies there under this name,
and to nothing else.  So what is found, read or listed depends on the place alone.

* `endsAsDirectory_joined`: with a name behind it, no path asks for a directory.
* `LeadsFrom.find_join`: what is found under a name in a directory.
* `mem_namesIn_iff`, `nodup_namesIn`: the names in a directory.
* `nodup_keys_runAll`: deeds store nothing twice.
-/

set_option autoImplicit false

namespace Notebook

namespace Path

/-- A name below a directory stands alone or behind a slash. -/
theorem joined_cases (base : List Char) {name : List Char} (h : IsName name) :
    joined base name = name ∨ ∃ before, joined base name = before ++ '/' :: name := by
  unfold joined
  split
  · exact absurd List.mem_cons_self h.noSlash
  · split
    · exact Or.inl rfl
    · next last hlast =>
        right
        split
        · next hslash =>
            obtain ⟨before, rfl⟩ := List.getLast?_eq_some_iff.mp hlast
            exact ⟨before, by rw [hslash, List.append_assoc]; rfl⟩
        · exact ⟨base, rfl⟩

end Path

namespace Disk

variable {d d' : Disk} {cwd place : Place} {dir : String} {name : String}

/-- The path of a name in a directory does not end as one of a directory. -/
theorem endsAsDirectory_joined (base : List Char) {name : List Char} (h : Path.IsName name) :
    endsAsDirectory (Path.joined base name) = false := by
  have hpiece : (Path.pieces (Path.joined base name)).getLast? = some name := by
    rcases Path.joined_cases base h with heq | ⟨before, heq⟩
    · rw [heq, Path.pieces_of_not_mem h.noSlash]
      rfl
    · rw [heq, Path.pieces_append_slash, Path.pieces_of_not_mem h.noSlash, List.getLast?_concat]
  obtain ⟨start, last, rfl⟩ := (List.eq_nil_or_concat' name).resolve_left h.nonempty
  have hlast : (Path.joined base (start ++ [last])).getLast? = some last := by
    rcases Path.joined_cases base h with heq | ⟨before, heq⟩
    · rw [heq, List.getLast?_concat]
    · rw [heq, ← List.cons_append, ← List.append_assoc, List.getLast?_concat]
  have hslash : last ≠ '/' := fun heq => h.noSlash (by simp [heq])
  simp [endsAsDirectory, hpiece, hlast, hslash, h.notCurrent]

/-! ## Names in a directory -/

/-- At the place there is a file with these bytes. -/
def HasFile (d : Disk) (place : Place) (data : ByteArray) : Prop :=
  ∃ executable, d.node? place = some (.file data executable)

/-- What lies under a name in a directory may be there. -/
theorem Sound.isEntry {name : List Char} {node : Node} (h : d.Sound)
    (hnode : d.node? (place ++ [name]) = some node) : IsEntry name :=
  h.entry place name (hnode ▸ Option.some_ne_none _)

/-- A path with a name behind it leads to what lies under the name. -/
theorem LeadsFrom.find_join (h : d.LeadsFrom cwd dir place) (hname : IsEntry name.toList) :
    d.find cwd (Path.join dir name) =
      match d.node? (place ++ [name.toList]) with
      | none => .error .notFound
      | some node => .ok (place ++ [name.toList], node) := by
  have hpath : Path.components (Path.join dir name).toList =
      Path.components dir.toList ++ [.name name.toList] := by
    rw [Path.toList_join, Path.components_joined _ hname.isName]
  have hlocate : d.locate cwd (Path.join dir name) = .ok (place ++ [name.toList]) := by
    rw [h.locate hpath, step_name h.there, if_neg (not_lt.mpr hname.short), if_neg hname.noNull]
  have hends : endsAsDirectory (Path.join dir name).toList = false := by
    rw [Path.toList_join]
    exact endsAsDirectory_joined _ hname.isName
  rw [find, hlocate]
  simp only [bind, Except.bind]
  -- A file is found only by a path that does not ask for a directory.
  cases d.node? (place ++ [name.toList]) with
  | none => rfl
  | some node => cases node <;> simp [hends]

/-- From a directory, a path leads on to one that lies in it. -/
theorem LeadsFrom.below (h : d.LeadsFrom cwd dir place) (hname : IsEntry name.toList)
    (hthere : d.node? (place ++ [name.toList]) = some .directory) :
    d.LeadsFrom cwd (Path.join dir name) (place ++ [name.toList]) := by
  refine ⟨?_, hthere⟩
  rw [Path.toList_join, Path.components_joined _ hname.isName, List.foldlM_append, h.way]
  refine foldlM_step_cons.mpr ⟨_, ?_, rfl⟩
  rw [step_name h.there, if_neg (not_lt.mpr hname.short), if_neg hname.noNull]

theorem LeadsFrom.isFile_join (h : d.LeadsFrom cwd dir place) (hname : IsEntry name.toList) :
    d.isFile cwd (Path.join dir name) = true ↔
      ∃ data, d.HasFile (place ++ [name.toList]) data := by
  rw [isFile, h.find_join hname]
  unfold HasFile
  cases d.node? (place ++ [name.toList]) with
  | none => simp
  | some node => cases node <;> simp

theorem LeadsFrom.readText_join {data : ByteArray} (h : d.LeadsFrom cwd dir place)
    (hname : IsEntry name.toList) (hfile : d.HasFile (place ++ [name.toList]) data) :
    d.readText cwd (Path.join dir name) =
      match String.fromUTF8? data with
      | some text => .ok text
      | none => .error .invalidName := by
  obtain ⟨executable, hnode⟩ := hfile
  rw [readText, read, h.find_join hname, hnode]
  rfl

theorem LeadsFrom.list_join (h : d.LeadsFrom cwd dir place) (hname : IsEntry name.toList) :
    d.list cwd (Path.join dir name) =
      match d.node? (place ++ [name.toList]) with
      | none => .error .notFound
      | some (.file ..) => .error .notDirectory
      | some .directory => .ok (d.namesIn (place ++ [name.toList])) := by
  rw [list, h.find_join hname]
  cases d.node? (place ++ [name.toList]) with
  | none => rfl
  | some node => cases node <;> rfl

/-! ## The list of names -/

theorem node?_concat (d : Disk) (place : Place) (name : List Char) :
    d.node? (place ++ [name]) = d.nodes.find? (place ++ [name]) := by
  rw [node?, if_neg (by simp)]

/-- A name is listed for a place that is longer by this name. -/
theorem lists_iff {other : Place} {name : List Char} :
    (if other.length = place.length + 1 ∧ other.take place.length = place then other.getLast?
      else none) = some name ↔ other = place ++ [name] := by
  constructor
  · intro h
    split at h
    · next hother =>
        obtain ⟨before, rfl⟩ := List.getLast?_eq_some_iff.mp h
        have hlength : before.length = place.length := by simpa using hother.1
        rw [← hlength, List.take_left] at hother
        rw [hother.2]
    · cases h
  · rintro rfl
    simp

/-- The names in a directory are those under which something lies there. -/
theorem mem_namesIn_iff {name : List Char} :
    name ∈ d.namesIn place ↔ d.node? (place ++ [name]) ≠ none := by
  rw [namesIn, node?_concat, ne_eq, Table.find?_eq_none_iff, not_not, Table.keys, List.mem_map,
    List.mem_filterMap]
  exact exists_congr fun entry => and_congr_right fun _ => lists_iff

/-- No name is listed twice. -/
theorem nodup_namesIn (h : d.nodes.keys.Nodup) (place : Place) : (d.namesIn place).Nodup := by
  have hnames : d.namesIn place = d.nodes.keys.filterMap fun other =>
      if other.length = place.length + 1 ∧ other.take place.length = place then other.getLast?
      else none := by
    rw [Table.keys, List.filterMap_map]
    rfl
  rw [hnames]
  refine h.filterMap fun other other' name hother hother' => ?_
  rw [lists_iff.mp hother, lists_iff.mp hother']

/-! ## Nothing is stored twice -/

theorem nodup_keys_foldlM_makeStep {cs : List Path.Component} {place next : Place}
    (h : d.nodes.keys.Nodup) (hmake : cs.foldlM makeStep (d, place) = .ok (d', next)) :
    d'.nodes.keys.Nodup := by
  induction cs generalizing d place with
  | nil =>
      obtain ⟨rfl, -⟩ := Prod.mk.inj (Except.ok.inj hmake)
      exact h
  | cons c rest ih =>
      obtain ⟨⟨d₁, place₁⟩, hfirst, hrest⟩ := foldlM_makeStep_cons.mp hmake
      obtain ⟨-, ⟨-, rfl⟩ | ⟨-, rfl⟩⟩ := makeStep_cases hfirst
      · exact ih h hrest
      · exact ih (Table.nodup_keys_set _ h _ _) hrest

theorem nodup_keys_run {deed : FileDeed} (h : d.nodes.keys.Nodup) (hrun : deed.run d = .ok d') :
    d'.nodes.keys.Nodup := by
  cases deed with
  | makeDirectory path =>
      simp only [FileDeed.run, makeDirectories] at hrun
      cases hmake : (Path.components path.toList).foldlM makeStep (d, []) with
      | error e =>
          rw [hmake] at hrun
          cases hrun
      | ok made =>
          rw [hmake] at hrun
          obtain rfl := Except.ok.inj hrun
          exact nodup_keys_foldlM_makeStep h hmake
  | write path text =>
      obtain ⟨executable, rfl, -⟩ := write_cases hrun
      exact Table.nodup_keys_set _ h _ _
  | remove path =>
      simp only [FileDeed.run] at hrun
      split at hrun
      · obtain rfl := Except.ok.inj hrun
        exact h
      · unfold removeFile at hrun
        cases hfind : d.find [] path with
        | error e =>
            rw [hfind] at hrun
            cases hrun
        | ok found =>
            rw [hfind] at hrun
            obtain ⟨place, node⟩ := found
            cases node with
            | directory => cases hrun
            | file data executable =>
                obtain rfl := Except.ok.inj hrun
                exact Table.nodup_keys_erase _ h _

/-- However far a list of deeds comes, nothing is stored twice. -/
theorem nodup_keys_runAll (h : d.nodes.keys.Nodup) (deeds : List FileDeed) :
    (FileDeed.runAll d deeds).2.nodes.keys.Nodup := by
  induction deeds generalizing d with
  | nil => exact h
  | cons deed rest ih =>
      rw [FileDeed.runAll]
      split
      · next d₁ hrun => exact ih (nodup_keys_run h hrun)
      · exact h

end Disk
end Notebook
