import Notebook.Filename
import Notebook.Session
import Mathlib.Data.List.Basic

/-!
# Names below a directory

`Filename.IsOrdinary separators name` says that a name is one ordinary path component: it is
neither empty nor a dot nor two dots, and none of its characters is a separator.  Such a name
adds exactly one component to the path of a directory, so that different names lead to
different places, and none of them leads out of the directory.

* `components_joined`: the components of a name below a directory.
* `ordinary_of_check`: a filename that is in order is an ordinary component, whatever counts as
  a separator.
* `Session.IsFilePath`, `Session.components_of_isFilePath`: the files of a session.
-/

set_option autoImplicit false

namespace Notebook

namespace Path

theorem pieces_ne_nil (path : List Char) : pieces path ≠ [] := by
  cases path with
  | nil => simp [pieces]
  | cons c rest =>
      unfold pieces
      split
      · simp
      · split <;> simp

/-- A slash ends a piece. -/
theorem pieces_append_slash (before after : List Char) :
    pieces (before ++ '/' :: after) = pieces before ++ pieces after := by
  induction before with
  | nil => simp [pieces]
  | cons c rest ih =>
      rw [List.cons_append, pieces, pieces]
      split
      · rw [ih, List.cons_append]
      · rw [ih]
        cases hrest : pieces rest with
        | nil => exact absurd hrest (pieces_ne_nil rest)
        | cons piece others => rfl

theorem pieces_of_not_mem {name : List Char} (h : '/' ∉ name) : pieces name = [name] := by
  induction name with
  | nil => rfl
  | cons c rest ih =>
      rw [List.mem_cons, not_or] at h
      rw [pieces, if_neg (Ne.symm h.1), ih h.2]

/-- One ordinary component of a path. -/
structure IsName (name : List Char) : Prop where
  nonempty : name ≠ []
  noSlash : '/' ∉ name
  notCurrent : name ≠ ['.']
  notParent : name ≠ ['.', '.']

instance (name : List Char) : Decidable (IsName name) :=
  decidable_of_iff (name ≠ [] ∧ '/' ∉ name ∧ name ≠ ['.'] ∧ name ≠ ['.', '.'])
    ⟨fun ⟨h, h', h'', h'''⟩ => ⟨h, h', h'', h'''⟩,
      fun h => ⟨h.nonempty, h.noSlash, h.notCurrent, h.notParent⟩⟩

theorem component?_of_isName {name : List Char} (h : IsName name) (atStart : Bool) :
    component? atStart name = some (.name name) := by
  unfold component?
  rw [if_neg h.nonempty, if_neg h.notCurrent, if_neg h.notParent]

/-- The components of a path that begins with a slash. -/
theorem components_slash (rest : List Char) :
    components ('/' :: rest) = .root :: (pieces rest).filterMap (component? false) := rfl

/-- The components of any other path. -/
theorem components_of_pieces {path first : List Char} {others : List (List Char)}
    (hslash : path.head? ≠ some '/') (h : pieces path = first :: others) :
    components path = (component? true first).toList ++ others.filterMap (component? false) := by
  unfold components
  split
  · exact absurd rfl hslash
  · rw [h]

/-- What is behind a slash adds its pieces. -/
theorem components_append_slash {path : List Char} (h : path ≠ []) (after : List Char) :
    components (path ++ '/' :: after) =
      components path ++ (pieces after).filterMap (component? false) := by
  cases path with
  | nil => exact absurd rfl h
  | cons c rest =>
      by_cases hc : c = '/'
      · subst hc
        rw [List.cons_append, components_slash, components_slash, pieces_append_slash,
          List.filterMap_append, List.cons_append]
      · have hhead : (c :: rest).head? ≠ some '/' := fun heq => hc (Option.some.inj heq)
        have hhead' : (c :: rest ++ '/' :: after).head? ≠ some '/' := hhead
        cases hpieces : pieces (c :: rest) with
        | nil => exact absurd hpieces (pieces_ne_nil _)
        | cons first others =>
            have hall : pieces (c :: rest ++ '/' :: after) = first :: (others ++ pieces after) := by
              rw [pieces_append_slash, hpieces, List.cons_append]
            rw [components_of_pieces hhead hpieces, components_of_pieces hhead' hall,
              List.filterMap_append, List.append_assoc]

theorem filterMap_pieces_of_isName {name : List Char} (h : IsName name) :
    (pieces name).filterMap (component? false) = [.name name] := by
  rw [pieces_of_not_mem h.noSlash, List.filterMap_cons, component?_of_isName h]
  rfl

theorem components_of_isName {name : List Char} (h : IsName name) :
    components name = [.name name] := by
  have hhead : name.head? ≠ some '/' := fun heq => h.noSlash (List.mem_of_head? heq)
  rw [components_of_pieces hhead (pieces_of_not_mem h.noSlash), component?_of_isName h]
  rfl

/-- A name below a directory is one more component. -/
theorem components_joined (base : List Char) {name : List Char} (h : IsName name) :
    components (joined base name) = components base ++ [.name name] := by
  unfold joined
  split
  · exact absurd List.mem_cons_self h.noSlash
  · cases hlast : base.getLast? with
    | none =>
        rw [List.getLast?_eq_none_iff.mp hlast, components_of_isName h]
        rfl
    | some last =>
        have hbase : base ≠ [] := by
          rintro rfl
          cases hlast
        simp only
        split
        · next hslash =>
            subst hslash
            obtain ⟨before, rfl⟩ := List.getLast?_eq_some_iff.mp hlast
            rw [List.append_assoc, List.singleton_append]
            cases before with
            | nil =>
                rw [List.nil_append, List.nil_append, components_slash,
                  filterMap_pieces_of_isName h]
                rfl
            | cons c rest =>
                rw [components_append_slash (List.cons_ne_nil c rest),
                  components_append_slash (List.cons_ne_nil c rest),
                  filterMap_pieces_of_isName h]
                change _ = components (c :: rest) ++ [] ++ _
                rw [List.append_nil]
        · rw [components_append_slash hbase, filterMap_pieces_of_isName h]

theorem toList_join (base name : String) :
    (join base name).toList = joined base.toList name.toList :=
  String.toList_ofList

end Path

namespace Filename

/-- The name is a single ordinary path component. -/
structure IsOrdinary (separators : List Char) (name : String) : Prop where
  nonempty : name ≠ ""
  apart : ∀ c ∈ separators, c ∉ name.toList
  notCurrent : name ≠ "."
  notParent : name ≠ ".."

instance (separators : List Char) (name : String) : Decidable (IsOrdinary separators name) :=
  decidable_of_iff (name ≠ "" ∧ (separators.all fun c => !name.toList.contains c) = true ∧
      name ≠ "." ∧ name ≠ "..")
    ⟨fun ⟨h, h', h'', h'''⟩ => ⟨h, by simpa using h', h'', h'''⟩,
      fun h => ⟨h.nonempty, by simpa using h.apart, h.notCurrent, h.notParent⟩⟩

/-- Where the slash separates, an ordinary name is one component. -/
theorem IsOrdinary.isName {separators : List Char} {name : String}
    (h : IsOrdinary separators name) (hslash : '/' ∈ separators) :
    Path.IsName name.toList where
  nonempty := fun heq => h.nonempty (String.toList_inj.mp heq)
  noSlash := h.apart '/' hslash
  notCurrent := fun heq => h.notCurrent (String.toList_inj.mp heq)
  notParent := fun heq => h.notParent (String.toList_inj.mp heq)

/-- A filename that is in order is without its blanks an ordinary component, whether only the
slash separates or the backslash as well. -/
theorem ordinary_of_check {filename : String} {language : Language} {separators : List Char}
    (hseparators : ∀ c ∈ separators, c = '/' ∨ c = '\\')
    (h : check filename language = .ok ()) : IsOrdinary separators (Text.trim filename) := by
  unfold check at h
  simp only at h
  split at h
  · cases h
  · next hempty =>
      split at h
      · cases h
      · next hleaves =>
          simp only [leavesDirectory, Bool.or_eq_true, List.contains_iff_mem, beq_iff_eq,
            not_or] at hleaves
          obtain ⟨⟨⟨hslash, hbackslash⟩, hcurrent⟩, hparent⟩ := hleaves
          refine ⟨?_, ?_, ?_, ?_⟩
          · rintro heq
            rw [heq] at hempty
            exact hempty rfl
          · intro c hc
            rcases hseparators c hc with rfl | rfl
            · exact hslash
            · exact hbackslash
          · intro heq
            rw [heq] at hcurrent
            exact hcurrent rfl
          · intro heq
            rw [heq] at hparent
            exact hparent rfl

theorem ordinary_of_check_slash {filename : String} {language : Language}
    (h : check filename language = .ok ()) : IsOrdinary ['/'] (Text.trim filename) :=
  ordinary_of_check (fun _ hc => Or.inl (List.mem_singleton.mp hc)) h

end Filename

namespace Session

/-- The source directory lies in the directory of the session. -/
theorem components_sourceDir (s : Session) :
    Path.components s.sourceDir.toList =
      Path.components s.dir.toList ++ [.name "src".toList] := by
  rw [sourceDir, Path.toList_join]
  exact Path.components_joined _ (by decide)

/-- A code cell's file lies in the source directory. -/
theorem components_pathFor (s : Session) {filename : String}
    (h : Path.IsName filename.toList) :
    Path.components (s.pathFor filename).toList =
      Path.components s.sourceDir.toList ++ [.name filename.toList] := by
  rw [pathFor, Path.toList_join]
  exact Path.components_joined _ h

/-- The manifest lies in the directory of the session. -/
theorem components_manifestPath (s : Session) :
    Path.components s.manifestPath.toList =
      Path.components s.dir.toList ++ [.name "package.json".toList] := by
  rw [manifestPath, Path.toList_join]
  exact Path.components_joined _ (by decide)

/-- The path of the manifest, or that of a file that lies directly in the source directory. -/
def IsFilePath (s : Session) (separators : List Char) (path : String) : Prop :=
  path = s.manifestPath ∨ ∃ f, Filename.IsOrdinary separators f ∧ path = s.pathFor f

/-- Where the slash separates, the files of a session lie where they should. -/
theorem components_of_isFilePath {s : Session} {separators : List Char} {path : String}
    (hslash : '/' ∈ separators) (h : s.IsFilePath separators path) :
    Path.components path.toList =
        Path.components s.dir.toList ++ [.name "package.json".toList] ∨
      ∃ f, Filename.IsOrdinary separators f ∧ Path.components path.toList =
        Path.components s.dir.toList ++ [.name "src".toList, .name f.toList] := by
  rcases h with rfl | ⟨f, hf, rfl⟩
  · exact Or.inl s.components_manifestPath
  · refine Or.inr ⟨f, hf, ?_⟩
    rw [s.components_pathFor (hf.isName hslash), s.components_sourceDir, List.append_assoc]
    rfl

end Session
end Notebook
