/-!
# Variable references

In a text `$` with a name in braces stands for the value of a variable.  A text is
read once from left to right: what is put in is not read again, a variable that is not
set stands for nothing, and a reference without its closing brace is kept as it is.
-/

namespace Notebook
namespace Expansion

/-- The values of variables by name. -/
abbrev Environment := List (String × String)

/-- The value of a variable.  A name with an equals sign or a null character is never
set. -/
def Environment.value? (env : Environment) (name : String) : Option String :=
  if name.toList.any (fun c => c = '=' || c = '\x00') then none
  else (env.find? (fun entry => entry.1 == name)).map (·.2)

/-- Splits a text at the first closing brace. -/
def splitAtBrace : List Char → Option (List Char × List Char)
  | [] => none
  | c :: rest =>
    if c = '\x7d' then some ([], rest)
    else (splitAtBrace rest).map fun (name, after) => (c :: name, after)

theorem length_of_splitAtBrace {cs name after : List Char}
    (h : splitAtBrace cs = some (name, after)) : after.length < cs.length := by
  induction cs generalizing name with
  | nil => simp [splitAtBrace] at h
  | cons c rest ih =>
    simp only [splitAtBrace] at h
    split at h
    · simp only [Option.some.injEq, Prod.mk.injEq] at h
      simp [← h.2]
    · simp only [Option.map_eq_some_iff, Prod.exists, Prod.mk.injEq] at h
      obtain ⟨name', after', hsplit, -, rfl⟩ := h
      have := ih hsplit
      simp only [List.length_cons]
      omega

/-- What a reference stands for. -/
def valueOf (env : Environment) (name : List Char) : List Char :=
  ((env.value? (String.ofList name)).getD "").toList

/-- The text with all references replaced. -/
def expandChars (env : Environment) (cs : List Char) : List Char :=
  match cs with
  | [] => []
  | '$' :: '\x7b' :: rest =>
    match _h : splitAtBrace rest with
    | none => '$' :: '\x7b' :: rest
    | some (name, after) =>
      (if name = [] then [] else valueOf env name) ++ expandChars env after
  | c :: rest => c :: expandChars env rest
termination_by cs.length
decreasing_by
  all_goals simp_wf
  have := length_of_splitAtBrace _h
  omega

/-- The text with all references replaced. -/
def expand (env : Environment) (text : String) : String :=
  String.ofList (expandChars env text.toList)

end Expansion
end Notebook
