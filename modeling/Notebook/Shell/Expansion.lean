import Notebook.Shell.Arithmetic
import Notebook.Shell.Pattern
import Notebook.Shell.State

/-!
# Expansion of words

The parts of a word become atoms; atoms become fields, which are split where an unquoted
expansion has separators; and fields that are patterns become the paths that match.
What a command writes is asked of `substitute`, so that expansion does not depend on how
commands are run.
-/

set_option autoImplicit false

namespace Notebook
namespace Shell

/-- What a word is expanded to. -/
inductive Atom where
  /-- A character; one that may split fields comes from an expansion outside quotes. -/
  | char (quoted splits : Bool) (c : Char)
  /-- The field exists even if it is empty. -/
  | hold
  /-- A field ends. -/
  | gap
  deriving DecidableEq, Repr, Inhabited

/-- How the output of a command is found. -/
abbrev Substitute := List Char → Sh (List Char)

namespace Atom

/-- The atoms of a text that an expansion gives. -/
def ofExpanded (quoted : Bool) (cs : List Char) : List Atom :=
  let chars := cs.map (.char quoted (!quoted))
  if quoted then .hold :: chars else chars

/-- The characters of some atoms with the mark of their quotes. -/
def marked (atoms : List Atom) : List Marked :=
  atoms.filterMap fun
    | .char quoted _ c => some (quoted, c)
    | .hold => none
    | .gap => some (true, ' ')

end Atom

/-! ## Fields -/

/-- How far the splitting of atoms has come. -/
structure Splitting where
  /-- The field that is being read, the last character first. -/
  current : Option (List Marked)
  /-- Blank separators have ended a field, so that another separator adds none. -/
  closed : Bool
  /-- The fields, the last one first. -/
  fields : List (List Marked)

namespace Splitting

/-- Ends the current field. -/
def close (s : Splitting) (closed : Bool) : Splitting :=
  match s.current with
  | some cs => ⟨none, closed, cs.reverse :: s.fields⟩
  | none => { s with closed := s.closed && closed }

/-- Takes an atom. -/
def take (separators : List Char) (s : Splitting) : Atom → Splitting
  | .hold => { s with current := some (s.current.getD []), closed := false }
  | .gap => s.close false
  | .char quoted splits c =>
    if splits && separators.contains c then
      if c = ' ' || c = '\t' || c = '\n' then
        if s.current.isSome then s.close true else s
      else if s.current.isNone && s.closed then { s with closed := false }
      else { current := none, closed := false,
             fields := (s.current.getD []).reverse :: s.fields }
    else { s with current := some ((quoted, c) :: s.current.getD []), closed := false }

end Splitting

/-- The fields of some atoms. -/
def fieldsOf (separators : List Char) (atoms : List Atom) : List (List Marked) :=
  ((atoms.foldl (Splitting.take separators) ⟨none, false, []⟩).close false).fields.reverse

/-! ## Parameters -/

/-- The characters that split fields. -/
def State.separators (s : State) : List Char :=
  ((s.vars.find? "IFS").getD " \t\n").toList

/-- The value of a parameter other than those that stand for all arguments. -/
def State.parameter? (s : State) (name : String) : Option String :=
  match name with
  | "#" => some (toString s.args.length)
  | "?" => some (toString s.status)
  | "$" => some (toString s.pid)
  | "!" => some ((s.jobs.head?.map toString).getD "")
  | "-" => some ""
  | "0" => some s.name
  | name =>
    match name.toNat? with
    | some n => s.args[n - 1]?
    | none => s.vars.find? name

/-- The arguments in one text. -/
def State.joinedArgs (s : State) : String :=
  String.intercalate (String.ofList (s.separators.take 1)) s.args

/-- The value of any parameter; that of all arguments is unset without arguments. -/
def State.value? (s : State) (name : String) : Option String :=
  if name = "@" || name = "*" then
    if s.args.isEmpty then none else some s.joinedArgs
  else s.parameter? name

/-- The atoms of a parameter. -/
def State.parameterAtoms (s : State) (quoted : Bool) (name : String) : List Atom :=
  if name = "@" || (name = "*" && !quoted) then
    (s.args.map fun a => Atom.ofExpanded quoted a.toList).intersperse [.gap] |>.flatten
  else if name = "*" then Atom.ofExpanded true s.joinedArgs.toList
  else Atom.ofExpanded quoted ((s.parameter? name).getD "").toList

/-- What a pattern leaves of a text whose start or end it takes. -/
def trimmed (modifier : Modifier) (pattern : List PatternItem) (cs : List Char) : List Char :=
  let lengths := List.range (cs.length + 1)
  let fits (n : Nat) : Bool :=
    match modifier with
    | .shortestStart => Pattern.accepts pattern (cs.take n)
    | .longestStart => Pattern.accepts pattern (cs.take n)
    | _ => Pattern.accepts pattern (cs.drop (cs.length - n))
  let ordered :=
    match modifier with
    | .longestStart => lengths.reverse
    | .longestSuffix => lengths.reverse
    | _ => lengths
  match ordered.find? fits with
  | none => cs
  | some n =>
    match modifier with
    | .shortestStart => cs.drop n
    | .longestStart => cs.drop n
    | _ => cs.take (cs.length - n)

/-! ## Words -/

/-- Ends the shell. -/
def abort {α : Type} (status : Nat) : Sh α := fun _ _ => .exit status

/-- Ends the shell with a complaint. -/
def abortWith {α : Type} (what : String) : Sh α := do
  Sh.complain what
  abort 2

/-- The parts of a text that stands beside a modifier. -/
def innerParts (quoted : Bool) (cs : List Char) : List Part :=
  let read :=
    if quoted then quotedParts false (cs.length + 1) [] cs
    else wordParts (fun _ => false) (cs.length + 1) [] cs
  match read with
  | some (parts, _) => joinTexts parts
  | none => [.text quoted cs]

/-- The value of an arithmetic expression. -/
def calculate (source : List Char) : Sh Int := do
  let s ← Sh.get
  match Arithmetic.evaluate (fun x => s.value? x) source with
  | .ok (n, changes) =>
    for (name, value) in changes.reverse do
      Sh.setVar name (toString value)
    pure n
  | .error p => abortWith (p.message (String.ofList source))

/-- The atoms of some parts. -/
def atoms (substitute : Substitute) (fuel : Nat) (parts : List Part) : Sh (List Atom) :=
  match fuel with
  | 0 => pure []
  | fuel + 1 =>
    match parts with
    | [] => pure []
    | part :: rest => do
      let first ← match part with
        | .text quoted cs => pure (
            let chars := cs.map (Atom.char quoted false)
            if quoted then .hold :: chars else chars)
        | .parameter quoted name => do
          pure ((← Sh.get).parameterAtoms quoted name)
        | .length quoted name => do
          let value := ((← Sh.get).value? name).getD ""
          pure (Atom.ofExpanded quoted (toString value.utf8ByteSize).toList)
        | .command quoted source => do
          let output ← substitute source
          pure (Atom.ofExpanded quoted output)
        | .arithmetic quoted source => do
          let inner ← atoms substitute fuel (innerParts true source)
          let n ← calculate ((Atom.marked inner).map (·.2))
          pure (Atom.ofExpanded quoted (toString n).toList)
        | .modified quoted name modifier orEmpty word => do
          let s ← Sh.get
          let value := s.value? name
          let given := if orEmpty then value.any fun v => !v.isEmpty else value.isSome
          let inner := atoms substitute fuel (innerParts quoted word)
          let trim : Sh (List Atom) := do
            let pattern ← atoms substitute fuel (innerParts false word)
            let items := Pattern.ofMarked (Atom.marked pattern)
            pure (Atom.ofExpanded quoted (trimmed modifier items (value.getD "").toList))
          match modifier with
          | .default => if given then pure (s.parameterAtoms quoted name) else inner
          | .alternative =>
            if given then inner else pure (if quoted then [.hold] else [])
          | .assign =>
            if given then pure (s.parameterAtoms quoted name)
            else
              let found ← inner
              Sh.setVar name (String.ofList ((Atom.marked found).map (·.2)))
              pure found
          | .error =>
            if given then pure (s.parameterAtoms quoted name)
            else
              let text := (Atom.marked (← inner)).map (·.2)
              let reason :=
                if !text.isEmpty then String.ofList text
                else if orEmpty then "parameter not set or null"
                else "parameter not set"
              abortWith s!"{name}: {reason}"
          | .shortestSuffix => trim
          | .longestSuffix => trim
          | .shortestStart => trim
          | .longestStart => trim
      let others ← atoms substitute fuel rest
      pure (first ++ others)

/-- Nested expansions are followed this deep. -/
def depth : Nat := 100000

/-- A word without its tilde, which stands for the home directory. -/
def withHome (s : State) (w : Word) : Word :=
  match w with
  | .text false ('~' :: rest) :: parts =>
    match rest with
    | '/' :: _ => .text true ((s.vars.find? "HOME").getD "~").toList :: .text false rest :: parts
    | [] => if parts.isEmpty then [.text true ((s.vars.find? "HOME").getD "~").toList] else w
    | _ => w
  | w => w

/-- Whether a word stands for all arguments and nothing else, and there are none. -/
def vanishes (s : State) (w : Word) : Bool :=
  s.args.isEmpty &&
    (w.any fun | .parameter true "@" => true | _ => false) &&
    w.all fun
      | .parameter true "@" => true
      | .text true [] => true
      | _ => false

/-- The text of a word that is not split. -/
def expandText (substitute : Substitute) (w : Word) : Sh String := do
  let found ← atoms substitute depth (withHome (← Sh.get) w)
  pure (String.ofList ((Atom.marked found).map (·.2)))

/-- The pattern of a word. -/
def expandPattern (substitute : Substitute) (w : Word) : Sh (List PatternItem) := do
  let found ← atoms substitute depth w
  pure (Pattern.ofMarked (Atom.marked found))

/-- The paths that a field stands for. -/
def expandPaths (field : List Marked) : Sh (List String) := do
  if Pattern.isSpecial field then
    let cwd := (← Sh.get).cwd
    match ← Sh.look (fun d => (Pattern.paths d cwd field).map String.ofList) .names with
    | .names paths => pure paths
    | _ => pure []
  else pure [String.ofList (field.map (·.2))]

/-- The fields of a word. -/
def expandWord (substitute : Substitute) (w : Word) : Sh (List String) := do
  let s ← Sh.get
  if vanishes s w then pure []
  else
    let found ← atoms substitute depth (withHome s w)
    let mut all := []
    for field in fieldsOf (← Sh.get).separators found do
      all := all ++ (← expandPaths field)
    pure all

/-- The fields of some words. -/
def expandWords (substitute : Substitute) : List Word → Sh (List String)
  | [] => pure []
  | w :: ws => do
    let first ← expandWord substitute w
    let others ← expandWords substitute ws
    pure (first ++ others)

end Shell
end Notebook
