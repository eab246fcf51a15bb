import Notebook.Shell.Format
import Notebook.Shell.Regex
import Notebook.Shell.State

/-!
# Tools

The tools that scripts call by name.  A tool takes its arguments, reads and writes the
descriptors of the shell, and gives a status.
-/

set_option autoImplicit false

namespace Notebook
namespace Shell
namespace Tool

open Unix (Reply Signal)

/-- A tool that has done its work. -/
def done : Sh Nat := pure 0

/-- A complaint of a tool. -/
def fail (tool what : String) (status : Nat) : Sh Nat := do
  Sh.print 2 s!"{tool}: {what}\n"
  pure status

/-- The lines of a text; an end of line after the last one is not needed. -/
def linesOf (cs : List Char) : List (List Char) :=
  match cs with
  | [] => []
  | cs =>
    let pieces := cs.splitOn '\n'
    if pieces.getLast? = some [] then pieces.dropLast else pieces

/-- The bytes of some lines. -/
def unlines (lines : List (List Char)) : List UInt8 :=
  lines.flatMap fun l => Utf8.encode l ++ [10]

/-- The contents of a file. -/
def contents (path : String) : Sh (Except Disk.Problem (List UInt8)) := do
  let cwd := (← Sh.get).cwd
  match ← Sh.look (fun d => if path = "/dev/null" then .ok .empty else d.read cwd path) (fun
    | .ok data => .bytes data.toList
    | .error p => .problem p) with
  | .bytes data => pure (.ok data)
  | .problem p => pure (.error p)
  | _ => pure (.ok [])

/-- The inputs of a tool: its files, or what it reads without any. -/
def inputs (tool : String) (files : List String) : Sh (List (String × List UInt8) × Nat) := do
  if files.isEmpty then pure ([("", ← Sh.input 0)], 0)
  else
    let mut found := []
    let mut status := 0
    for file in files do
      if file = "-" then found := found ++ [("-", ← Sh.input 0)]
      else
        match ← contents file with
        | .ok data => found := found ++ [(file, data)]
        | .error p => status ← fail tool s!"{file}: {p.message}" 1
    pure (found, status)

/-- The options at the start of some arguments, as letters. -/
def options (args : List String) : List Char × List String :=
  let isOption (a : String) : Bool := a.startsWith "-" && a ≠ "-" && a ≠ "--"
  let rest := args.dropWhile isOption
  ((args.takeWhile isOption).flatMap fun a => a.toList.drop 1,
    if rest.head? = some "--" then rest.drop 1 else rest)

/-! ## Output -/

/-- Writes its arguments. -/
def echo (args : List String) : Sh Nat := do
  let (ends, args) := if args.head? = some "-n" then ([], args.drop 1) else ([(10 : UInt8)], args)
  let (bytes, stop) := Format.escapedText (String.intercalate " " args).toList
  let fine ← Sh.write 1 (if stop then bytes else bytes ++ ends)
  pure (if fine then 0 else 1)

/-- Writes its arguments in a format. -/
def printf (args : List String) : Sh Nat := do
  match (if args.head? = some "--" then args.drop 1 else args) with
  | [] => fail "printf" "usage: printf format [arg ...]" 2
  | format :: args =>
    let (bytes, bad) := Format.render format args
    let fine ← Sh.write 1 bytes
    for arg in bad do
      Sh.complain s!"printf: {arg}: expected numeric value"
    pure (if fine && bad.isEmpty then 0 else 1)

/-- Writes its argument again and again. -/
def yes (fuel : Nat) (line : List UInt8) : Sh Nat :=
  match fuel with
  | 0 => done
  | fuel + 1 => do
    if ← Sh.write 1 line then
      let _ ← Sh.ask .pause
      yes fuel line
    else pure 1

/-! ## Copying -/

/-- Passes on what comes from a descriptor. -/
def relay (fuel : Nat) : Sh Nat :=
  match fuel with
  | 0 => done
  | fuel + 1 => do
    match (← Sh.get).fds.find? 0 with
    | none => pure 1
    | some h =>
      match ← Sh.ask (.read h 65536) with
      | .bytes [] => done
      | .bytes data =>
        let _ ← Sh.write 1 data
        relay fuel
      | _ => done

/-- Writes files one after the other. -/
def cat (args : List String) : Sh Nat := do
  let (_, files) := options args
  if files.isEmpty then relay Sh.patience
  else
    let mut status := 0
    for file in files do
      if file = "-" then let _ ← relay Sh.patience
      else
        match ← contents file with
        | .ok data => let _ ← Sh.write 1 data
        | .error p => status ← fail "cat" s!"{file}: {p.message}" 1
    pure status

/-- Writes what it reads also into files. -/
def tee (args : List String) : Sh Nat := do
  let (_, files) := options args
  let data ← Sh.input 0
  let cwd := (← Sh.get).cwd
  for file in files do
    let _ ← Sh.change fun d => d.write cwd file ⟨data.toArray⟩
  let _ ← Sh.write 1 data
  done

/-! ## Parts of texts -/

/-- The count of an option such as `-n 5`, `-n5` or `-5`, and the files. -/
def countOption (letter : Char) (args : List String) : Option String × List String :=
  match args with
  | [] => (none, [])
  | a :: rest =>
    match a.toList with
    | '-' :: c :: more =>
      if c = letter then
        if more.isEmpty then (rest.head?, rest.drop 1) else (some (String.ofList more), rest)
      else if c.isDigit && letter = 'n' then (some (String.ofList (c :: more)), rest)
      else (none, args)
    | _ => (none, args)

/-- The first lines of a text. -/
def firstLines (n : Nat) (data : List UInt8) : List UInt8 :=
  let lines := data.splitOn 10
  if lines.length ≤ n then data else (lines.take n).flatMap (· ++ [10])

/-- Reads until there is enough or no more. -/
def readEnough (fuel : Nat) (enough : List UInt8 → Bool) (acc : List UInt8) :
    Sh (List UInt8) :=
  match fuel with
  | 0 => pure acc
  | fuel + 1 => do
    match (← Sh.get).fds.find? 0 with
    | none => pure acc
    | some h =>
      if enough acc then pure acc
      else
        match ← Sh.ask (.read h 1024) with
        | .bytes [] => pure acc
        | .bytes data => readEnough fuel enough (acc ++ data)
        | _ => pure acc

/-- The start of a text. -/
def head (args : List String) : Sh Nat := do
  let cut (files : List String) (enough : List UInt8 → Bool) (f : List UInt8 → List UInt8) :
      Sh Nat := do
    if files.isEmpty then
      let _ ← Sh.write 1 (f (← readEnough Sh.patience enough []))
      done
    else
      let (found, status) ← inputs "head" files
      let _ ← Sh.write 1 (found.flatMap fun x => f x.2)
      pure status
  match countOption 'c' args with
  | (some n, files) =>
    let n := n.toNat?.getD 0
    cut files (fun data => n ≤ data.length) fun data => data.take n
  | (none, args) =>
    let (n, files) := countOption 'n' args
    let n := (n.bind (·.toNat?)).getD 10
    cut files (fun data => n ≤ data.count 10) (firstLines n)

/-- The end of a text. -/
def tail (args : List String) : Sh Nat := do
  let cut (files : List String) (f : List UInt8 → List UInt8) : Sh Nat := do
    let (found, status) ← inputs "tail" files
    let _ ← Sh.write 1 (found.flatMap fun x => f x.2)
    pure status
  match countOption 'c' args with
  | (some n, files) => cut files fun data => data.drop (data.length - n.toNat?.getD 0)
  | (none, args) =>
    let (n, files) := countOption 'n' args
    let text := n.getD "10"
    let n := (text.toList.filter Char.isDigit |> String.ofList).toNat?.getD 10
    cut files fun data =>
      let lines := data.splitOn 10
      let ended := lines.getLast? = some []
      let lines := if ended then lines.dropLast else lines
      let kept := if text.startsWith "+" then lines.drop (n - 1) else lines.drop (lines.length - n)
      [(10 : UInt8)].intercalate kept ++ (if ended && !kept.isEmpty then [10] else [])

/-- Counts lines, words and bytes. -/
def wc (args : List String) : Sh Nat := do
  let (letters, files) := options args
  let (found, status) ← inputs "wc" files
  let wanted := if letters.isEmpty then ['l', 'w', 'c'] else letters
  let counts (data : List UInt8) : List Nat :=
    let cs := Utf8.lossy data
    let words := (cs.splitBy fun a b => a.isWhitespace = b.isWhitespace).filter
      fun w => !(w.any Char.isWhitespace)
    (if wanted.contains 'l' then [data.count 10] else []) ++
      (if wanted.contains 'w' then [words.length] else []) ++
      (if wanted.contains 'm' then [cs.length] else []) ++
      (if wanted.contains 'c' then [data.length] else [])
  let total := found.foldl (fun n x => n + x.2.length) 0
  let width :=
    if wanted.length = 1 && found.length ≤ 1 then 1
    else if files.isEmpty then 7
    else (toString total).length
  let line (counts : List Nat) (name : String) : String :=
    let texts := counts.map fun n =>
      let text := toString n
      String.ofList (List.replicate (width - text.length) ' ') ++ text
    String.intercalate " " texts ++ (if name.isEmpty then "" else " " ++ name) ++ "\n"
  for (name, data) in found do
    Sh.print 1 (line (counts data) name)
  if 1 < found.length then
    Sh.print 1 (line (counts (found.flatMap (·.2))) "total")
  pure status

/-- The characters of a set as it is written. -/
def setOf (fuel : Nat) (cs : List Char) : List Char :=
  match fuel with
  | 0 => []
  | fuel + 1 =>
    match cs with
    | '\\' :: 'n' :: rest => '\n' :: setOf fuel rest
    | '\\' :: 't' :: rest => '\t' :: setOf fuel rest
    | '\\' :: c :: rest => c :: setOf fuel rest
    | a :: '-' :: b :: rest =>
      ((List.range (b.toNat + 1 - a.toNat)).map fun i => Char.ofNat (a.toNat + i)) ++
        setOf fuel rest
    | c :: rest => c :: setOf fuel rest
    | [] => []

/-- Replaces characters or takes them out. -/
def tr (args : List String) : Sh Nat := do
  let (letters, sets) := options args
  let data ← Sh.input 0
  let cs := Utf8.lossy data
  let set (i : Nat) : List Char :=
    let text := ((sets[i]?).getD "").toList
    let text :=
      if text = "[:upper:]".toList then "A-Z".toList
      else if text = "[:lower:]".toList then "a-z".toList
      else if text = "[:digit:]".toList then "0-9".toList
      else text
    setOf (text.length + 1) text
  let isIn (c : Char) : Bool := ((set 0).contains c) != letters.contains 'c'
  let changed :=
    if letters.contains 'd' then cs.filter fun c => !isIn c
    else
      let news := set 1
      cs.map fun c =>
        match (set 0).idxOf? c with
        | some i => (news[i]?).getD ((news.getLast?).getD c)
        | none => c
  let squeezed :=
    if letters.contains 's' then
      let last := if sets.length = 1 || letters.contains 'd' then set (sets.length - 1) else set 1
      changed.foldr (fun c rest =>
        if rest.head? = some c && last.contains c then rest else c :: rest) []
    else changed
  let _ ← Sh.write 1 (Utf8.encode squeezed)
  done

/-- Puts lines in order. -/
def sort (args : List String) : Sh Nat := do
  let (letters, files) := options args
  let (found, status) ← inputs "sort" files
  let lines := linesOf (Utf8.lossy (found.flatMap (·.2)))
  let key (l : List Char) : Int :=
    (Arithmetic.signed? ((l.dropWhile (· = ' ')).takeWhile fun c => c.isDigit || c = '-')).getD 0
  let text (a b : List Char) : Bool := !decide (String.ofList b < String.ofList a)
  let order (a b : List Char) : Bool :=
    if letters.contains 'n' && key a ≠ key b then key a < key b else text a b
  let sorted := lines.mergeSort order
  let sorted := if letters.contains 'r' then sorted.reverse else sorted
  let _ ← Sh.write 1 (unlines (if letters.contains 'u' then sorted.eraseReps else sorted))
  pure status

/-- Leaves out lines that repeat the one before. -/
def uniq (args : List String) : Sh Nat := do
  let (letters, files) := options args
  let (found, status) ← inputs "uniq" (files.take 1)
  let groups := (linesOf (Utf8.lossy (found.flatMap (·.2)))).splitBy (· = ·)
  let line (group : List (List Char)) : List Char :=
    let text := group.headD []
    if letters.contains 'c' then
      let count := (toString group.length).toList
      List.replicate (7 - count.length) ' ' ++ count ++ ' ' :: text
    else text
  let _ ← Sh.write 1 (unlines (groups.map line))
  pure status

/-- Lines that match. -/
def grep (args : List String) : Sh Nat := do
  let (letters, rest) := options args
  match rest with
  | [] => fail "grep" "no pattern" 2
  | pattern :: files =>
    let (found, status) ← inputs "grep" files
    let lower (cs : List Char) : List Char :=
      if letters.contains 'i' then cs.map Char.toLower else cs
    let fixed := letters.contains 'F'
    let cs := lower pattern.toList
    let r :=
      if fixed then ⟨false, false, cs.map fun c => ⟨.one c, 1, false⟩⟩
      else Regex.read (letters.contains 'E') cs
    let hits (data : List UInt8) : List (List Char) :=
      ((linesOf (Utf8.lossy data)).zipIdx.filter fun (l, _) =>
        r.isIn (lower l) != letters.contains 'v').map fun (l, i) =>
          if letters.contains 'n' then (toString (i + 1)).toList ++ ':' :: l else l
    let mut any := false
    for (name, data) in found do
      let lines := hits data
      any := any || !lines.isEmpty
      let lead := if 1 < files.length then name ++ ":" else ""
      if letters.contains 'q' then pure ()
      else if letters.contains 'c' then Sh.print 1 s!"{lead}{lines.length}\n"
      else for l in lines do
        let _ ← Sh.write 1 (lead.toUTF8.toList ++ Utf8.encode l ++ [10])
    pure (if status ≠ 0 then 2 else if any then 0 else 1)

/-! ### Editing lines -/

/-- Which lines an edit is for. -/
inductive Address where
  | every
  | line (n : Nat)
  | last
  | found (r : Regex)
  deriving Inhabited

/-- What an edit does. -/
inductive Edit where
  | replace (r : Regex) (new : List Char) (all shows : Bool)
  | delete
  | show
  | quit
  deriving Inhabited

/-- A text up to an unescaped delimiter. -/
def delimited (d : Char) (acc : List Char) : List Char → List Char × List Char
  | [] => (acc.reverse, [])
  | '\\' :: c :: rest =>
    if c = d then delimited d (c :: acc) rest else delimited d (c :: '\\' :: acc) rest
  | c :: rest => if c = d then (acc.reverse, rest) else delimited d (c :: acc) rest

/-- Reads edits. -/
def edits (extended : Bool) (fuel : Nat) (cs : List Char) : List (Address × Edit) :=
  match fuel with
  | 0 => []
  | fuel + 1 =>
    match cs.dropWhile fun c => c = ' ' || c = ';' || c = '\n' with
    | [] => []
    | cs =>
      let (address, cs) :=
        match cs with
        | '$' :: rest => (Address.last, rest)
        | '/' :: rest =>
          let (text, rest) := delimited '/' [] rest
          (.found (Regex.read extended text), rest)
        | c :: rest =>
          if c.isDigit then
            let (n, rest) := Format.decimal (c :: rest)
            (.line n, rest)
          else (.every, c :: rest)
        | [] => (.every, [])
      match cs with
      | 's' :: d :: rest =>
        let (old, rest) := delimited d [] rest
        let (new, rest) := delimited d [] rest
        let (marks, rest) := rest.span Char.isAlpha
        (address, .replace (Regex.read extended old) new (marks.contains 'g') (marks.contains 'p'))
          :: edits extended fuel rest
      | 'd' :: rest => (address, .delete) :: edits extended fuel rest
      | 'p' :: rest => (address, .show) :: edits extended fuel rest
      | 'q' :: rest => (address, .quit) :: edits extended fuel rest
      | _ => []

/-- A line under some edits: what is written before it, what remains of it, and whether
all ends. -/
def edited (n : Nat) (isLast : Bool) (line : List Char) :
    List (Address × Edit) → List (List Char) × Option (List Char) × Bool
  | [] => ([], some line, false)
  | (address, edit) :: rest =>
    let meant :=
      match address with
      | .every => true
      | .line m => m = n
      | .last => isLast
      | .found r => r.isIn line
    if meant then
      match edit with
      | .replace r new all shows =>
        let (line, hit) := r.replace (line.length + 2) all new line
        let (shown, out, stop) := edited n isLast line rest
        (if hit && shows then line :: shown else shown, out, stop)
      | .delete => ([], none, false)
      | .show =>
        let (shown, out, stop) := edited n isLast line rest
        (line :: shown, out, stop)
      | .quit => ([], some line, true)
    else edited n isLast line rest

/-- The lines under some edits. -/
def editLines (quiet : Bool) (es : List (Address × Edit)) (n : Nat) :
    List (List Char) → List (List Char)
  | [] => []
  | line :: rest =>
    let (shown, out, stop) := edited n rest.isEmpty line es
    let here := shown ++ (if quiet then [] else out.toList)
    here ++ (if stop then [] else editLines quiet es (n + 1) rest)

/-- Edits lines. -/
def sed (args : List String) : Sh Nat := do
  let (letters, rest) := options args
  match rest with
  | [] => fail "sed" "no script" 1
  | script :: files =>
    let (found, status) ← inputs "sed" files
    let data := found.flatMap (·.2)
    let cs := Utf8.lossy data
    let extended := letters.contains 'E' || letters.contains 'r'
    let es := edits extended (script.length + 1) script.toList
    let bytes := unlines (editLines (letters.contains 'n') es 1 (linesOf cs))
    let _ ← Sh.write 1 (if data.getLast? = some 10 then bytes else bytes.dropLast)
    pure status

/-! ## Files -/

/-- Changes the disk for each argument. -/
def each (tool what : String) (args : List String)
    (f : Disk.Place → String → Disk → Except Disk.Problem Disk) : Sh Nat := do
  let mut status := 0
  for a in args do
    let cwd := (← Sh.get).cwd
    match ← Sh.change (f cwd a) with
    | some p => status ← fail tool s!"{what} '{a}': {p.message}" 1
    | none => pure ()
  pure status

/-- Creates files that are missing. -/
def touch (args : List String) : Sh Nat :=
  each "touch" "cannot touch" (options args).2 fun cwd a d =>
    if d.isThere cwd a then .ok d else d.write cwd a .empty

/-- Makes directories. -/
def mkdir (args : List String) : Sh Nat :=
  let (letters, rest) := options args
  each "mkdir" "cannot create directory" rest fun cwd a d =>
    if letters.contains 'p' then d.makeDirectories cwd a else d.makeDirectory cwd a

/-- Removes empty directories. -/
def rmdir (args : List String) : Sh Nat :=
  each "rmdir" "failed to remove" (options args).2 fun cwd a d => d.removeDirectory cwd a

/-- Removes files. -/
def rm (args : List String) : Sh Nat :=
  let (letters, rest) := options args
  let force := letters.contains 'f'
  let deep := letters.contains 'r' || letters.contains 'R'
  each "rm" "cannot remove" rest fun cwd a d =>
    match d.find cwd a with
    | .ok (place, .directory) => if deep then .ok (d.removeTree place) else .error .isDirectory
    | .ok _ => d.removeFile cwd a
    | .error p => if force && p = .notFound then .ok d else .error p

/-- Changes whether files can be run. -/
def chmod (args : List String) : Sh Nat := do
  match args with
  | [] => fail "chmod" "missing operand" 1
  | mode :: files =>
    let value : Option Bool :=
      if mode.contains 'x' then some (!mode.contains '-')
      else
        (Arithmetic.ofDigits? 8 mode.toList).map fun n => n.toNat &&& 0o111 ≠ 0
    each "chmod" "cannot access" files fun cwd a d =>
      match d.find cwd a with
      | .ok (place, .file data executable) => .ok (d.put place (.file data (value.getD executable)))
      | .ok _ => .ok d
      | .error p => .error p

/-- The path of a file that goes to a target, which may be a directory. -/
def destination (d : Disk) (cwd : Disk.Place) (source target : String) : String :=
  if d.isDirectory cwd target then
    Path.join target (((source.splitOn "/").getLast?).getD source)
  else target

/-- Copies a file, and takes the old one away if it is moved. -/
def transfer (tool : String) (moves : Bool) (args : List String) : Sh Nat := do
  let (_, rest) := options args
  match rest.getLast? with
  | none => fail tool "missing file operand" 1
  | some target =>
    each tool "cannot stat" rest.dropLast fun cwd a d =>
      match d.find cwd a with
      | .error p => .error p
      | .ok (place, .file data executable) =>
        match d.locate cwd (destination d cwd a target) with
        | .ok other =>
          match d.write cwd (destination d cwd a target) data with
          | .ok d =>
            let d := if executable then d.put other (.file data true) else d
            .ok (if moves && other ≠ place then ⟨d.nodes.erase place⟩ else d)
          | .error p => .error p
        | .error p => .error p
      | .ok (place, .directory) =>
        match d.locate cwd (destination d cwd a target) with
        | .error p => .error p
        | .ok other =>
          let moved := d.nodes.entries.filterMap fun (at', node) =>
            if at'.take place.length = place then some (other ++ at'.drop place.length, node)
            else none
          let d := if moves then d.removeTree place else d
          .ok (moved.foldl (fun d (at', node) => d.put at' node) d)

/-- Names in directories. -/
def ls (args : List String) : Sh Nat := do
  let (letters, rest) := options args
  let all := letters.contains 'a' || letters.contains 'A'
  let paths := if rest.isEmpty then ["."] else rest
  let cwd := (← Sh.get).cwd
  let mut status := 0
  let mut files := []
  let mut directories := []
  for path in paths.mergeSort (fun a b => !decide (b < a)) do
    match ← Sh.look (fun d => (d.find cwd path).map fun (place, node) =>
      match node with
      | .file .. => none
      | .directory => some (d.namesIn place)) (fun
        | .ok (some names) => .names (names.map String.ofList)
        | .ok none => .done
        | .error p => .problem p) with
    | .names names => directories := directories ++ [(path, names)]
    | .problem p => status ← fail "ls" s!"cannot access '{path}': {p.message}" 2
    | _ => files := files ++ [path]
  for file in files do
    Sh.print 1 (file ++ "\n")
  let headed := 1 < directories.length || !files.isEmpty
  let mut first := files.isEmpty
  for (path, names) in directories do
    if headed then Sh.print 1 ((if first then "" else "\n") ++ path ++ ":\n")
    first := false
    let shown := (names.filter fun n => all || !n.startsWith ".").mergeSort fun a b =>
      !decide (b < a)
    Sh.print 1 (String.join (shown.map (· ++ "\n")))
  pure status

/-- The last part of a path, without an ending. -/
def basename (args : List String) : Sh Nat := do
  let path := args.headD ""
  let parts := (path.splitOn "/").filter (· ≠ "")
  let name := (parts.getLast?).getD (if path.isEmpty then "" else "/")
  let ending := (args[1]?).getD ""
  let name :=
    if !ending.isEmpty && name.endsWith ending && name ≠ ending then
      (name.dropEnd ending.length).toString
    else name
  Sh.print 1 (name ++ "\n")
  done

/-- A path without its last part. -/
def dirname (args : List String) : Sh Nat := do
  let path := (args.headD "").toList
  let trim (cs : List Char) : List Char := (cs.reverse.dropWhile (· = '/')).reverse
  let rest := ((trim path).reverse.dropWhile (· ≠ '/')).reverse
  let name := if rest.isEmpty then (if path.head? = some '/' then ['/'] else ['.']) else trim rest
  Sh.print 1 (String.ofList (if name.isEmpty then ['/'] else name) ++ "\n")
  done

/-! ## Time, numbers and conditions -/

/-- Seconds with a fraction as microseconds. -/
def microseconds? (text : String) : Option Nat :=
  let unit (cs : List Char) : List Char × Nat :=
    match cs.getLast? with
    | some 's' => (cs.dropLast, 1)
    | some 'm' => (cs.dropLast, 60)
    | some 'h' => (cs.dropLast, 3600)
    | _ => (cs, 1)
  let (cs, scale) := unit text.toList
  let (whole, rest) := cs.span Char.isDigit
  let fraction? : Option (List Char) :=
    match rest with
    | [] => some []
    | '.' :: digits => if digits.all Char.isDigit then some digits else none
    | _ => none
  fraction?.bind fun fraction =>
    if whole.isEmpty && fraction.isEmpty then none
    else
      let padded := (fraction ++ List.replicate 6 '0').take 6
      some (scale * (((String.ofList whole).toNat?.getD 0) * 1000000 +
        ((String.ofList padded).toNat?.getD 0)))

/-- Lets time pass. -/
def sleep (args : List String) : Sh Nat := do
  match args.mapM microseconds? with
  | some (t :: ts) =>
    match ← Sh.ask (.sleep (ts.foldl (· + ·) t)) with
    | .flag false => pure 143
    | _ => done
  | _ =>
    let first := args.headD ""
    fail "sleep" s!"invalid time interval '{first}'\nTry 'sleep --help' for more information." 1

/-- Numbers in a row. -/
def seq (args : List String) : Sh Nat := do
  match args.mapM fun a => Arithmetic.signed? a.toList with
  | none =>
    let first := args.headD ""
    fail "seq" s!"invalid floating point argument: '{first}'" 1
  | some numbers =>
    let (first, step, last) : Int × Int × Int :=
      match numbers with
      | [a, b, c] => (a, b, c)
      | [a, b] => (a, 1, b)
      | [a] => (1, 1, a)
      | _ => (1, 1, 0)
    let count := if step = 0 then 0 else ((last - first) / step + 1).toNat
    Sh.print 1 (String.join ((List.range count).map fun (i : Nat) =>
      toString (first + step * i) ++ "\n"))
    done

/-- A test of one operand. -/
def testOne (cwd : Disk.Place) (d : Disk) (op value : String) : Option Bool :=
  match op with
  | "-n" => some (!value.isEmpty)
  | "-z" => some value.isEmpty
  | "-e" => some (d.isThere cwd value)
  | "-f" => some (d.isFile cwd value)
  | "-d" => some (d.isDirectory cwd value)
  | "-s" =>
    some (match d.find cwd value with
      | .ok (_, .file data _) => data.size ≠ 0
      | .ok _ => true
      | .error _ => false)
  | "-r" => some (d.isThere cwd value)
  | "-w" => some (d.isThere cwd value)
  | "-x" =>
    some (match d.find cwd value with
      | .ok (_, .file _ executable) => executable
      | .ok _ => true
      | .error _ => false)
  | "-L" => some false
  | "-h" => some false
  | "-t" => some false
  | _ => none

/-- A test of two operands. -/
def testTwo (a op b : String) : Option (Except String Bool) :=
  let number (f : Int → Int → Bool) : Option (Except String Bool) :=
    match Arithmetic.signed? a.trimAscii.toString.toList,
        Arithmetic.signed? b.trimAscii.toString.toList with
    | some m, some n => some (.ok (f m n))
    | none, _ => some (.error a)
    | _, _ => some (.error b)
  match op with
  | "=" => some (.ok (a = b))
  | "==" => some (.ok (a = b))
  | "!=" => some (.ok (a ≠ b))
  | "<" => some (.ok (a < b))
  | ">" => some (.ok (b < a))
  | "-eq" => number fun m n => m = n
  | "-ne" => number fun m n => m ≠ n
  | "-lt" => number fun m n => m < n
  | "-le" => number fun m n => m ≤ n
  | "-gt" => number fun m n => n < m
  | "-ge" => number fun m n => n ≤ m
  | _ => none

mutual

/-- A condition joined by `-o`. -/
def anyOf (fuel : Nat) (cwd : Disk.Place) (d : Disk) (ts : List String) :
    Except String (Bool × List String) :=
  match fuel with
  | 0 => .error ""
  | fuel + 1 => do
    let (a, ts) ← allOf fuel cwd d ts
    match ts with
    | "-o" :: rest =>
      let (b, ts) ← anyOf fuel cwd d rest
      pure (a || b, ts)
    | ts => pure (a, ts)

/-- A condition joined by `-a`. -/
def allOf (fuel : Nat) (cwd : Disk.Place) (d : Disk) (ts : List String) :
    Except String (Bool × List String) :=
  match fuel with
  | 0 => .error ""
  | fuel + 1 => do
    let (a, ts) ← condition fuel cwd d ts
    match ts with
    | "-a" :: rest =>
      let (b, ts) ← allOf fuel cwd d rest
      pure (a && b, ts)
    | ts => pure (a, ts)

/-- One condition. -/
def condition (fuel : Nat) (cwd : Disk.Place) (d : Disk) (ts : List String) :
    Except String (Bool × List String) :=
  match fuel with
  | 0 => .error ""
  | fuel + 1 =>
    match ts with
    | [] => .ok (false, [])
    | [a] => .ok (!a.isEmpty, [])
    | a :: op :: b :: rest =>
      match testTwo a op b with
      | some (.ok r) => .ok (r, rest)
      | some (.error text) => .error s!"Illegal number: {text}"
      | none => negatable fuel cwd d (a :: op :: b :: rest)
    | ts => negatable fuel cwd d ts

/-- A condition that may be negated or stand in brackets. -/
def negatable (fuel : Nat) (cwd : Disk.Place) (d : Disk) (ts : List String) :
    Except String (Bool × List String) :=
  match fuel with
  | 0 => .error ""
  | fuel + 1 =>
    match ts with
    | "!" :: rest => do
      let (r, ts) ← condition fuel cwd d rest
      pure (!r, ts)
    | "(" :: rest => do
      let (r, ts) ← anyOf fuel cwd d rest
      pure (r, ts.drop 1)
    | op :: value :: rest =>
      match testOne cwd d op value with
      | some r => .ok (r, rest)
      | none => .ok (!op.isEmpty, value :: rest)
    | ts => .ok (ts.any fun t => !t.isEmpty, [])

end

/-- Whether a condition holds. -/
def test (name : String) (args : List String) : Sh Nat := do
  let args := if name = "[" then args.dropLast else args
  let cwd := (← Sh.get).cwd
  match ← Sh.look (fun d => anyOf (8 * args.length + 8) cwd d args) (fun
    | .ok (r, _) => .flag r
    | .error text => .text text) with
  | .flag true => pure 0
  | .text text =>
    Sh.complain s!"{name}: {text}"
    pure 2
  | _ => pure 1

/-! ## Processes -/

/-- Sends a signal. -/
def kill (args : List String) : Sh Nat := do
  let (name, pids) :=
    match args with
    | "-s" :: name :: rest => (name, rest)
    | a :: rest =>
      if a.startsWith "-" && a ≠ "--" then ((a.drop 1).toString, rest)
      else ("TERM", if a = "--" then rest else args)
    | [] => ("TERM", [])
  let signal := if name = "0" then none else Signal.ofText? name
  if name ≠ "0" && signal.isNone then
    Sh.complain s!"kill: invalid signal number or name: {name}"
    pure 2
  else
    let mut status := 0
    for text in pids do
      let (group, digits) :=
        match text.toList with
        | '-' :: rest => (true, rest)
        | cs => (false, cs)
      match (String.ofList digits).toNat? with
      | none =>
        Sh.complain s!"kill: Illegal number: {text}"
        status := 2
      | some pid =>
        match ← Sh.ask (.kill (group || pid = 0) pid signal) with
        | .flag true => pure ()
        | _ =>
          Sh.complain "kill: No such process\n"
          status := 1
    pure status

/-- The variables that are passed on. -/
def printEnvironment : Sh Nat := do
  let s ← Sh.get
  Sh.print 1 (String.join ((Sh.environment s).map fun (k, v) => s!"{k}={v}\n"))
  done

/-- The values of some variables. -/
def printenv (args : List String) : Sh Nat := do
  if args.isEmpty then printEnvironment
  else
    let env := Sh.environment (← Sh.get)
    let found := args.filterMap fun a => env.lookup a
    Sh.print 1 (String.join (found.map (· ++ "\n")))
    pure (if found.length = args.length then 0 else 1)

/-- The directory in which the shell works. -/
def pwd : Sh Nat := do
  Sh.print 1 (Disk.pathOf (← Sh.get).cwd ++ "\n")
  done

/-- The tool of a name. -/
def find? (name : String) : Option (List String → Sh Nat) :=
  match name with
  | "echo" => some echo
  | "printf" => some printf
  | "cat" => some cat
  | "tee" => some tee
  | "head" => some head
  | "tail" => some tail
  | "wc" => some wc
  | "tr" => some tr
  | "sort" => some sort
  | "uniq" => some uniq
  | "grep" => some grep
  | "sed" => some sed
  | "touch" => some touch
  | "mkdir" => some mkdir
  | "rmdir" => some rmdir
  | "rm" => some rm
  | "chmod" => some chmod
  | "mv" => some (transfer "mv" true)
  | "cp" => some (transfer "cp" false)
  | "ls" => some ls
  | "basename" => some basename
  | "dirname" => some dirname
  | "sleep" => some sleep
  | "seq" => some seq
  | "test" => some (test "test")
  | "[" => some (test "[")
  | "kill" => some kill
  | "printenv" => some printenv
  | "pwd" => some fun _ => pwd
  | "true" => some fun _ => done
  | "false" => some fun _ => pure 1
  | "yes" => some fun args =>
    let line := if args.isEmpty then "y" else String.intercalate " " args
    yes Sh.patience (Sh.bytesOf (line ++ "\n"))
  | _ => none

end Tool
end Shell
end Notebook
