import Notebook.Disk
import Notebook.Identifier
import Notebook.Language
import Notebook.Settings.Expansion
import Notebook.Settings.Sections
import Notebook.Toml.Reader

/-!
# Settings

The settings of the engine are a TOML file in which every section may be missing.
References to variables are replaced in every string, after the text was read and
before it is understood.  A missing file stands for the defaults.
-/

namespace Notebook

open Json (Document)

mutual

/-- A TOML value as a document.  Dates read as their text, and floats as numbers that
nothing accepts. -/
def Toml.toDocument : Toml → Document
  | .string s => .string (some s)
  | .integer i => .number (some (.integer i))
  | .float _ => .number none
  | .bool b => .bool b
  | .datetime d => .string (some d.text)
  | .array items => .array (Toml.listToDocument items)
  | .table fields => .object (Toml.fieldsToDocument fields)

/-- TOML values as documents. -/
def Toml.listToDocument : List Toml → List Document
  | [] => []
  | item :: rest => item.toDocument :: Toml.listToDocument rest

/-- The fields of a table as fields of a document. -/
def Toml.fieldsToDocument : List (String × Toml) → List (Option String × Document)
  | [] => []
  | (name, item) :: rest => (some name, item.toDocument) :: Toml.fieldsToDocument rest

end

/-- A session that is opened at the start. -/
structure StartSession where
  id : SessionId
  dir : String
  language : Language
  deriving DecidableEq, Repr

/-- All settings. -/
structure Settings where
  /-- The address at which clients are served. -/
  bind : String
  runner : RunnerSettings
  service : ServiceSettings
  channel : ChannelSettings
  sessions : List StartSession
  deriving DecidableEq, Repr

namespace StartSession

/-- The session that a document writes. -/
def ofDocument? (doc : Document) : Option StartSession :=
  match doc.record? ["id", "dir", "language"] with
  | some [id, dir, language] => do
    let id ← id.required (·.string?)
    let dir ← dir.required (·.string?)
    let language ← language.required (·.variant? .tree Language.table)
    pure ⟨⟨id⟩, dir, language⟩
  | _ => none

/-- The value of a session. -/
def toJson (s : StartSession) : Json :=
  Json.ofFields
    [("id", .string s.id.text), ("dir", .string s.dir), ("language", s.language.toJson)]

end StartSession

namespace Settings

/-- The settings of a missing file. -/
def standard : Settings :=
  ⟨"127.0.0.1:2150", .standard, .standard, .standard, []⟩

instance : Inhabited Settings := ⟨standard⟩

/-- The value of a section of the server, which holds its address only. -/
def bindOf? (doc : Document) : Option String :=
  match doc.record? ["bind"] with
  | some [address] => address.orElse standard.bind (·.string?)
  | _ => none

/-- The settings that a document writes. -/
def ofDocument? (doc : Document) : Option Settings :=
  match doc.record? ["server", "process", "lsp", "channel", "sessions"] with
  | some [server, process, lsp, channel, sessions] => do
    let bind ← server.orElse standard.bind bindOf?
    let runner ← process.orElse .standard RunnerSettings.ofDocument?
    let service ← lsp.orElse .standard ServiceSettings.ofDocument?
    let channel ← channel.orElse .standard ChannelSettings.ofDocument?
    let sessions ← sessions.orElse [] (·.list? StartSession.ofDocument?)
    pure ⟨bind, runner, service, channel, sessions⟩
  | _ => none

/-- The settings that a tree writes, with references to variables replaced. -/
def ofToml? (env : Expansion.Environment) (tree : Toml) : Option Settings :=
  ofDocument? (tree.mapStrings (Expansion.expand env)).toDocument

/-- The settings that a text writes. -/
def parse? (env : Expansion.Environment) (text : String) : Option Settings :=
  (Toml.parse? text).bind (ofToml? env)

/-- Why settings cannot be loaded. -/
inductive Problem where
  | unreadable (path : String) (cause : Disk.Problem)
  | malformed (path : String)
  deriving DecidableEq, Repr

/-- The file with the problem. -/
def Problem.path : Problem → String
  | .unreadable path _ => path
  | .malformed path => path

/-- The wording of a problem. -/
def Problem.message : Problem → String
  | .unreadable path cause => s!"failed to read config at {path}: {cause.message}"
  | .malformed path => s!"failed to parse config at {path}: no valid settings"

/-- Loads settings from a file.  A missing file stands for the defaults. -/
def loadFrom (disk : Disk) (cwd : Disk.Place) (env : Expansion.Environment)
    (path : String) : Except Problem Settings :=
  if disk.isThere cwd path then
    match disk.readText cwd path with
    | .error cause => .error (.unreadable path cause)
    | .ok text =>
      match parse? env text with
      | some settings => .ok settings
      | none => .error (.malformed path)
  else .ok standard

/-- The variable that names the settings file. -/
def pathVariable : String := "CELLBOOK_CONFIG"

/-- The settings file: the one that the environment names, or the one in the home
directory. -/
def path? (env : Expansion.Environment) : Option String :=
  match (env.value? pathVariable).filter (fun path => !path.isEmpty) with
  | some path => some path
  | none =>
    ((env.value? "HOME").filter fun home => !home.isEmpty).map fun home =>
      Path.join (Path.join home ".cellbook") "config.toml"

/-- Loads the settings file. -/
def load (disk : Disk) (cwd : Disk.Place) (env : Expansion.Environment) :
    Except Problem Settings :=
  match path? env with
  | some path => loadFrom disk cwd env path
  | none => .ok standard

/-- The value of all settings. -/
def toJson (s : Settings) : Json :=
  Json.ofFields
    [("bind", .string s.bind), ("process", s.runner.toJson), ("lsp", s.service.toJson),
     ("outbound_capacity", .nat s.channel.outboundCapacity.toNat),
     ("sessions", .array (s.sessions.map StartSession.toJson))]

end Settings
end Notebook
