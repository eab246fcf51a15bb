import Notebook.Discovery
import Notebook.Engine.Work
import Notebook.Settings

/-!
# Starting the engine

The engine starts with the sessions that the settings name: each is discovered in its
directory and opened.  The first one that cannot be opened ends the start.
-/

set_option autoImplicit false

namespace Notebook

/-- Why the engine does not start. -/
inductive StartProblem where
  | settings
  | loading (session : SessionId) (problem : Discovery.Problem)
  | opening (session : SessionId) (error : CoordinatorError)
  deriving DecidableEq, Repr

/-- The wording of a problem. -/
def StartProblem.message : StartProblem → String
  | .settings => "loading configuration"
  | .loading session problem => s!"loading session {session.text}: {problem.message}"
  | .opening session error => s!"opening session {session.text}: {error.message}"

namespace Engine

/-- Discovers and opens a session. -/
def openStored (e : Engine) (s : StartSession) : Except StartProblem Engine :=
  match Discovery.discover e.host.machine.disk [] Discovery.hexId s.id s.dir s.language with
  | .error problem => .error (.loading s.id problem)
  | .ok session =>
    match e.call (·.beginOpen session) with
    | (.error error, _) => .error (.opening s.id error)
    | (.ok _, e) => .ok e

/-- The engine with the sessions of the settings, on a disk. -/
def ofSettings (settings : Settings) (disk : Disk) (environment : Expansion.Environment) :
    Except StartProblem Engine :=
  settings.sessions.foldlM openStored
    (.new ⟨settings.runner, settings.service, []⟩ settings.channel disk environment .command)

/-- The engine for a text with settings. -/
def start (text : String) (disk : Disk) (environment : Expansion.Environment) :
    Except StartProblem Engine :=
  match Settings.parse? environment text with
  | some settings => ofSettings settings disk environment
  | none => .error .settings

/-- Hands in a frame of a client and works until nothing happens any more; the answer is
what the client has received. -/
def converse (e : Engine) (c : ConnectionId) (text : String) : List String × Engine :=
  let e := (e.handIn c text).settle.2
  let (_, e) := e.await fun _ _ => false
  let e := e.receive.2
  ((e.received.find? c).getD [], { e with received := .empty })

end Engine
end Notebook
