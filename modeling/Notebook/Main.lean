import Notebook.Engine.Startup

/-!
# Command line

The arguments are the lines of the settings.  The engine has a disk of its own, which is
empty at the start, and serves one client: every line of the standard input is a frame of
this client, and every frame that the client receives becomes a line of the standard
output.
-/

namespace Notebook

/-- Serves the client until its input ends. -/
partial def serveLines (input output : IO.FS.Stream) (c : ConnectionId) (e : Engine) :
    IO Unit := do
  let line ← input.getLine
  unless line.isEmpty do
    let text := if line.endsWith "\n" then (line.dropEnd 1).toString else line
    let (frames, e) := e.converse c text
    for frame in frames do
      output.putStrLn frame
    output.flush
    serveLines input output c e

end Notebook

open Notebook in
/-- Starts the engine and serves one client. -/
def main (args : List String) : IO UInt32 := do
  match Engine.start (String.intercalate "\n" args) .empty [] with
  | .error problem =>
    (← IO.getStderr).putStrLn problem.message
    pure 1
  | .ok e =>
    let (c, hub) := e.hub.connect
    serveLines (← IO.getStdin) (← IO.getStdout) c { e with hub }
    pure 0
