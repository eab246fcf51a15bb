import Notebook.Actor.Editing
import Notebook.Actor.Running

/-!
# Steps of an actor

`Room.receive` handles one letter, `Room.hearNext` one report of the service, and
`Actor.concludeAll` turns inquiries whose fate is known into letters.  A whole run of an
actor consists of these steps, with changes by others between them.
-/

set_option autoImplicit false

namespace Notebook
namespace Room

/-- Does what a client asks for. -/
def perform (r : Room) : Intent → Handled
  | .execute cell => r.execute cell
  | .stop cell => (r.stop cell).done
  | .create index cell => r.create index.toNat cell
  | .rename cell filename => r.rename cell filename
  | .delete cell => r.delete cell
  | .edit cell source => r.edit cell source
  | .install packages => r.install packages
  | .startService => r.startService
  | .stopService => r.stopService
  | .requestDiagnostics => r.requestDiagnostics
  | .navigate navigation query => r.navigate navigation query

/-- Does what a client asks for, or tells this client alone why not. -/
def serve (r : Room) (sender : ConnectionId) (intent : Intent) : Room :=
  match r.perform intent with
  | (none, r) => r
  | (some refusal, r) => r.tell (.refusal sender refusal)

/-- Stops the service and all processes of the session. -/
def teardown (r : Room) : Room :=
  let r := r.dismissBridge
  (r.supervisor.stopSession r.actor.session.id).foldl (fun r pid => r.tell (.signalled pid)) r

/-- Handles a letter; the answer says whether the actor goes on. -/
def receive (r : Room) : Letter → Bool × Room
  | .intent sender intent => (true, r.serve sender intent)
  | .exited cell pid purpose info => (true, r.exited cell pid purpose info)
  | .answered request answer => (true, r.answer request answer)
  | .snapshot call => (true, r.tell (.snapshot call r.actor.session.cells))
  | .close call => (false, r.teardown.tell (.closed call))

end Room
end Notebook
