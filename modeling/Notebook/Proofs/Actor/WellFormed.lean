import Notebook.Proofs.Actor.Mirror
import Notebook.Proofs.Session.WellFormed

/-!
# Well-formed sessions of an actor

An actor checks a cell that a client has made up, and a filename, before they reach the
session, which itself refuses names and filenames that another cell has.  Together these keep
a session well-formed.

* `fits_of_accept`, `isManifest_of_accept`: what the checks of a new cell come to.
* `PlainChange.wellFormed`, `Change.wellFormed`: whatever an actor does keeps its session
  well-formed.
* `session_stays_wellFormed`: so does every run.
-/

set_option autoImplicit false

namespace Notebook
namespace Room

open Session

variable {r r' : Room}

/-! ## New cells -/

/-- Code is taken in as the session keeps it. -/
theorem fits_of_accept {s : Session} {given cell : Cell} (h : accept s given = .ok cell)
    (code : CodeCell) (hcode : cell.code? = some code) : code.Fits s.language := by
  cases given with
  | code c =>
      simp only [accept, Cell.withStatus] at h
      split at h
      · cases h
      · next hcheck =>
          obtain rfl := Except.ok.inj h
          obtain rfl := Option.some.inj hcode
          exact ⟨rfl, Filename.trim_trim _, (Filename.check_trim _ _).mpr hcheck⟩
  | manifest c =>
      simp only [accept, Cell.withStatus] at h
      split at h
      · cases h
      · obtain rfl := Except.ok.inj h
        cases hcode
  | title c =>
      obtain rfl := Except.ok.inj h
      cases hcode
  | markdown c =>
      obtain rfl := Except.ok.inj h
      cases hcode

/-- A manifest is taken in only by a session without one. -/
theorem isManifest_of_accept {s : Session} {given cell : Cell}
    (h : accept s given = .ok cell) (hmanifest : cell.isManifest = true) :
    s.cells.any Cell.isManifest = false := by
  cases given with
  | code c =>
      simp only [accept, Cell.withStatus] at h
      split at h
      · cases h
      · obtain rfl := Except.ok.inj h
        cases hmanifest
  | manifest c =>
      simp only [accept, Cell.withStatus] at h
      split at h
      · cases h
      · next hnone => simpa using hnone
  | title c =>
      obtain rfl := Except.ok.inj h
      cases hmanifest
  | markdown c =>
      obtain rfl := Except.ok.inj h
      cases hmanifest

/-! ## Changes -/

theorem setStatus_wellFormed (h : r.actor.session.WellFormed) (cell : CellId)
    (status : CellStatus) : (r.setStatus cell status).actor.session.WellFormed := by
  rcases setStatus_cases r cell status with ⟨_, heq⟩ | ⟨_, heq⟩
  · rw [heq]
    exact h.withStatus cell status
  · rw [heq]
    exact h

theorem spawned_wellFormed (h : r.actor.session.WellFormed) (cell : CellId)
    (request : RunRequest) (purpose : Purpose) (pid : Nat) :
    (r.spawned cell request purpose pid).actor.session.WellFormed := by
  refine setStatus_wellFormed ?_ cell .running
  exact h

theorem ended_wellFormed (h : r.actor.session.WellFormed) (cell : CellId) :
    (r.ended cell).actor.session.WellFormed := by
  refine setStatus_wellFormed ?_ cell .idle
  exact h

/-- Following an edit on disk and with the service leaves the session as the edit has made
it. -/
theorem Silent.wellFormed (hsilent : Silent r r') (h : r.actor.session.WellFormed) :
    r'.actor.session.WellFormed :=
  hsilent.session ▸ h

/-- Whatever an actor does by itself keeps its session well-formed. -/
theorem PlainChange.wellFormed (hchange : PlainChange r r') (h : r.actor.session.WellFormed) :
    r'.actor.session.WellFormed := by
  cases hchange with
  | created given cell index session haccept hinsert =>
      have hsession : session.WellFormed :=
        h.insert hinsert (isManifest_of_accept haccept) (fits_of_accept haccept)
      rw [Room.created, actor_broadcast]
      exact ((Silent.persist _ _).trans (Silent.follow _ _ _)).wellFormed hsession
  | renamed code given old session hcheck hfind hne hreplace =>
      have hsession : session.WellFormed := h.rename hfind (Filename.trim_trim given)
        ((Filename.check_trim given _).mpr hcheck) hreplace
      rw [Room.renamed, actor_broadcast]
      exact (((Silent.persist _ _).trans (Silent.persist _ _)).trans
        (Silent.inform _ _)).wellFormed hsession
  | deleted id cell session hremove =>
      have hsession : session.WellFormed := h.remove hremove
      rw [Room.deleted, actor_broadcast]
      exact ((Silent.stop _ _).trans (Silent.discard _ _ _)).wellFormed hsession
  | edited id cell source hfind =>
      have hsession := h.withSource id source
      rw [Room.edited, actor_broadcast]
      exact ((Silent.persist _ _).trans (Silent.follow _ _ _)).wellFormed hsession
  | refreshed manifest source hfind hread => exact h.withSource manifest.id source
  | spawned cell program args pid hfree hspawn hknown =>
      exact spawned_wellFormed h cell _ .cell pid
  | unspawned cell failure hfree => exact setStatus_wellFormed h cell .idle
  | ensured => exact (Silent.ensureBridge r).wellFormed h
  | freshened => exact (Silent.freshen r).wellFormed h
  | called c hc => exact (Silent.call r c).wellFormed h
  | dismissed => exact (Silent.dismissBridge r).wellFormed h
  | _ => exact h

theorem Change.wellFormed (hchange : Change r r') (h : r.actor.session.WellFormed) :
    r'.actor.session.WellFormed := by
  cases hchange with
  | plain hchange => exact hchange.wellFormed h
  | noticed notice haside => exact h
  | spawned cell program args purpose pid hfree hspawn hknown =>
      exact spawned_wellFormed h cell _ purpose pid
  | awaited inquiry => exact h

end Room

/-! ## Runs -/

namespace Site

variable {s s' : Site}

/-- Whatever happens keeps the session well-formed. -/
theorem Turn.wellFormed (hturn : s.Turn s') (h : s.actor.session.WellFormed) :
    s'.actor.session.WellFormed := by
  cases hturn with
  | posted letter _ => rwa [actor_post]
  | worked letter rest _ _ =>
      exact Room.receive_preserves (P := fun r => r.actor.session.WellFormed)
        (fun _ _ hchange hr => hchange.wellFormed hr)
        (fun _ cell hr => Room.ended_wellFormed hr cell) h letter
  | heard _ =>
      exact (Room.hearNext_changes s.room).preserves
        (P := fun r => r.actor.session.WellFormed)
        (fun _ _ hchange hr => hchange.wellFormed hr) h
  | concluded index inquiry letter _ _ => rwa [actor_post]
  | happened incident => rwa [session_withLedger]
  | planned hindrance launches incidents => rwa [session_withLedger]
  | passed generation w info _ _ => rwa [actor_post]
  | _ => exact h

/-- A session that is well-formed when it is opened stays so, whatever clients ask for,
processes do and others do to disk, service and processes. -/
theorem session_stays_wellFormed (facilities : Facilities) (spawner : Spawner) (disk : Disk)
    (supervisor : Supervisor) (session : Session) (h : session.WellFormed)
    (events : List Event) :
    ((opened facilities spawner disk supervisor session).run events).actor.session.WellFormed :=
  run_invariant (P := fun s => s.actor.session.WellFormed)
    (fun _ _ hturn h => hturn.wellFormed h) events h

/-- A code cell is created in another language and with blanks around its filename, another
one is given this filename in vain, and a second manifest is refused. -/
theorem session_stays_wellFormed_created :
    let session : Session := ⟨⟨"s"⟩, "/book", .typescript,
      [.code ⟨⟨"x"⟩, "1", "a.ts", .typescript, .idle⟩, .manifest ⟨⟨"p"⟩, "{}", .idle⟩]⟩
    let s := (opened ⟨.standard, .standard, []⟩ (fun _ _ => .ok 7) .empty (.new 16)
      session).run
      [.send ⟨0⟩ (.create 0 (.code ⟨⟨"y"⟩, "2", " b.ts\t", .javascript, .running⟩)), .work,
        .send ⟨0⟩ (.rename ⟨"x"⟩ "b.ts"), .work,
        .send ⟨0⟩ (.create 9 (.manifest ⟨⟨"q"⟩, "", .idle⟩)), .work]
    session.WellFormed ∧ s.actor.session.WellFormed ∧
    s.actor.session.filenames = ["b.ts", "a.ts"] ∧ s.actor.session.cells.length = 3 := by
  intro session s
  have hsession : session.WellFormed := by decide
  have hs : s.actor.session.WellFormed :=
    session_stays_wellFormed ⟨.standard, .standard, []⟩ (fun _ _ => .ok 7) .empty (.new 16)
      session hsession _
  exact ⟨hsession, hs, by decide +kernel, by decide +kernel⟩

end Site
end Notebook
