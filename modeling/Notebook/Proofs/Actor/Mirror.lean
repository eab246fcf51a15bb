import Notebook.Proofs.Actor.Site
import Notebook.Proofs.Service.Histories
import Notebook.Proofs.Session.CodeFiles
import Mathlib.Data.Set.Basic

/-!
# The open files of the bridge

An actor lets its bridge follow every edit, and remembers in `stale` that a call has
failed, since such a call may have changed some of the open files and not others.
`Actor.Mirrors` is the invariant behind this: unless the bridge is stale, its open files
are those of the code cells.

* `inform_mirrors`: a call that makes up for an edit, or fails.
* `freshen_mirrors`: a freshened bridge is not stale.
* `Change.mirrors`, `ended_mirrors`: whatever an actor does keeps the invariant.
* `open_files_mirror_cells`: the invariant in every run, and after every freshening.
* `open_files_miss_cell`: two code cells with one name spoil it.
-/

set_option autoImplicit false

namespace Notebook

/-- The bridge has exactly the files of the code cells open, each with its source. -/
def Session.MirroredBy (s : Session) (b : Bridge) : Prop :=
  ∀ f c, b.records.find? f = some c ↔ ∃ code ∈ s.codeCells, code.filename = f ∧ code.source = c

/-- Unless it is stale, the bridge has exactly the files of the code cells open. -/
structure Actor.Mirrors (a : Actor) : Prop where
  distinct : Session.DistinctFiles a.session.codeFiles
  shows : ∀ b, a.bridge = some b → a.stale = false →
    Session.Matches b.records a.session.codeFiles

/-- What the records match is open. -/
theorem Session.mirroredBy_iff (s : Session) (b : Bridge) :
    s.MirroredBy b ↔ Matches b.records s.codeFiles := by
  unfold MirroredBy Matches
  rw [codeFiles_eq]
  refine forall_congr' fun f => forall_congr' fun c => iff_congr Iff.rfl ?_
  constructor
  · rintro ⟨code, hcode, rfl, rfl⟩
    exact ⟨code.id, List.mem_map_of_mem hcode⟩
  · rintro ⟨id, hmem⟩
    obtain ⟨code, hcode, heq⟩ := List.mem_map.mp hmem
    obtain ⟨-, hf, hc⟩ := CodeFile.mk.inj heq
    exact ⟨code, hcode, hf, hc⟩

/-- Only the files, the bridge and its staleness matter. -/
theorem Actor.Mirrors.of_same {a a' : Actor} (h : a.Mirrors)
    (hfiles : a'.session.codeFiles = a.session.codeFiles) (hbridge : a'.bridge = a.bridge)
    (hstale : a'.stale = a.stale) : a'.Mirrors := by
  refine ⟨hfiles ▸ h.distinct, fun b hb hfresh => ?_⟩
  rw [hfiles]
  exact h.shows b (hbridge ▸ hb) (hstale ▸ hfresh)

namespace Room

open Call Session

variable {r r' : Room}

@[simp]
theorem actor_broadcast (r : Room) (notice : Notice) : (r.broadcast notice).actor = r.actor :=
  rfl

@[simp]
theorem actor_persist (r : Room) (deeds : List FileDeed) : (r.persist deeds).actor = r.actor :=
  rfl

@[simp]
theorem actor_stop (r : Room) (cell : CellId) : (r.stop cell).actor = r.actor := by
  unfold stop
  split <;> rfl

/-! ## Calls -/

/-- There is no bridge, or the call comes back, or it fails. -/
theorem call_cases {α : Type} {c : Call α} {ok : α → Bridge → Prop}
    {err : BridgeError → Bridge → Prop}
    (hcall : ∀ b, r.actor.bridge = some b → Ends c b ok err) :
    (r.actor.bridge = none ∧ r.call c = (.error .unavailable, r)) ∨
    (∃ a b, ok a b ∧ r.call c = (.ok a, { r with actor.bridge := some b })) ∨
    ∃ e b, err e b ∧ r.call c = (.error e, { r with actor.bridge := some b }) := by
  unfold call
  split
  · next hnone => exact Or.inl ⟨hnone, rfl⟩
  · next b hbridge =>
      have hends := hcall b hbridge
      rcases hrun : (c.run).run b with ⟨result, b'⟩
      cases result with
      | ok a => exact Or.inr (Or.inl ⟨a, b', hends.of_ok hrun, rfl⟩)
      | error e => exact Or.inr (Or.inr ⟨e, b', hends.of_error hrun, rfl⟩)

/-- A call of a fresh bridge that leaves the files of the code cells open, or fails, keeps
up with the session. -/
theorem inform_mirrors {c : Call Unit} {a : Actor} (hactor : r.actor = a)
    (hdistinct : DistinctFiles a.session.codeFiles)
    (hcall : ∀ b, a.bridge = some b → Ends c b
      (fun _ b' => a.stale = false → Matches b'.records a.session.codeFiles)
      fun _ _ => True) : (r.inform c).actor.Mirrors := by
  subst hactor
  unfold inform
  split
  · next hnone =>
      refine ⟨hdistinct, fun b hb => ?_⟩
      rw [hnone] at hb
      cases hb
  · next b hbridge =>
      rcases call_cases hcall with ⟨hnone, _⟩ | ⟨_, b', hmatches, heq⟩ | ⟨e, b', _, heq⟩
      · rw [hbridge] at hnone
        cases hnone
      · rw [heq]
        refine ⟨hdistinct, fun b'' hb hfresh => ?_⟩
        obtain rfl := Option.some.inj hb
        exact hmatches hfresh
      · rw [heq]
        exact ⟨hdistinct, fun _ _ hfresh => by cases hfresh⟩

/-- A call that keeps the records, whether it fails or not. -/
theorem call_mirrors {α : Type} {c : Call α} (h : r.actor.Mirrors)
    (hcall : ∀ b, Ends c b (fun _ b' => b'.records = b.records)
      fun _ b' => b'.records = b.records) : (r.call c).2.actor.Mirrors := by
  have hkept : ∀ b', (∃ b, r.actor.bridge = some b ∧ b'.records = b.records) →
      ({ r with actor.bridge := some b' } : Room).actor.Mirrors := by
    rintro b' ⟨b, hbridge, hrecords⟩
    refine ⟨h.distinct, fun b'' hb hfresh => ?_⟩
    obtain rfl := Option.some.inj hb
    rw [hrecords]
    exact h.shows b hbridge hfresh
  have hends : ∀ b, r.actor.bridge = some b → Ends c b
      (fun _ b' => ∃ b, r.actor.bridge = some b ∧ b'.records = b.records)
      fun _ b' => ∃ b, r.actor.bridge = some b ∧ b'.records = b.records := fun b hbridge =>
    (hcall b).mono (fun _ _ h => ⟨b, hbridge, h⟩) (fun _ _ h => ⟨b, hbridge, h⟩)
  rcases call_cases hends with ⟨_, heq⟩ | ⟨_, b', hrecords, heq⟩ | ⟨e, b', hrecords, heq⟩
  · rw [heq]
    exact h
  · rw [heq]
    exact hkept b' hrecords
  · rw [heq]
    exact hkept b' hrecords

/-- Calls that ask for something keep the records. -/
theorem Inquires.records {α : Type} {c : Call α} (hc : Inquires c) (b : Bridge) :
    Ends c b (fun _ b' => b'.records = b.records) fun _ b' => b'.records = b.records := by
  have hleaves : Ends c b (fun _ => Bridge.Leaves Set.univ b b.records)
      fun _ => Bridge.Leaves Set.univ b b.records := by
    cases hc with
    | nothing => exact Bridge.Leaves.of_later (Bridge.Later.refl b) rfl
    | start => exact Bridge.ends_start b
    | diagnostics filenames delay => exact Bridge.ends_requestDiagnostics b filenames delay
    | reanalyze filenames delay =>
        simp only [Room.reanalyze, ends_bind]
        refine (Bridge.ends_start b).mono ?_ (fun _ _ h => h)
        intro _ b₁ h₁
        refine (Bridge.ends_reload b₁).mono ?_ (fun _ _ h => h₁.keep h)
        intro _ b₂ h₂
        exact (Bridge.ends_requestDiagnostics b₂ filenames delay).mono
          (fun _ _ h => (h₁.keep h₂).keep h) (fun _ _ h => (h₁.keep h₂).keep h)
    | navigate navigation filename offset =>
        exact Bridge.ends_navigate b navigation filename offset
  exact hleaves.mono (fun _ _ h => h.records) (fun _ _ h => h.records)

/-- Adopting the sources of the session leaves exactly its files open. -/
theorem ends_adopt_sources (s : Session) (hs : DistinctFiles s.codeFiles) (b : Bridge) :
    Ends (Bridge.adopt s.sources) b (fun _ b' => Matches b'.records s.codeFiles)
      fun _ _ => True := by
  refine (Bridge.ends_adopt b s.sources (fun w _ => Set.mem_univ w.1)
    (nodup_sources s)).mono ?_ (fun _ _ _ => trivial)
  rintro _ b' ⟨records, hleaves, hfind⟩
  intro f c
  rw [← mem_sources_iff s hs f c, ← hfind f c, hleaves.records]

/-- Freshening keeps the invariant, and if it succeeds, the bridge is fresh. -/
theorem freshen_mirrors (h : r.actor.Mirrors) :
    r.freshen.2.actor.Mirrors ∧ (r.freshen.1 = .ok () → r.freshen.2.actor.stale = false) := by
  unfold freshen
  split
  · next hstale =>
      rcases call_cases (fun b _ => ends_adopt_sources r.actor.session h.distinct b) with
        ⟨_, heq⟩ | ⟨_, b', hmatches, heq⟩ | ⟨e, b', _, heq⟩
      · rw [heq]
        exact ⟨h, fun hok => by cases hok⟩
      · rw [heq]
        refine ⟨⟨h.distinct, fun b'' hb _ => ?_⟩, fun _ => rfl⟩
        obtain rfl := Option.some.inj hb
        exact hmatches
      · rw [heq]
        refine ⟨⟨h.distinct, fun _ _ hfresh => ?_⟩, fun hok => by cases hok⟩
        change r.actor.stale = false at hfresh
        rw [hstale] at hfresh
        cases hfresh
  · next hfresh => exact ⟨h, fun _ => by simpa using hfresh⟩

/-- A call does not take a bridge away. -/
theorem isSome_bridge_call {α : Type} (r : Room) (c : Call α) :
    (r.call c).2.actor.bridge.isSome = r.actor.bridge.isSome := by
  unfold call
  split
  · rfl
  · next b hbridge =>
      rw [hbridge]
      rfl

/-- A bridge that has been made ready is there. -/
theorem bridge_of_ready (h : r.ensureBridge.freshen = (.ok (), r')) :
    ∃ b, r'.actor.bridge = some b := by
  have hensured : r.ensureBridge.actor.bridge.isSome = true := by
    unfold ensureBridge
    split
    · next b hbridge =>
        rw [hbridge]
        rfl
    · rfl
  have hcall := isSome_bridge_call r.ensureBridge
    (Bridge.adopt r.ensureBridge.actor.session.sources)
  rw [hensured] at hcall
  refine Option.isSome_iff_exists.mp ?_
  unfold freshen at h
  split at h
  · split at h
    · next r₁ heq =>
        obtain ⟨-, rfl⟩ := Prod.mk.inj h
        rw [heq] at hcall
        exact hcall
    · cases h
  · obtain ⟨-, rfl⟩ := Prod.mk.inj h
    exact hensured

/-! ## Edits -/

/-- The files that an insertion leaves open. -/
theorem created_mirrors (h : r.actor.Mirrors) {cell : Cell} {index : Nat} {session : Session}
    (hinsert : r.actor.session.insert index cell = .ok session) :
    (r.created cell session).actor.Mirrors := by
  obtain ⟨before, after, hold, hnew, hfree⟩ := codeFiles_insert hinsert
  cases cell with
  | code code =>
      obtain ⟨hid, hfilename⟩ := hfree code.file rfl
      have hdistinct := h.distinct
      rw [hold] at hid hfilename hdistinct
      rw [created, follow, actor_broadcast]
      refine inform_mirrors (actor_persist _ _) (hnew ▸ hdistinct.insert hid hfilename)
        fun b hbridge => ?_
      refine (Bridge.ends_openFile b (Set.mem_univ code.filename) code.source).mono ?_
        (fun _ _ _ => trivial)
      intro _ b' hleaves hfresh
      have hmatches := h.shows b hbridge hfresh
      rw [hold] at hmatches
      rw [hleaves.records]
      exact hnew ▸ hmatches.insert hfilename
  | title _ => exact h.of_same (hnew.trans hold.symm) rfl rfl
  | markdown _ => exact h.of_same (hnew.trans hold.symm) rfl rfl
  | manifest _ => exact h.of_same (hnew.trans hold.symm) rfl rfl

/-- The files that a renaming leaves open. -/
theorem renamed_mirrors (h : r.actor.Mirrors) {code : CodeCell} {filename : String}
    {old : Cell} {session : Session}
    (hfind : r.actor.session.cell? code.id = some (.code code))
    (hne : code.filename ≠ filename)
    (hreplace : r.actor.session.replace (.code { code with filename }) = .ok (old, session)) :
    (r.renamed code filename session).actor.Mirrors := by
  obtain ⟨before, after, hold, hnew, hfilename⟩ :=
    codeFiles_replace h.distinct hfind hne hreplace
  have hdistinct := h.distinct
  rw [hold] at hdistinct
  -- Nobody has the new filename, hence none of the other cells.
  have hfree : filename ∉ (before ++ after).map CodeFile.filename := by
    rw [hold, (List.perm_middle.map CodeFile.filename).mem_iff] at hfilename
    exact fun hmem => hfilename (List.mem_cons_of_mem _ hmem)
  let file : CodeFile := { code.file with filename }
  rw [renamed, actor_broadcast]
  refine inform_mirrors ((actor_persist _ _).trans (actor_persist _ _))
    (hnew ▸ hdistinct.replace file rfl hfree) fun b hbridge => ?_
  refine (Bridge.ends_rename b code.filename (Set.mem_univ filename) code.source).mono ?_
    (fun _ _ _ => trivial)
  intro _ b' hleaves hfresh
  have hmatches := h.shows b hbridge hfresh
  rw [hold] at hmatches
  rw [hleaves.records]
  exact hnew ▸ hmatches.replace hdistinct file hfree

/-- The files that a deletion leaves open. -/
theorem deleted_mirrors (h : r.actor.Mirrors) {id : CellId} {cell : Cell} {session : Session}
    (hremove : r.actor.session.remove id = .ok (cell, session)) :
    (r.deleted id cell session).actor.Mirrors := by
  obtain ⟨before, after, hold, hnew⟩ := codeFiles_remove hremove
  have hactor := actor_stop (r.withSession session) id
  have hkept : cell.file? = none → ((r.withSession session).stop id).actor.Mirrors := by
    intro hnone
    rw [hactor]
    rw [hnone] at hold
    exact h.of_same (hnew.trans hold.symm) rfl rfl
  cases cell with
  | code code =>
      have hdistinct := h.distinct
      rw [hold] at hdistinct
      obtain ⟨hrest, _, hgone⟩ := hdistinct.remove
      rw [deleted, discard, actor_broadcast, actor_persist]
      refine inform_mirrors hactor (hnew ▸ hrest) fun b hbridge => ?_
      refine (@Bridge.ends_closeFile Set.univ b code.filename).mono ?_ (fun _ _ _ => trivial)
      intro _ b' hleaves hfresh
      have hmatches := h.shows b hbridge hfresh
      rw [hold] at hmatches
      rw [hleaves.records]
      exact hnew ▸ hmatches.remove hgone
  | title _ => exact hkept rfl
  | markdown _ => exact hkept rfl
  | manifest _ => exact hkept rfl

/-- The files that a new source leaves open. -/
theorem edited_mirrors (h : r.actor.Mirrors) {id : CellId} {cell : Cell} (source : String)
    (hfind : r.actor.session.cell? id = some cell) :
    (r.edited id cell source).actor.Mirrors := by
  have hkept : cell.file? = none →
      (r.withSession (r.actor.session.update id (·.withSource source))).actor.Mirrors := by
    intro hnone
    refine h.of_same (codeFiles_update _ id _ fun c hc => ?_) rfl rfl
    obtain rfl := Option.some.inj (hfind.symm.trans hc)
    cases cell with
    | code _ => cases hnone
    | title _ => rfl
    | markdown _ => rfl
    | manifest _ => rfl
  cases cell with
  | code code =>
      obtain rfl : code.id = id := id_of_cell? hfind
      obtain ⟨before, after, hold, hnew⟩ := codeFiles_withSource source hfind
      have hdistinct := h.distinct
      rw [hold] at hdistinct
      have hfree := hdistinct.remove.2.2
      let file : CodeFile := { code.file with source }
      have hcell : (Cell.code code).withSource source = .code { code with source } := rfl
      rw [edited, hcell, follow, actor_broadcast]
      refine inform_mirrors (actor_persist _ _) (hnew ▸ hdistinct.replace file rfl hfree)
        fun b hbridge => ?_
      refine (Bridge.ends_resync b (Set.mem_univ code.filename) source _).mono ?_
        (fun _ _ _ => trivial)
      intro _ b' hleaves hfresh
      have hmatches := h.shows b hbridge hfresh
      rw [hold] at hmatches
      -- Updating a file is the same as closing it and opening it again.
      change Matches b'.records (r.actor.session.update code.id (·.withSource source)).codeFiles
      rw [hleaves.records, hnew]
      refine (hmatches.replace hdistinct file hfree).congr fun f => ?_
      change _ = ((b.records.erase code.filename).set code.filename source).find? f
      simp only [Table.find?_set, Table.find?_erase]
      split <;> rfl
  | title _ => exact hkept rfl
  | markdown _ => exact hkept rfl
  | manifest _ => exact hkept rfl

theorem setStatus_mirrors (h : r.actor.Mirrors) (cell : CellId) (status : CellStatus) :
    (r.setStatus cell status).actor.Mirrors := by
  rcases setStatus_cases r cell status with ⟨_, heq⟩ | ⟨_, heq⟩
  · rw [heq]
    exact h.of_same (codeFiles_update _ cell _ fun c _ => Cell.file?_withStatus status c) rfl rfl
  · rw [heq]
    exact h

/-! ## Changes -/

/-- A bridge that has just been made is stale. -/
theorem ensureBridge_mirrors (h : r.actor.Mirrors) : r.ensureBridge.actor.Mirrors := by
  unfold ensureBridge
  split
  · exact h
  · exact ⟨h.distinct, fun _ _ hfresh => by cases hfresh⟩

/-- Whatever an actor does keeps the invariant. -/
theorem Change.mirrors (hchange : Change r r') (h : r.actor.Mirrors) : r'.actor.Mirrors := by
  have hspawned : ∀ cell program args purpose pid,
      (r.spawned cell (r.runRequest cell program args) purpose pid).actor.Mirrors := by
    intro cell program args purpose pid
    refine setStatus_mirrors ?_ cell .running
    exact h.of_same rfl rfl rfl
  cases hchange with
  | noticed notice haside => exact h
  | spawned cell program args purpose pid hfree hspawn =>
      exact hspawned cell program args purpose pid
  | awaited inquiry => exact h.of_same rfl rfl rfl
  | plain hchange =>
      cases hchange with
      | refused client refusal => exact h
      | counted event => exact h
      | signalled pid => exact h
      | shown call => exact h
      | closed call => exact h
      | noticed notice haside hreply => exact h
      | wrote deeds => exact h
      | created given cell index session haccept hinsert => exact created_mirrors h hinsert
      | restated cell hfind => exact h
      | renamed code given old session hcheck hfind hne hreplace =>
          exact renamed_mirrors h hfind hne hreplace
      | deleted id cell session hremove => exact deleted_mirrors h hremove
      | edited id cell source hfind => exact edited_mirrors h source hfind
      | refreshed manifest source hfind hread =>
          refine h.of_same (codeFiles_update _ manifest.id _ fun c hc => ?_) rfl rfl
          obtain rfl := Option.some.inj (hfind.symm.trans hc)
          rfl
      | spawned cell program args pid hfree hspawn => exact hspawned cell program args .cell pid
      | unspawned cell failure hfree => exact setStatus_mirrors h cell .idle
      | ensured => exact ensureBridge_mirrors h
      | freshened => exact (freshen_mirrors h).1
      | called c hc => exact call_mirrors h hc.records
      | dismissed =>
          refine ⟨?_, fun b hb => ?_⟩
          · rw [(Silent.dismissBridge r).session]
            exact h.distinct
          · rw [bridge_dismissBridge] at hb
            cases hb
      | settled hnone =>
          refine ⟨h.distinct, fun b hb => ?_⟩
          change r.actor.bridge = some b at hb
          rw [hnone] at hb
          cases hb
      | reported b report rest hbridge hreports =>
          obtain ⟨findings, heq⟩ := Bridge.handle_eq { b with reports := rest } report
          refine ⟨h.distinct, fun b' hb' hfresh => ?_⟩
          obtain rfl := Option.some.inj hb'
          rw [heq]
          exact h.shows b hbridge hfresh

theorem ended_mirrors (h : r.actor.Mirrors) (cell : CellId) :
    (r.ended cell).actor.Mirrors := by
  refine setStatus_mirrors ?_ cell .idle
  exact h.of_same rfl rfl rfl

end Room

/-! ## Runs -/

namespace Site

open Session

variable {s : Site}

/-- What happens to the service keeps the records. -/
theorem withLedger_mirrors (h : s.actor.Mirrors) {b : Bridge}
    (hrecords : b.records = s.actor.ledger.records) : (s.withLedger b).actor.Mirrors := by
  unfold withLedger Actor.withLedger
  unfold Actor.ledger at hrecords
  split
  · next old hbridge =>
      rw [hbridge] at hrecords
      refine ⟨h.distinct, fun b' hb' hfresh => ?_⟩
      obtain rfl := Option.some.inj hb'
      rw [hrecords]
      exact h.shows old hbridge hfresh
  · exact h.of_same rfl rfl rfl

theorem post_mirrors (h : s.actor.Mirrors) (letter : Letter) :
    (s.post letter).actor.Mirrors := by
  unfold post
  split
  · exact h
  · exact h

/-- Whatever happens keeps the invariant. -/
theorem Turn.mirrors {s' : Site} (hturn : s.Turn s') (h : s.actor.Mirrors) :
    s'.actor.Mirrors := by
  cases hturn with
  | posted letter _ => exact post_mirrors h letter
  | worked letter rest _ _ =>
      exact Room.receive_preserves (P := fun r => r.actor.Mirrors)
        (fun _ _ hchange hr => hchange.mirrors hr)
        (fun _ cell hr => Room.ended_mirrors hr cell) h letter
  | heard _ =>
      exact (Room.hearNext_changes s.room).preserves (P := fun r => r.actor.Mirrors)
        (fun _ _ hchange hr => hchange.mirrors hr) h
  | concluded index inquiry letter _ _ =>
      refine post_mirrors ?_ letter
      exact h.of_same rfl rfl rfl
  | happened incident =>
      exact withLedger_mirrors h (Bridge.later_apply _ incident).records
  | planned hindrance launches incidents => exact withLedger_mirrors h rfl
  | passed generation w info _ _ =>
      refine post_mirrors ?_ _
      exact h
  | _ => exact h

/-- The actor of a session that has just been opened. -/
theorem opened_mirrors (facilities : Facilities) (spawner : Spawner) (disk : Disk)
    (supervisor : Supervisor) (session : Session)
    (hids : (session.codeCells.map (·.id)).Nodup) (hfilenames : session.filenames.Nodup) :
    (opened facilities spawner disk supervisor session).actor.Mirrors := by
  refine ⟨⟨?_, ?_⟩, fun b hb => by cases hb⟩
  · change (session.codeFiles.map CodeFile.id).Nodup
    rw [codeFiles_eq, List.map_map]
    exact hids
  · change (session.codeFiles.map CodeFile.filename).Nodup
    rw [codeFiles_eq, List.map_map]
    exact hfilenames

theorem run_mirrors (h : s.actor.Mirrors) (events : List Event) :
    (s.run events).actor.Mirrors :=
  run_invariant (P := fun s => s.actor.Mirrors) (fun _ _ hturn h => hturn.mirrors h) events h

/-- After every step of a session whose code cells have distinct names and distinct
filenames, the bridge is stale, or its open files are exactly those of the code cells.
And whenever the bridge is then made ready, also in the middle of a letter as long as the
files and the bridge are those of the last step, its open files are exactly those of the
code cells and it is not stale. -/
theorem open_files_mirror_cells (facilities : Facilities) (spawner : Spawner) (disk : Disk)
    (supervisor : Supervisor) (session : Session)
    (hids : (session.codeCells.map (·.id)).Nodup) (hfilenames : session.filenames.Nodup)
    (events : List Event) :
    let s := (opened facilities spawner disk supervisor session).run events
    (∀ b, s.actor.bridge = some b →
      s.actor.stale = true ∨ s.actor.session.MirroredBy b) ∧
    ∀ r r' : Room, r.actor.bridge = s.actor.bridge → r.actor.stale = s.actor.stale →
      r.actor.session.codeFiles = s.actor.session.codeFiles →
      r.ensureBridge.freshen = (.ok (), r') →
      r'.actor.stale = false ∧
        ∃ b, r'.actor.bridge = some b ∧ r'.actor.session.MirroredBy b := by
  intro s
  have hs : s.actor.Mirrors := run_mirrors
    (opened_mirrors facilities spawner disk supervisor session hids hfilenames) events
  constructor
  · intro b hbridge
    cases hstale : s.actor.stale with
    | true => exact Or.inl rfl
    | false => exact Or.inr ((mirroredBy_iff _ b).mpr (hs.shows b hbridge hstale))
  · intro r r' hbridge hstale hfiles hready
    have hr : r.actor.Mirrors := hs.of_same hfiles hbridge hstale
    obtain ⟨hmirrors, hfresh⟩ := Room.freshen_mirrors (Room.ensureBridge_mirrors hr)
    rw [hready] at hmirrors hfresh
    have hr' : r'.actor.stale = false := hfresh rfl
    obtain ⟨b, hb⟩ := Room.bridge_of_ready hready
    exact ⟨hr', b, hb, (mirroredBy_iff _ b).mpr (hmirrors.shows b hb hr')⟩

/-- The only code cell is renamed while its service dies, and another one is created. -/
theorem open_files_mirror_cells_created :
    let session : Session := ⟨⟨"s"⟩, "/book", .typescript,
      [.code ⟨⟨"x"⟩, "1", "a.ts", .typescript, .idle⟩]⟩
    let s := (opened ⟨.standard, .standard, []⟩ (fun _ _ => .ok 7) .empty (.new 16)
      session).run [.send ⟨0⟩ .startService, .work, .happens (.dies 1),
      .send ⟨0⟩ (.rename ⟨"x"⟩ "c.ts"), .work,
      .send ⟨0⟩ (.create 0 (.code ⟨⟨"y"⟩, "2", "b.ts", .typescript, .idle⟩)), .work]
    (session.codeCells.map (·.id)).Nodup ∧ session.filenames.Nodup ∧
    s.actor.stale = false ∧ s.actor.session.filenames = ["b.ts", "c.ts"] ∧
    ∃ b, s.actor.bridge = some b ∧ s.actor.session.MirroredBy b := by
  intro session s
  have hstale : s.actor.stale = false := by decide +kernel
  have hbridge : s.actor.bridge.isSome = true := by decide +kernel
  obtain ⟨b, hb⟩ := Option.isSome_iff_exists.mp hbridge
  have hmirror := (open_files_mirror_cells ⟨.standard, .standard, []⟩ (fun _ _ => .ok 7)
    .empty (.new 16) session (by decide) (by decide) _).1 b hb
  rw [hstale, Bool.false_eq_true, false_or] at hmirror
  exact ⟨by decide, by decide, hstale, by decide +kernel, b, hb, hmirror⟩

/-- With one name for two code cells, renaming one may give both the filename of the other.
Deleting one then closes the file of the other, and nothing marks the bridge as stale. -/
theorem open_files_miss_cell :
    let session : Session := ⟨⟨"s"⟩, "/book", .typescript,
      [.code ⟨⟨"x"⟩, "1", "a.ts", .typescript, .idle⟩,
        .code ⟨⟨"x"⟩, "2", "b.ts", .typescript, .idle⟩]⟩
    let s := (opened ⟨.standard, .standard, []⟩ (fun _ _ => .ok 7) .empty (.new 16)
      session).run [.send ⟨0⟩ (.rename ⟨"x"⟩ "b.ts"), .work, .send ⟨0⟩ .startService, .work,
      .send ⟨0⟩ (.delete ⟨"x"⟩), .work]
    session.filenames.Nodup ∧ s.actor.stale = false ∧
    s.actor.session.filenames = ["b.ts"] ∧
    s.actor.bridge.map (·.records) = some .empty := by
  decide +kernel

end Site
end Notebook
