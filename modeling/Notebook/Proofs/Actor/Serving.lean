import Notebook.Proofs.Actor.Ledgers
import Notebook.Proofs.Actor.WellFormed
import Notebook.Proofs.Service.Utterances

/-!
# What an actor does with its bridge

An actor plays moves on its bridge and now and then replaces it by a renewed one.  It opens no
files but those of code cells, and a code cell has a filename from the beginning or one that was
checked: `Session.possibleNames`.  So a property of bridges that every move with such names and
every renewal keep, `Bridge.Closed`, holds of the bridge in every run.

* `Session.ComesFrom`: where a session lies, its language and the filenames it may have.
* `Closed.adopt`, `Closed.resync`, `Closed.reanalyze`: calls that are made of several moves.
* `Room.Change.serves`, `Site.run_serves`: the property is kept by whatever an actor does.
* `Site.run_comesFrom`: every run stays with the directory and the language of its session.
-/

set_option autoImplicit false

namespace Notebook

open Call

/-! ## Filenames -/

namespace Session

variable {s₀ s s' : Session}

/-- The filenames that a code cell may ever have: one that it has from the beginning, and
those that may be given to it. -/
def possibleNames (s : Session) : Set String :=
  {f | f ∈ s.filenames ∨ Text.trim f = f ∧ Filename.check f s.language = .ok ()}

/-- A session as it may have become of another one. -/
structure ComesFrom (s₀ s : Session) : Prop where
  dir : s.dir = s₀.dir
  language : s.language = s₀.language
  names : ∀ f ∈ s.filenames, f ∈ s₀.possibleNames

theorem mem_filenames_iff (s : Session) (f : String) :
    f ∈ s.filenames ↔ ∃ file ∈ s.codeFiles, file.filename = f := by
  rw [codeFiles_eq, filenames]
  simp [CodeCell.file]

/-- A cell that keeps its filename leaves the filenames as they are. -/
theorem filenames_update (s : Session) (id : CellId) {f : Cell → Cell}
    (hf : ∀ c, (f c).code?.map CodeCell.filename = c.code?.map CodeCell.filename) :
    (s.update id f).filenames = s.filenames := by
  have hcells : ∀ cells, (updateCells id f cells).filterMap
      (fun c => c.code?.map CodeCell.filename) =
        cells.filterMap fun c => c.code?.map CodeCell.filename := by
    intro cells
    induction cells with
    | nil => rfl
    | cons c rest ih =>
        unfold updateCells
        split
        · rw [List.filterMap_cons, List.filterMap_cons, hf c]
        · rw [List.filterMap_cons, List.filterMap_cons, ih]
  unfold filenames codeCells
  rw [List.map_filterMap, List.map_filterMap]
  exact hcells s.cells

namespace ComesFrom

theorem refl (s : Session) : s.ComesFrom s :=
  ⟨rfl, rfl, fun _ hf => Or.inl hf⟩

theorem sourceDir (h : s₀.ComesFrom s) : s.sourceDir = s₀.sourceDir :=
  congrArg (Path.join · "src") h.dir

theorem manifestPath (h : s₀.ComesFrom s) : s.manifestPath = s₀.manifestPath :=
  congrArg (Path.join · "package.json") h.dir

theorem pathFor (h : s₀.ComesFrom s) (f : String) : s.pathFor f = s₀.pathFor f :=
  congrArg (Path.join · f) h.sourceDir

/-- A filename that is in order may be given to a cell. -/
theorem possible (h : s₀.ComesFrom s) {f : String} (htrimmed : Text.trim f = f)
    (hchecked : Filename.check f s.language = .ok ()) : f ∈ s₀.possibleNames :=
  Or.inr ⟨htrimmed, h.language ▸ hchecked⟩

theorem insert (h : s₀.ComesFrom s) {index : Nat} {cell : Cell}
    (hinsert : s.insert index cell = .ok s')
    (hfits : ∀ code, cell.code? = some code → code.Fits s.language) : s₀.ComesFrom s' := by
  obtain ⟨before, after, hold, hnew, -⟩ := codeFiles_insert hinsert
  obtain ⟨-, -, _, _, -, rfl⟩ := of_insert_eq_ok hinsert
  refine ⟨h.dir, h.language, fun f hf => ?_⟩
  obtain ⟨file, hfile, rfl⟩ := (mem_filenames_iff _ f).mp hf
  rw [hnew, List.mem_append, List.mem_append, Option.mem_toList] at hfile
  have hkept : file ∈ before ++ after → file.filename ∈ s₀.possibleNames := fun hmem =>
    h.names _ ((mem_filenames_iff s _).mpr ⟨file, hold ▸ hmem, rfl⟩)
  rcases hfile with hfile | hfile | hfile
  · exact hkept (List.mem_append_left after hfile)
  · cases cell with
    | code code =>
        obtain rfl := Option.some.inj hfile
        have hcode := hfits code rfl
        exact h.possible hcode.trimmed hcode.checked
    | _ => cases hfile
  · exact hkept (List.mem_append_right before hfile)

theorem rename (h : s₀.ComesFrom s) {code : CodeCell} {filename : String} {old : Cell}
    (htrimmed : Text.trim filename = filename)
    (hchecked : Filename.check filename s.language = .ok ())
    (hreplace : s.replace (.code { code with filename }) = .ok (old, s')) :
    s₀.ComesFrom s' := by
  obtain ⟨-, before, after, hsplit, rfl⟩ := of_replace_eq_ok hreplace
  refine ⟨h.dir, h.language, fun f hf => ?_⟩
  obtain ⟨file, hfile, rfl⟩ := (mem_filenames_iff _ f).mp hf
  rw [codeFiles_cells, List.mem_append, List.mem_append] at hfile
  have hkept : file ∈ s.codeFiles → file.filename ∈ s₀.possibleNames := fun hmem =>
    h.names _ ((mem_filenames_iff s _).mpr ⟨file, hmem, rfl⟩)
  rw [hsplit.codeFiles, List.mem_append, List.mem_append] at hkept
  rcases hfile with hfile | hfile | hfile
  · exact hkept (Or.inl hfile)
  · obtain rfl := List.mem_singleton.mp hfile
    exact h.possible htrimmed hchecked
  · exact hkept (Or.inr (Or.inr hfile))

theorem remove (h : s₀.ComesFrom s) {id : CellId} {old : Cell}
    (hremove : s.remove id = .ok (old, s')) : s₀.ComesFrom s' := by
  obtain ⟨before, after, hold, hnew⟩ := codeFiles_remove hremove
  obtain ⟨_, _, -, rfl⟩ := of_remove_eq_ok hremove
  refine ⟨h.dir, h.language, fun f hf => ?_⟩
  obtain ⟨file, hfile, rfl⟩ := (mem_filenames_iff _ f).mp hf
  refine h.names _ ((mem_filenames_iff s _).mpr ⟨file, ?_, rfl⟩)
  rw [hnew, List.mem_append] at hfile
  rw [hold, List.mem_append, List.mem_append]
  exact hfile.imp_right Or.inr

theorem update (h : s₀.ComesFrom s) (id : CellId) {f : Cell → Cell}
    (hf : ∀ c, (f c).code?.map CodeCell.filename = c.code?.map CodeCell.filename) :
    s₀.ComesFrom (s.update id f) :=
  ⟨h.dir, h.language, fun name hname => h.names name (filenames_update s id hf ▸ hname)⟩

theorem withSource (h : s₀.ComesFrom s) (id : CellId) (source : String) :
    s₀.ComesFrom (s.update id (·.withSource source)) :=
  h.update id fun c => by cases c <;> rfl

theorem withStatus (h : s₀.ComesFrom s) (id : CellId) (status : CellStatus) :
    s₀.ComesFrom (s.update id (·.withStatus status)) :=
  h.update id fun c => by cases c <;> rfl

end ComesFrom

/-- The sources are those of files of code cells. -/
theorem fst_mem_filenames_of_mem_sources {w : String × String} (h : w ∈ s.sources) :
    w.1 ∈ s.filenames := by
  have hkeys : ∀ (entries : List (String × String)) (t : Table String String) (f : String),
      f ∈ (entries.foldl (fun t e => t.set e.1 e.2) t).keys →
        f ∈ t.keys ∨ f ∈ entries.map (·.1) := by
    intro entries
    induction entries with
    | nil => exact fun _ _ h => Or.inl h
    | cons e rest ih =>
        intro t f hf
        rcases ih _ f hf with hmem | hmem
        · rw [← not_not (a := f ∈ (t.set e.1 e.2).keys), ← Table.find?_eq_none_iff,
            Table.find?_set] at hmem
          by_cases he : e.1 = f
          · exact Or.inr (List.mem_cons.mpr (Or.inl he.symm))
          · rw [if_neg he, Table.find?_eq_none_iff, not_not] at hmem
            exact Or.inl hmem
        · exact Or.inr (List.mem_cons_of_mem _ hmem)
  have hmem : w.1 ∈ s.sourceTable.keys :=
    List.mem_map_of_mem ((sources_perm s).mem_iff.mp h)
  rcases hkeys _ _ _ hmem with hmem | hmem
  · cases hmem
  · rw [mem_filenames_iff]
    simpa using hmem

end Session

/-! ## Bridges -/

namespace Bridge

/-- Every move that opens files with these names keeps the property, and so does renewing. -/
structure Closed (names : Set String) (P : Bridge → Prop) : Prop where
  play : ∀ b, P b → ∀ m : Move, (∀ f ∈ m.opens, f ∈ names) → P (b.play m)
  renew : ∀ b, P b → P b.renew

theorem ends_iff_after {α : Type} (c : Call α) (b : Bridge) (P : Bridge → Prop) :
    Ends c b (fun _ => P) (fun _ => P) ↔ P (b.after c) := by
  refine ⟨Ends.always, fun h => ?_⟩
  unfold Ends
  unfold after at h
  rcases hrun : (c.run).run b with ⟨result, b'⟩
  rw [hrun] at h
  cases result <;> exact h

namespace Closed

variable {names : Set String} {P : Bridge → Prop} (hP : Closed names P) {b : Bridge}

include hP

/-- A call that is a move. -/
theorem ends {α : Type} {c : Call α} {m : Move} (hm : ∀ b : Bridge, b.play m = b.after c)
    (hopens : ∀ f ∈ m.opens, f ∈ names) (hb : P b) : Ends c b (fun _ => P) fun _ => P :=
  (ends_iff_after c b P).mpr (hm b ▸ hP.play b hb m hopens)

theorem start (hb : P b) : Ends start b (fun _ => P) fun _ => P :=
  hP.ends (m := .start) (fun _ => rfl) nofun hb

theorem openFile {filename : String} (hname : filename ∈ names) (content : String) (hb : P b) :
    Ends (openFile filename content) b (fun _ => P) fun _ => P :=
  hP.ends (m := .openFile filename content) (fun _ => rfl)
    (fun _ hf => List.mem_singleton.mp hf ▸ hname) hb

theorem update {filename : String} (hname : filename ∈ names) (content : String) (hb : P b) :
    Ends (update filename content) b (fun _ => P) fun _ => P :=
  hP.ends (m := .update filename content) (fun _ => rfl)
    (fun _ hf => List.mem_singleton.mp hf ▸ hname) hb

theorem closeFile (filename : String) (hb : P b) :
    Ends (closeFile filename) b (fun _ => P) fun _ => P :=
  hP.ends (m := .closeFile filename) (fun _ => rfl) nofun hb

theorem rename (old : String) {new : String} (hname : new ∈ names) (content : String)
    (hb : P b) : Ends (rename old new content) b (fun _ => P) fun _ => P :=
  hP.ends (m := .rename old new content) (fun _ => rfl)
    (fun _ hf => List.mem_singleton.mp hf ▸ hname) hb

theorem requestDiagnostics (filenames : List String) (delay : Nat) (hb : P b) :
    Ends (requestDiagnostics filenames delay) b (fun _ => P) fun _ => P :=
  hP.ends (m := .requestDiagnostics filenames delay) (fun _ => rfl) nofun hb

/-! ### Calls made of several moves -/

theorem adopt {wanted : List (String × String)} (hwanted : ∀ w ∈ wanted, w.1 ∈ names)
    (hb : P b) : Ends (adopt wanted) b (fun _ => P) fun _ => P := by
  have hopened : ∀ b, P b →
      Ends (wanted.forM fun w => Bridge.openFile w.1 w.2) b (fun _ => P) fun _ => P := by
    intro b hb
    refine (ends_forM (p := fun rest b => (∀ w ∈ rest, w.1 ∈ names) ∧ P b) wanted ?_ b
      ⟨hwanted, hb⟩).mono (fun _ _ h => h.2) (fun _ _ h => h)
    rintro w rest b ⟨hnames, hb⟩
    exact (hP.openFile (hnames w List.mem_cons_self) w.2 hb).mono
      (fun _ _ h => ⟨fun w hw => hnames w (List.mem_cons_of_mem _ hw), h⟩) (fun _ _ h => h)
  unfold Bridge.adopt
  simp only [ends_bind, ends_get]
  refine (ends_forM (p := fun _ => P) _ (fun f _ _ hb => hP.closeFile f hb) b hb).mono
    (fun _ b' hb' => hopened b' hb') (fun _ _ h => h)

theorem resync {filename : String} (hname : filename ∈ names) (content : String)
    (filenames : List String) (hb : P b) :
    Ends (resync filename content filenames) b (fun _ => P) fun _ => P := by
  unfold Bridge.resync
  simp only [ends_bind, ends_get]
  exact (hP.update hname content hb).mono
    (fun _ _ hb' => hP.requestDiagnostics _ _ hb') (fun _ _ h => h)

theorem reanalyze (filenames : List String) (delay : Nat) (hb : P b) :
    Ends (Room.reanalyze filenames delay) b (fun _ => P) fun _ => P := by
  unfold Room.reanalyze
  simp only [ends_bind]
  refine (hP.start hb).mono (fun _ b₁ hb₁ => ?_) (fun _ _ h => h)
  refine (hP.ends (m := .reload) (fun _ => rfl) (List.forall_mem_nil _) hb₁).mono
    (fun _ b₂ hb₂ => ?_) (fun _ _ h => h)
  exact hP.requestDiagnostics _ _ hb₂

/-- Calls that ask for something. -/
theorem inquires {α : Type} {c : Call α} (hc : Room.Inquires c) (hb : P b) :
    Ends c b (fun _ => P) fun _ => P := by
  cases hc with
  | nothing => exact hb
  | start => exact hP.start hb
  | diagnostics filenames delay => exact hP.requestDiagnostics filenames delay hb
  | reanalyze filenames delay => exact hP.reanalyze filenames delay hb
  | navigate navigation filename offset =>
      exact hP.ends (m := .navigate navigation filename offset) (fun _ => rfl) nofun hb

end Closed

theorem Closed.and {names : Set String} {P Q : Bridge → Prop} (hP : Closed names P)
    (hQ : Closed names Q) : Closed names fun b => P b ∧ Q b where
  play := fun b hb m hm => ⟨hP.play b hb.1 m hm, hQ.play b hb.2 m hm⟩
  renew := fun b hb => ⟨hP.renew b hb.1, hQ.renew b hb.2⟩

/-- A faithful bridge stays faithful. -/
theorem closed_faithful (names : Set String) : Closed names (Faithful names) where
  play := fun _ hb m hm => faithful_play hb m hm
  renew := fun b hb => by
    refine ⟨hb.apart, fun f c hfind => ?_, List.nodup_nil, fun g hg => ?_⟩
    · simp [Bridge.renew] at hfind
    · cases hg

/-- A bridge that keeps to a brief goes on keeping to it. -/
theorem Brief.closed {t : Brief} (ht : t.Speaks) : Closed t.names t.Holds where
  play := fun _ hb m hm => ht.invariant.play hb m hm
  renew := fun _ hb => hb.renew

end Bridge

/-! ## Actors -/

/-- The actor of a session that comes from `s₀`, with a property of its bridge. -/
structure Actor.Serves (s₀ : Session) (P : Bridge → Prop) (a : Actor) : Prop where
  session : s₀.ComesFrom a.session
  ledger : P a.ledger

namespace Actor

variable {s₀ : Session} {P : Bridge → Prop} {a a' : Actor}

theorem ledger_of_bridge {b : Bridge} (h : a.bridge = some b) : a.ledger = b := by
  unfold ledger
  rw [h]
  rfl

theorem ledger_of_none (h : a.bridge = none) : a.ledger = a.former := by
  unfold ledger
  rw [h]
  rfl

/-- Only the session and the bridges matter. -/
theorem Serves.of_same (h : a.Serves s₀ P) (hsession : a'.session = a.session)
    (hbridge : a'.bridge = a.bridge) (hformer : a'.former = a.former) : a'.Serves s₀ P := by
  have hledger : a'.ledger = a.ledger := by
    unfold Actor.ledger
    rw [hbridge, hformer]
  exact ⟨hsession ▸ h.session, hledger ▸ h.ledger⟩

theorem Serves.bridge (h : a.Serves s₀ P) {b : Bridge} (hbridge : a.bridge = some b) : P b :=
  ledger_of_bridge hbridge ▸ h.ledger

end Actor

namespace Room

variable {s₀ : Session} {P : Bridge → Prop} {r r' : Room}

/-- A call that keeps the property, whether it fails or not. -/
theorem call_serves {α : Type} {c : Call α} (h : r.actor.Serves s₀ P)
    (hcall : ∀ b, P b → Ends c b (fun _ => P) fun _ => P) : (r.call c).2.actor.Serves s₀ P := by
  rcases call_cases fun b hbridge => hcall b (h.bridge hbridge) with
    ⟨_, heq⟩ | ⟨_, b', hb', heq⟩ | ⟨e, b', hb', heq⟩
  · rw [heq]
    exact h
  · rw [heq]
    exact ⟨h.session, hb'⟩
  · rw [heq]
    exact ⟨h.session, hb'⟩

theorem inform_serves {c : Call Unit} (h : r.actor.Serves s₀ P)
    (hc : ∀ b, P b → Ends c b (fun _ => P) fun _ => P) : (r.inform c).actor.Serves s₀ P := by
  have hcall := call_serves h hc
  unfold inform
  split
  · exact h
  · split
    · next r₁ heq =>
        rw [heq] at hcall
        exact hcall
    · next e r₁ heq =>
        rw [heq] at hcall
        exact hcall.of_same rfl rfl rfl

theorem follow_serves (h : r.actor.Serves s₀ P) (cell : Cell) {c : CodeCell → Call Unit}
    (hc : ∀ code, cell = .code code → ∀ b, P b → Ends (c code) b (fun _ => P) fun _ => P) :
    (r.follow cell c).actor.Serves s₀ P := by
  cases cell with
  | code code => exact inform_serves h (hc code rfl)
  | _ => exact h

theorem setStatus_serves (h : r.actor.Serves s₀ P) (cell : CellId) (status : CellStatus) :
    (r.setStatus cell status).actor.Serves s₀ P := by
  rcases setStatus_cases r cell status with ⟨_, heq⟩ | ⟨_, heq⟩
  · rw [heq]
    exact ⟨h.session.withStatus cell status, h.ledger⟩
  · rw [heq]
    exact h

theorem ended_serves (h : r.actor.Serves s₀ P) (cell : CellId) :
    (r.ended cell).actor.Serves s₀ P := by
  refine setStatus_serves ?_ cell .idle
  exact h.of_same rfl rfl rfl

theorem ensureBridge_serves (h : r.actor.Serves s₀ P) (hrenew : ∀ b, P b → P b.renew) :
    r.ensureBridge.actor.Serves s₀ P := by
  unfold ensureBridge
  split
  · exact h
  · next hnone =>
      exact ⟨h.session, hrenew _ (Actor.ledger_of_none hnone ▸ h.ledger)⟩

theorem freshen_serves (h : r.actor.Serves s₀ P)
    (hadopt : ∀ wanted : List (String × String), (∀ w ∈ wanted, w.1 ∈ s₀.possibleNames) →
      ∀ b, P b → Ends (Bridge.adopt wanted) b (fun _ => P) fun _ => P) :
    r.freshen.2.actor.Serves s₀ P := by
  have hsources : ∀ w ∈ r.actor.session.sources, w.1 ∈ s₀.possibleNames := fun w hw =>
    h.session.names _ (Session.fst_mem_filenames_of_mem_sources hw)
  have hcall := call_serves h (hadopt _ hsources)
  unfold freshen
  split
  · split
    · next r₁ heq =>
        rw [heq] at hcall
        exact hcall.of_same rfl rfl rfl
    · next e r₁ heq =>
        rw [heq] at hcall
        exact hcall
  · exact h

variable (hP : Bridge.Closed s₀.possibleNames P)

include hP

theorem dismissBridge_serves (h : r.actor.Serves s₀ P) :
    r.dismissBridge.actor.Serves s₀ P := by
  have hcall := call_serves h fun b hb => hP.ends (m := .shutdown) (fun _ => rfl) nofun hb
  unfold dismissBridge
  simp only
  split
  · next b hbridge => exact ⟨hcall.session, hcall.bridge hbridge⟩
  · exact hcall

theorem PlainChange.serves (hchange : PlainChange r r') (h : r.actor.Serves s₀ P) :
    r'.actor.Serves s₀ P := by
  cases hchange with
  | created given cell index session haccept hinsert =>
      have hsession := h.session.insert hinsert (fits_of_accept haccept)
      have hfirst : ((r.withSession session).persist (session.writing cell)).actor.Serves s₀ P :=
        ⟨hsession, h.ledger⟩
      rw [Room.created, actor_broadcast]
      refine follow_serves hfirst cell fun code hcode b hb => hP.openFile ?_ _ hb
      have hfits := fits_of_accept haccept code (congrArg Cell.code? hcode)
      exact h.session.possible hfits.trimmed hfits.checked
  | renamed code given old session hcheck hfind hne hreplace =>
      have htrimmed := Filename.trim_trim given
      have hchecked := (Filename.check_trim given _).mpr hcheck
      have hsession := h.session.rename htrimmed hchecked hreplace
      let written := session.writing (.code { code with filename := Text.trim given })
      have hfirst : (((r.withSession session).persist written).persist
          (session.removing code.filename)).actor.Serves s₀ P := by
        rw [actor_persist, actor_persist]
        exact ⟨hsession, h.ledger⟩
      rw [Room.renamed, actor_broadcast]
      refine inform_serves hfirst fun b hb => hP.rename _ ?_ _ hb
      exact h.session.possible htrimmed hchecked
  | deleted id cell session hremove =>
      have hstopped : ((r.withSession session).stop id).actor.Serves s₀ P := by
        rw [actor_stop]
        exact ⟨h.session.remove hremove, h.ledger⟩
      rw [Room.deleted, actor_broadcast]
      cases cell with
      | code code =>
          rw [discard, actor_persist]
          exact inform_serves hstopped fun b hb => hP.closeFile code.filename hb
      | _ => exact hstopped
  | edited id cell source hfind =>
      let session := r.actor.session.update id (·.withSource source)
      have hfirst : ((r.withSession session).persist
          (session.writing (cell.withSource source))).actor.Serves s₀ P :=
        ⟨h.session.withSource id source, h.ledger⟩
      rw [Room.edited, actor_broadcast]
      refine follow_serves hfirst _ fun code hcode b hb => hP.resync ?_ _ _ hb
      -- the cell has had this filename before
      cases cell with
      | code code₀ =>
          obtain rfl := Cell.code.inj hcode
          refine h.session.names code₀.filename (List.mem_map.mpr ⟨code₀, ?_, rfl⟩)
          exact List.mem_filterMap.mpr ⟨_, List.mem_of_find?_eq_some hfind, rfl⟩
      | _ => cases hcode
  | refreshed manifest source hfind hread =>
      exact ⟨h.session.withSource manifest.id source, h.ledger⟩
  | spawned cell program args pid hfree hspawn hknown =>
      refine setStatus_serves ?_ cell .running
      exact h.of_same rfl rfl rfl
  | unspawned cell failure hfree => exact setStatus_serves h cell .idle
  | ensured => exact ensureBridge_serves h hP.renew
  | freshened => exact freshen_serves h fun _ hwanted _ hb => hP.adopt hwanted hb
  | called c hc => exact call_serves h fun b hb => hP.inquires hc hb
  | dismissed => exact dismissBridge_serves hP h
  | settled hnone => exact h.of_same rfl rfl rfl
  | reported b report rest hbridge hreports =>
      have hb := hP.play b (h.bridge hbridge) .hear (List.forall_mem_nil _)
      simp only [Bridge.play, hreports] at hb
      exact ⟨h.session, hb⟩
  | _ => exact h

theorem Change.serves (hchange : Change r r') (h : r.actor.Serves s₀ P) :
    r'.actor.Serves s₀ P := by
  cases hchange with
  | plain hplain => exact hplain.serves hP h
  | noticed notice haside => exact h
  | spawned cell program args purpose pid hfree hspawn hknown =>
      refine setStatus_serves ?_ cell .running
      exact h.of_same rfl rfl rfl
  | awaited inquiry => exact h.of_same rfl rfl rfl

end Room

/-! ## Runs -/

namespace Site

variable {s₀ : Session} {P : Bridge → Prop} {s s' : Site}

theorem withLedger_serves (h : s.actor.Serves s₀ P) {b : Bridge} (hb : P b) :
    (s.withLedger b).actor.Serves s₀ P := by
  refine ⟨?_, ?_⟩
  · rw [session_withLedger]
    exact h.session
  · exact (Actor.ledger_withLedger s.actor b).symm ▸ hb

variable (hP : Bridge.Closed s₀.possibleNames P)

include hP

theorem Turn.serves (hturn : s.Turn s') (h : s.actor.Serves s₀ P) : s'.actor.Serves s₀ P := by
  have hpost : ∀ (s : Site) letter, s.actor.Serves s₀ P → (s.post letter).actor.Serves s₀ P := by
    intro s letter h
    rwa [actor_post]
  cases hturn with
  | posted letter _ => exact hpost s letter h
  | worked letter rest _ _ =>
      exact Room.receive_preserves (P := fun r => r.actor.Serves s₀ P)
        (fun _ _ hchange hr => hchange.serves hP hr)
        (fun _ cell hr => Room.ended_serves hr cell) h letter
  | heard _ =>
      exact (Room.hearNext_changes s.room).preserves (P := fun r => r.actor.Serves s₀ P)
        (fun _ _ hchange hr => hchange.serves hP hr) h
  | concluded index inquiry letter _ _ => exact hpost _ letter (h.of_same rfl rfl rfl)
  | happened incident =>
      exact withLedger_serves h (hP.play _ h.ledger (.happens incident) nofun)
  | planned hindrance launches incidents =>
      exact withLedger_serves h (hP.play _ h.ledger (.plan hindrance launches incidents) nofun)
  | passed generation w info _ _ => exact hpost _ _ h
  | _ => exact h

/-- What every move and every renewal keep holds in every run. -/
theorem run_serves (h : s.actor.Serves s₀ P) (events : List Event) :
    (s.run events).actor.Serves s₀ P :=
  run_invariant (P := fun s => s.actor.Serves s₀ P) (fun _ _ hturn h => hturn.serves hP h)
    events h

omit hP in
theorem opened_serves (facilities : Facilities) (spawner : Spawner) (disk : Disk)
    (supervisor : Supervisor) (session : Session)
    (hnew : P (.new facilities.service session.dir)) :
    (opened facilities spawner disk supervisor session).actor.Serves session P :=
  ⟨Session.ComesFrom.refl session, hnew⟩

omit hP in
/-- The session of an actor comes from the one that was opened. -/
theorem run_comesFrom (facilities : Facilities) (spawner : Spawner) (disk : Disk)
    (supervisor : Supervisor) (session : Session) (events : List Event) :
    session.ComesFrom
      ((opened facilities spawner disk supervisor session).run events).actor.session := by
  have hclosed : Bridge.Closed session.possibleNames fun _ => True :=
    ⟨fun _ _ _ _ => trivial, fun _ _ => trivial⟩
  exact (run_serves hclosed
    (opened_serves facilities spawner disk supervisor session trivial) events).session

end Site
end Notebook
