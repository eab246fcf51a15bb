import Notebook.Proofs.Actor.Serving
import Notebook.Proofs.Paths

/-!
# What is asked about a place

A bridge works out a position from its own record of a file, and the instance that it asks may
have been launched after the position was worked out.  The actor makes the open files right
before it asks, so that the record is the source of the cell; and the bridge is faithful, so that
an instance has been told the records before it is asked.

* `Bridge.ends_navigate_asks`: what is asked of an instance that has just been made sure of.
* `Room.navigate_asks`: the same for an actor, whose bridge may be missing or stale.
* `Site.navigation_asks_current`: so it is in every run.
* `Site.navigation_asks_other`: cells that share a filename, a name or a path spoil it.
-/

set_option autoImplicit false

namespace Notebook

open Call

/-! ## Bridges -/

namespace Bridge

/-- What a bridge may say before it asks. -/
def Brief.preparing (names : Set String) (path : String → String) (past : List Deed) : Brief where
  inOrder c := ∀ navigation path position, c ≠ .navigate navigation path position
  names
  path
  past

theorem Brief.covers_preparing (names : Set String) (path : String → String)
    (past : List Deed) : (preparing names path past).Covers where
  openFile := fun _ _ _ => nofun
  closeFile := fun _ _ => nofun
  reloadProjects := nofun
  findErrors := fun _ _ _ => nofun

/-- Since the past, at most the question `asked` was asked, and the instance had then been told
that the file has this source. -/
def Asks (past : List Deed) (navigation : Navigation) (path source : String)
    (position : Position) (b : Bridge) : Prop :=
  ∃ new, b.trace = new ++ past ∧
    ∀ later g n navigation' path' position' earlier,
      new = later ++ .queued g ⟨n, .navigate navigation' path' position'⟩ :: earlier →
        navigation' = navigation ∧ path' = path ∧ position' = position ∧
          told (earlier ++ past) g path = some source

variable {names : Set String} {path : String → String} {past : List Deed} {b : Bridge}

/-- Whoever is still preparing has not asked anything. -/
theorem Brief.Holds.asks (hb : (Brief.preparing names path past).Holds b)
    (navigation : Navigation) (file source : String) (position : Position) :
    Asks past navigation file source position b := by
  obtain ⟨deeds, hsplit, hall⟩ := hb.trace
  refine ⟨deeds, hsplit, fun later g n navigation' path' position' earlier hnew => ?_⟩
  have hmem : .queued g ⟨n, .navigate navigation' path' position'⟩ ∈ deeds :=
    hnew ▸ List.mem_append_right later List.mem_cons_self
  exact absurd rfl (hall g _ hmem navigation' path' position')

/-- An open file is asked about by its path and with a position in its record, and whoever is
asked has been told the record. -/
theorem ends_navigate_asks (hfaithful : Faithful names b)
    (hb : (Brief.preparing names path past).Holds b) (navigation : Navigation)
    {filename content : String} (hfind : b.records.find? filename = some content)
    (offset : Nat) :
    Ends (navigate navigation filename offset) b
      (fun _ => Asks past navigation (path filename) content (Position.ofOffset content offset))
      fun _ => Asks past navigation (path filename) content
        (Position.ofOffset content offset) := by
  have hcovers := Brief.covers_preparing names path past
  simp only [navigate, ends_bind, ends_get, hfind, ends_pause]
  refine ((Brief.Keeps.ensure hcovers hb).and (ends_ensure_shown hfaithful)).mono ?_
    (fun _ _ h => h.1.asks _ _ _ _)
  rintro g b₁ ⟨hb₁, -, hshows⟩
  have hpaused := hb₁.of_later (later_elapse b₁) (trace_elapse b₁)
  refine (ends_request b₁.elapse g _).mono ?_ ?_
  · rintro _ b' ⟨_, n, htrace⟩
    obtain ⟨deeds, hsplit, hall⟩ := hpaused.trace
    rw [hsplit] at htrace
    refine ⟨_ :: deeds, htrace, fun later g' n' navigation' path' position' earlier hnew => ?_⟩
    cases later with
    | nil =>
        obtain ⟨hqueued, rfl⟩ := List.cons.inj hnew
        obtain ⟨rfl, hrequest⟩ := Deed.queued.inj hqueued
        obtain ⟨-, hcommand⟩ := Request.mk.inj hrequest
        obtain ⟨rfl, rfl, rfl⟩ := Command.navigate.inj hcommand
        have hpath : b.servicePath filename = path filename := congrFun hb.path filename
        have htold : deeds ++ past = b₁.trace := hsplit.symm.trans (trace_elapse b₁)
        refine ⟨rfl, hpath, rfl, ?_⟩
        rw [htold]
        exact (hshows _ _).mpr ⟨filename, hpath, hfind⟩
    | cons first rest =>
        -- a question that was asked before would have been asked while preparing
        obtain ⟨-, hdeeds⟩ := List.cons.inj hnew
        have hmem : .queued g' ⟨n', .navigate navigation' path' position'⟩ ∈ deeds :=
          hdeeds ▸ List.mem_append_right rest List.mem_cons_self
        exact absurd rfl (hall g' _ hmem navigation' path' position')
  · rintro _ b' ⟨hlater, _, htrace⟩
    exact (hpaused.of_later hlater htrace).asks _ _ _ _

end Bridge

/-! ## Actors -/

namespace Room

open Bridge Session

variable {s₀ : Session} {r : Room}

theorem call_nothing {b : Bridge} (h : r.actor.bridge = some b) :
    r.call (pure ()) = (.ok (), r) := by
  unfold call
  rw [h]
  simp only
  obtain ⟨facilities, spawner, disk, supervisor, ⟨session, bridge, _, _, _, _⟩, effects⟩ := r
  obtain rfl : bridge = some b := h
  rfl

/-- Getting ready fails, or leaves a bridge that has the files of the code cells open. -/
theorem analyze_nothing_cases (r : Room) :
    (∃ e, r.analyze (pure ()) = (.error e, r)) ∨
    (∃ e, r.analyze (pure ()) = (.error e, r.ensureBridge.freshen.2)) ∨
    r.ensureBridge.freshen.1 = .ok () ∧
      r.analyze (pure ()) = (.ok (), r.ensureBridge.freshen.2) := by
  unfold analyze
  split
  · rcases hready : r.ensureBridge.freshen with ⟨result, r₁⟩
    cases result with
    | error e => exact Or.inr (Or.inl ⟨_, rfl⟩)
    | ok _ =>
        obtain ⟨b, hb⟩ := bridge_of_ready hready
        refine Or.inr (Or.inr ⟨rfl, ?_⟩)
        simp only [call_nothing hb]
  · exact Or.inl ⟨_, rfl⟩

/-- What is known of the bridge of an actor between two letters. -/
def Knows (s₀ : Session) (b : Bridge) : Prop :=
  Faithful s₀.possibleNames b ∧ b.servicePath = s₀.pathFor

/-- A question about a code cell names its file and a position in its source, and whoever is
asked has the file open with this source. -/
theorem navigate_asks (hserves : r.actor.Serves s₀ (Knows s₀)) (hmirrors : r.actor.Mirrors)
    (navigation : Navigation) {query : Query} {code : CodeCell}
    (hcode : (r.actor.session.cell? query.cell).bind Cell.code? = some code) :
    Asks r.actor.ledger.trace navigation (s₀.pathFor code.filename) code.source
      (Position.ofOffset code.source query.offset.toNat)
      (r.navigate navigation query).2.actor.ledger := by
  let t := Brief.preparing s₀.possibleNames s₀.pathFor r.actor.ledger.trace
  have hcovers : t.Covers := Brief.covers_preparing _ _ _
  have hheld : t.Holds r.actor.ledger :=
    ⟨hserves.ledger.2, hserves.ledger.1.within, [], rfl, nofun⟩
  have hready : r.ensureBridge.freshen.2.actor.Serves s₀
      fun b => Faithful s₀.possibleNames b ∧ t.Holds b := by
    have hfaithful := closed_faithful s₀.possibleNames
    refine freshen_serves (ensureBridge_serves ⟨hserves.session, hserves.ledger.1, hheld⟩ ?_) ?_
    · exact fun b hb => ⟨hfaithful.renew b hb.1, hb.2.renew⟩
    · exact fun wanted hwanted b hb => (hfaithful.adopt hwanted hb.1).and
        (hcovers.kept.adopt wanted hwanted hb.2)
  unfold navigate
  rw [hcode]
  simp only
  rcases analyze_nothing_cases r with ⟨e, heq⟩ | ⟨e, heq⟩ | ⟨hok, heq⟩
  · rw [heq]
    exact hheld.asks _ _ _ _
  · rw [heq]
    exact hready.ledger.2.asks _ _ _ _
  · rw [heq]
    obtain ⟨b, hbridge⟩ := bridge_of_ready (Prod.ext hok rfl)
    obtain ⟨hfaithful, hb⟩ := hready.bridge hbridge
    have hsession : r.ensureBridge.freshen.2.actor.session = r.actor.session :=
      ((Silent.ensureBridge r).trans (Silent.freshen _)).session
    -- the freshened bridge has a record of the cell, which is its source
    obtain ⟨hfresh, hstale⟩ := freshen_mirrors (ensureBridge_mirrors hmirrors)
    have hmatches := hfresh.shows b hbridge (hstale hok)
    obtain ⟨cell, hcell, hcellcode⟩ := Option.bind_eq_some_iff.mp hcode
    have hfile : code.file ∈ r.actor.session.codeFiles :=
      List.mem_filterMap.mpr ⟨cell, List.mem_of_find?_eq_some hcell, by
        rw [Cell.file?, hcellcode]
        rfl⟩
    have hfind : b.records.find? code.filename = some code.source :=
      (hmatches _ _).mpr ⟨code.id, hsession.symm ▸ hfile⟩
    rcases call_cases fun b' hb' => by
        obtain rfl := Option.some.inj (hbridge.symm.trans hb')
        exact ends_navigate_asks hfaithful hb navigation hfind query.offset.toNat with
      ⟨hnone, _⟩ | ⟨_, b', hasks, hrun⟩ | ⟨e, b', hasks, hrun⟩
    · rw [hbridge] at hnone
      cases hnone
    · simp only [hrun]
      exact hasks
    · simp only [hrun]
      exact hasks

end Room

/-! ## Runs -/

namespace Session

/-- Relative filenames have different paths, and those that clients give are relative. -/
theorem apart_of_relative (s : Session)
    (h : ∀ f ∈ s.filenames, f.toList.head? ≠ some '/') :
    Bridge.Apart s.possibleNames s.pathFor := by
  have hrelative : ∀ f ∈ s.possibleNames, f.toList.head? ≠ some '/' := by
    rintro f (hf | ⟨htrimmed, hchecked⟩)
    · exact h f hf
    · have hordinary := Filename.ordinary_of_check_slash hchecked
      rw [htrimmed] at hordinary
      exact fun hhead => hordinary.apart '/' List.mem_cons_self (List.mem_of_head? hhead)
  intro f hf f' hf' heq
  exact Bridge.servicePath_inj_of_relative (.new .standard s.dir) (hrelative f hf)
    (hrelative f' hf') heq

end Session

namespace Site

/-- Whatever is asked when this intent is handled is asked about the file of the code cell and a
position in its source, and whoever is asked has the file open with this source. -/
def AsksCurrent (s : Site) (client : ConnectionId) (navigation : Navigation) (query : Query) :
    Prop :=
  ∀ code, (s.actor.session.cell? query.cell).bind Cell.code? = some code →
    Bridge.Asks s.actor.ledger.trace navigation (s.actor.session.pathFor code.filename)
      code.source (Position.ofOffset code.source query.offset.toNat)
      (s.room.receive (.intent client (.navigate navigation query))).2.actor.ledger

/-- In every state of a session whose code cells have at the beginning distinct names and
filenames, and whose possible filenames have different paths, questions about a place are asked
about the current source. -/
theorem navigation_asks_current (facilities : Facilities) (spawner : Spawner) (disk : Disk)
    (supervisor : Supervisor) (session : Session)
    (hids : (session.codeCells.map (·.id)).Nodup) (hfilenames : session.filenames.Nodup)
    (hapart : Bridge.Apart session.possibleNames session.pathFor) (events : List Event)
    (client : ConnectionId) (navigation : Navigation) (query : Query) :
    ((opened facilities spawner disk supervisor session).run events).AsksCurrent client
      navigation query := by
  intro code hcode
  let anything : Bridge.Brief := ⟨fun _ => True, session.possibleNames, session.pathFor, []⟩
  have hanything : anything.Speaks :=
    ⟨⟨fun _ _ _ => trivial, fun _ _ => trivial, trivial, fun _ _ _ => trivial⟩,
      fun _ _ _ _ => trivial⟩
  have hnew : Bridge.Faithful session.possibleNames (.new facilities.service session.dir) ∧
      anything.Holds (.new facilities.service session.dir) :=
    ⟨Bridge.faithful_new _ _ hapart,
      rfl, fun f c hfind => by simp [Bridge.new] at hfind, [], rfl, nofun⟩
  have hserves := run_serves
    ((Bridge.closed_faithful session.possibleNames).and (Bridge.Brief.closed hanything))
    (opened_serves facilities spawner disk supervisor session hnew) events
  have hmirrors := run_mirrors
    (opened_mirrors facilities spawner disk supervisor session hids hfilenames) events
  generalize (opened facilities spawner disk supervisor session).run events = s
    at hserves hmirrors hcode ⊢
  have hpath : s.actor.session.pathFor = session.pathFor := funext hserves.session.pathFor
  have hknows : s.actor.Serves session (Room.Knows session) :=
    ⟨hserves.session, hserves.ledger.1, hserves.ledger.2.path⟩
  have hasks := Room.navigate_asks (r := s.room) hknows hmirrors navigation hcode
  rw [hpath]
  rcases Room.serve_eq s.room client (.navigate navigation query) with heq | ⟨refusal, heq⟩
  · simp only [Room.receive, heq]
    exact hasks
  · simp only [Room.receive, heq]
    exact hasks

/-- The only code cell is edited, and its service dies twice: before the edit, and before the
question.  The instance that is asked is the third, and it is told the source before. -/
theorem navigation_asks_current_relaunched :
    let session : Session := ⟨⟨"s"⟩, "/book", .typescript,
      [.code ⟨⟨"x"⟩, "1", "a.ts", .typescript, .idle⟩]⟩
    let s := (opened ⟨.standard, .standard, []⟩ (fun _ _ => .ok 7) .empty (.new 16)
      session).run [.send ⟨0⟩ .startService, .work, .happens (.dies 1),
      .send ⟨0⟩ (.edit ⟨"x"⟩ "ab\ncde"), .work, .happens (.dies 2)]
    let query : Query := ⟨⟨"q"⟩, ⟨"x"⟩, 5⟩
    (session.codeCells.map (·.id)).Nodup ∧ session.filenames.Nodup ∧
    Bridge.Apart session.possibleNames session.pathFor ∧
    s.AsksCurrent ⟨0⟩ .quickinfo query ∧
    (s.room.receive (.intent ⟨0⟩ (.navigate .quickinfo query))).2.actor.ledger.trace.take 3 =
      [.queued 3 ⟨3, .navigate .quickinfo "/book/src/a.ts" ⟨2, 3⟩⟩,
        .queued 3 ⟨2, .findErrors ["/book/src/a.ts"] 0⟩,
        .queued 3 ⟨1, .openFile "/book/src/a.ts" "ab\ncde"⟩] := by
  intro session s query
  have hapart : Bridge.Apart session.possibleNames session.pathFor :=
    session.apart_of_relative (by decide)
  exact ⟨by decide, by decide, hapart,
    navigation_asks_current ⟨.standard, .standard, []⟩ (fun _ _ => .ok 7) .empty (.new 16)
      session (by decide) (by decide) hapart _ ⟨0⟩ .quickinfo query, by decide +kernel⟩

/-- A question was asked of an instance that has been told another source. -/
theorem not_asksCurrent {s : Site} {client : ConnectionId} {navigation : Navigation}
    {query : Query} (code : CodeCell)
    (hcode : (s.actor.session.cell? query.cell).bind Cell.code? = some code) {g : Nat}
    (request : Request) (before : List Deed)
    (htrace : (s.room.receive (.intent client (.navigate navigation query))).2.actor.ledger.trace
      = .queued g request :: before ++ s.actor.ledger.trace)
    {path : String} {position : Position}
    (hrequest : request.command = .navigate navigation path position)
    (htold : Notebook.told (before ++ s.actor.ledger.trace) g path ≠ some code.source) :
    ¬s.AsksCurrent client navigation query := by
  intro h
  obtain ⟨new, hnew, hasked⟩ := h code hcode
  obtain rfl := List.append_cancel_right (hnew.symm.trans htrace)
  obtain ⟨number, command⟩ := request
  obtain rfl : command = _ := hrequest
  obtain ⟨-, rfl, -, hshown⟩ := hasked [] g number _ _ _ _ rfl
  exact htold hshown

/-- With one filename for two code cells, the service has the source of the later one; with one
name for two code cells, renaming one of them has the same effect; and a filename that is an
absolute path may be the path of another cell. -/
theorem navigation_asks_other :
    let asks (cells : List Cell) (events : List Event) : Prop :=
      ((opened ⟨.standard, .standard, []⟩ (fun _ _ => .ok 7) .empty (.new 16)
        ⟨⟨"s"⟩, "/book", .typescript, cells⟩).run events).AsksCurrent ⟨0⟩ .quickinfo
        ⟨⟨"q"⟩, ⟨"x"⟩, 0⟩
    ¬asks [.code ⟨⟨"x"⟩, "1", "a.ts", .typescript, .idle⟩,
      .code ⟨⟨"y"⟩, "2", "a.ts", .typescript, .idle⟩] [] ∧
    ¬asks [.code ⟨⟨"x"⟩, "1", "a.ts", .typescript, .idle⟩,
      .code ⟨⟨"x"⟩, "2", "b.ts", .typescript, .idle⟩]
      [.send ⟨0⟩ (.rename ⟨"x"⟩ "b.ts"), .work] ∧
    ¬asks [.code ⟨⟨"x"⟩, "1", "/book/src/a.ts", .typescript, .idle⟩]
      [.send ⟨0⟩ .startService, .work,
        .send ⟨0⟩ (.create 1 (.code ⟨⟨"y"⟩, "2", "a.ts", .typescript, .idle⟩)), .work] := by
  refine ⟨?_, ?_, ?_⟩
  · exact not_asksCurrent ⟨⟨"x"⟩, "1", "a.ts", .typescript, .idle⟩ (by decide +kernel)
      (g := 1) ⟨2, .navigate .quickinfo "/book/src/a.ts" ⟨1, 1⟩⟩
      [.queued 1 ⟨1, .openFile "/book/src/a.ts" "2"⟩, .launched 1]
      (by decide +kernel) rfl (by decide +kernel)
  · exact not_asksCurrent ⟨⟨"x"⟩, "1", "b.ts", .typescript, .idle⟩ (by decide +kernel)
      (g := 1) ⟨2, .navigate .quickinfo "/book/src/b.ts" ⟨1, 1⟩⟩
      [.queued 1 ⟨1, .openFile "/book/src/b.ts" "2"⟩, .launched 1]
      (by decide +kernel) rfl (by decide +kernel)
  · exact not_asksCurrent ⟨⟨"x"⟩, "1", "/book/src/a.ts", .typescript, .idle⟩
      (by decide +kernel) (g := 1)
      ⟨3, .navigate .quickinfo "/book/src/a.ts" ⟨1, 1⟩⟩ []
      (by decide +kernel) rfl (by decide +kernel)

end Site
end Notebook
