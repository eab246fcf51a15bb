import Notebook.Proofs.Actor.Filing
import Notebook.Proofs.Actor.Serving
import Notebook.Proofs.Actor.WellFormed
import Notebook.Proofs.Session.Copies
import Notebook.Proofs.Text.Bytes

/-!
# The disk beside an actor

An actor lets the disk follow every edit of its session.  As long as the deeds come off and
nobody else writes to its files, the disk keeps a copy of every code cell and of the manifest,
former files are gone, and everything else is as others have left it: `Session.Stored` is an
invariant.  Where a deed fails, the disk falls behind; but before a cell is run its file is
written anew, and the run does not come about unless this succeeds.

* `Room.Filed.stored`: what a letter comes to, if its deeds come off.
* `Room.Filed.spawned_current`: what a runner gets, even if earlier deeds have not come off.
* `Site.run_stored`: the invariant in a run.
* `Site.disk_mirrors_cells`: what it says, and what holds of every run of a cell.
-/

set_option autoImplicit false

namespace Notebook

open Disk
open FileDeed (Succeed)

/-- The deeds that an effect tries. -/
def Effect.deeds : Effect → List FileDeed
  | .files deeds => deeds
  | _ => []

theorem Effect.flatMap_deeds (effects : List Effect) :
    (effects.filter isFiling).flatMap deeds = effects.flatMap deeds := by
  induction effects with
  | nil => rfl
  | cons e rest ih =>
      rw [List.filter_cons, List.flatMap_cons]
      split
      · rw [List.flatMap_cons, ih]
      · next h =>
          have hnone : e.deeds = [] := by
            cases e with
            | files deeds => exact absurd rfl h
            | _ => rfl
          rw [ih, hnone, List.nil_append]

namespace Session

variable {s s' : Session} {d d' left : Disk} {had : Set String}

@[simp]
theorem copies_calmed (s : Session) : s.calmed.copies = s.copies := by
  have hcopy : s.calmed.copy? ∘ (·.withStatus .idle) = s.copy? := by
    funext c
    cases c <;> rfl
  simp only [copies, calmed, List.filterMap_map]
  exact congrArg (s.cells.filterMap ·) hcopy

@[simp]
theorem filenames_calmed (s : Session) : s.calmed.filenames = s.filenames := by
  simp only [filenames, codeCells, calmed, List.filterMap_map, List.map_filterMap]
  refine congrArg (s.cells.filterMap ·) ?_
  funext c
  cases c <;> rfl

/-- Statuses are not stored. -/
theorem Stored.of_calmed (h : s.Stored d (had ∪ {path | path ∈ s.paths}) left)
    (hcalmed : s'.calmed = s.calmed) : s'.Stored d (had ∪ {path | path ∈ s'.paths}) left := by
  have hcopies : s'.copies = s.copies := by
    rw [← copies_calmed, hcalmed, copies_calmed]
  have hfilenames : s'.filenames = s.filenames := by
    rw [← filenames_calmed, hcalmed, filenames_calmed]
  have hpaths : s'.paths = s.paths := congrArg (List.map Prod.fst) hcopies
  rw [hpaths]
  have hdir : s'.calmed.dir = s.calmed.dir := by
    rw [hcalmed]
  exact h.congr hdir hcopies hfilenames

/-- A code cell is the same but for its status. -/
theorem code_of_calmed (h : s'.calmed = s.calmed) {id : CellId} {code : CodeCell}
    (hfind : s.cell? id = some (.code code)) :
    ∃ code', s'.cell? id = some (.code code') ∧ code'.filename = code.filename ∧
      code'.language = code.language ∧ code'.source = code.source := by
  have hcell := cell?_calmed s' id
  rw [h, cell?_calmed, hfind] at hcell
  obtain ⟨c, hc, hsame⟩ := Option.map_eq_some_iff.mp hcell.symm
  cases c with
  | code code' =>
      injection hsame with hsame
      injection hsame with _ hsource hfilename hlanguage
      exact ⟨code', hc, hfilename, hlanguage, hsource⟩
  | _ => cases hsame

/-- What is read as a text is the text in the file. -/
theorem read_of_manifestOn {source : String} (h : s.manifestOn d = some source) :
    d.read [] s.manifestPath = .ok source.toUTF8 := by
  unfold manifestOn Disk.readText at h
  cases hread : d.read [] s.manifestPath with
  | error e => simp [hread, bind, Except.bind, Except.toOption] at h
  | ok data =>
      simp only [hread, bind, Except.bind] at h
      cases htext : String.fromUTF8? data with
      | none => simp [htext, Except.toOption] at h
      | some text =>
          simp only [htext, Except.toOption, Option.some.injEq] at h
          rw [← h, Text.toUTF8_of_fromUTF8? htext]

end Session

namespace Room

open Session

variable {r r' : Room} {had : Set String} {left : Disk}

/-- The deeds that a letter has come to have come off. -/
theorem succeed_of_filing (deeds : List FileDeed)
    (hok : (FileDeed.runAll r.disk (r'.effects.flatMap Effect.deeds)).1 = none)
    (hdeeds : r'.filing.effects.flatMap Effect.deeds = deeds) :
    Succeed r.disk deeds (FileDeed.runAll r.disk deeds).2 := by
  have hfiled : r'.effects.flatMap Effect.deeds = deeds :=
    (Effect.flatMap_deeds r'.effects).symm.trans hdeeds
  rw [hfiled] at hok
  exact Prod.ext hok rfl

/-- An edit with deeds that have come off. -/
theorem succeed_of_persist (session : Session) {deeds : List FileDeed} (heffects : r.effects = [])
    (hok : (FileDeed.runAll r.disk (r'.effects.flatMap Effect.deeds)).1 = none)
    (h : r'.filing = ((r.withSession session).persist deeds).filing) :
    r'.actor.session.calmed = session.calmed ∧ Succeed r.disk deeds r'.disk := by
  rw [filing_persist] at h
  have hdisk : r'.disk = (FileDeed.runAll r.disk deeds).2 := congrArg Filing.disk h
  have hdeeds : r'.filing.effects.flatMap Effect.deeds = deeds := by
    rw [h]
    simp [filing, withSession, heffects, Effect.deeds]
  exact ⟨congrArg Filing.session h, hdisk ▸ succeed_of_filing deeds hok hdeeds⟩

/-- An edit with two batches of deeds that have come off. -/
theorem succeed_of_persist_persist (session : Session) {written removed : List FileDeed}
    (heffects : r.effects = [])
    (hok : (FileDeed.runAll r.disk (r'.effects.flatMap Effect.deeds)).1 = none)
    (h : r'.filing = (((r.withSession session).persist written).persist removed).filing) :
    r'.actor.session.calmed = session.calmed ∧
      ∃ d₁, Succeed r.disk written d₁ ∧ Succeed d₁ removed r'.disk := by
  rw [filing_persist, filing_persist, persist_eq] at h
  have hdisk : r'.disk =
      (FileDeed.runAll (FileDeed.runAll r.disk written).2 removed).2 := congrArg Filing.disk h
  have hdeeds : r'.filing.effects.flatMap Effect.deeds = written ++ removed := by
    rw [h]
    simp [filing, withSession, heffects, Effect.deeds]
  obtain ⟨d₁, hwrite, hremove⟩ :=
    FileDeed.succeed_append_iff.mp (succeed_of_filing (written ++ removed) hok hdeeds)
  refine ⟨congrArg Filing.session h, d₁, hwrite, ?_⟩
  -- the disk that the second batch has found is that of the first
  rw [show FileDeed.runAll r.disk written = (none, d₁) from hwrite] at hdisk
  have hnone : (FileDeed.runAll d₁ removed).1 = none := congrArg Prod.fst hremove
  exact Prod.ext hnone hdisk.symm

/-- If all its deeds come off, a letter leaves the disk in step with the session. -/
theorem Filed.stored (h : Filed r r') (heffects : r.effects = [])
    (hs : r.actor.session.WellFormed) (hstored : r.actor.session.Stored r.disk had left)
    (hok : (FileDeed.runAll r.disk (r'.effects.flatMap Effect.deeds)).1 = none) :
    r'.actor.session.Stored r'.disk (had ∪ {path | path ∈ r'.actor.session.paths}) left := by
  cases h with
  | kept h =>
      have hdisk : r'.disk = r.disk := congrArg Filing.disk h
      rw [hdisk]
      exact hstored.self.of_calmed (congrArg Filing.session h)
  | wrote cell hcell h =>
      obtain ⟨hcalmed, hdeeds⟩ := succeed_of_persist r.actor.session heffects hok h
      exact (hstored.rewrite hs hcell hdeeds).of_calmed hcalmed
  | ran code program args generation pid hfind hcommand hwritten h =>
      rw [filing_persist_ran] at h
      have hdisk : r'.disk = (FileDeed.runAll r.disk (r.actor.session.writing (.code code))).2 :=
        congrArg Filing.disk h
      have hdeeds : Succeed r.disk (r.actor.session.writing (.code code)) r'.disk :=
        Prod.ext hwritten hdisk.symm
      exact (hstored.rewrite hs (List.mem_of_find?_eq_some hfind) hdeeds).of_calmed
        (congrArg Filing.session h)
  | created given cell index session haccept hinsert h =>
      obtain ⟨hcalmed, hdeeds⟩ := succeed_of_persist _ heffects hok h
      have hs' := hs.insert hinsert (isManifest_of_accept haccept) (fits_of_accept haccept)
      obtain ⟨-, -, before, after, hcells, rfl⟩ := of_insert_eq_ok hinsert
      exact (hstored.write none hs hcells hs' (fun _ he => by cases he) hdeeds).of_calmed hcalmed
  | renamed code given old session hcheck hfind hne hreplace h =>
      obtain ⟨hcalmed, d₁, hwrite, hremove⟩ := succeed_of_persist_persist _ heffects hok h
      have hs' := hs.rename hfind (Filename.trim_trim given)
        ((Filename.check_trim given _).mpr hcheck) hreplace
      obtain ⟨hholder, before, after, hsplit, rfl⟩ := of_replace_eq_ok hreplace
      obtain rfl : Cell.code code = old := Option.some.inj (hfind.symm.trans hsplit.cell?_eq)
      exact (hstored.rename hs hsplit.cells hs' hne hwrite hremove).of_calmed hcalmed
  | deleted id code session hremove h =>
      obtain ⟨hcalmed, hdeeds⟩ := succeed_of_persist _ heffects hok h
      have hs' := hs.remove hremove
      obtain ⟨before, after, hsplit, rfl⟩ := of_remove_eq_ok hremove
      exact (hstored.remove hs hsplit.cells hs' hdeeds).of_calmed hcalmed
  | dropped id cell session hcell hremove h =>
      have hs' := hs.remove hremove
      obtain ⟨before, after, hsplit, rfl⟩ := of_remove_eq_ok hremove
      have hdisk : r'.disk = r.disk := congrArg Filing.disk h
      rw [hdisk]
      exact (hstored.drop hs hsplit.cells hcell hs').of_calmed (congrArg Filing.session h)
  | edited id cell source hfind h =>
      obtain ⟨hcalmed, hdeeds⟩ := succeed_of_persist _ heffects hok h
      have hs' := hs.withSource id source
      obtain ⟨before, after, hsplit⟩ := split_of_cell? hfind
      rw [hsplit.update_eq] at hcalmed hdeeds hs'
      refine (hstored.write (some cell) hs hsplit.cells hs' ?_ hdeeds).of_calmed hcalmed
      rintro e he
      rcases copy?_cases he with ⟨code, rfl, rfl⟩ | ⟨manifest, rfl, rfl⟩
      · exact ⟨_, rfl, rfl⟩
      · exact ⟨_, rfl, rfl⟩
  | refreshed manifest source hfind hread h =>
      have hs' := hs.withSource manifest.id source
      obtain ⟨before, after, hsplit⟩ := split_of_cell? hfind
      have hdisk : r'.disk = r.disk := congrArg Filing.disk h
      have hcalmed : r'.actor.session.calmed =
          (r.actor.session.update manifest.id (·.withSource source)).calmed :=
        congrArg Filing.session h
      rw [hsplit.update_eq] at hcalmed hs'
      rw [hdisk]
      exact (hstored.refresh hs hsplit.cells hs' (read_of_manifestOn hread)).of_calmed hcalmed

/-- When a cell is run, its file holds its source, and the runner gets the path of this file. -/
theorem Filed.spawned_current (h : Filed r r') (heffects : r.effects = []) {generation pid : Nat}
    {request : RunRequest} (hspawned : .spawned generation pid request .cell ∈ r'.effects) :
    ∃ code args, r'.actor.session.cell? request.key.cell = some (.code code) ∧
      r'.facilities.runner.command code.language = request.program :: args ∧
      request.args = args ++ [r'.actor.session.pathFor code.filename] ∧
      r'.disk.read [] (r'.actor.session.pathFor code.filename) = .ok code.source.toUTF8 := by
  have hnone : r.filing.effects = [] := by
    simp [filing, heffects]
  have hsession : ∀ session, (r.withSession session).filing.effects = [] := fun _ => hnone
  have hmem : .spawned generation pid request .cell ∈ r'.filing.effects :=
    List.mem_filter.mpr ⟨hspawned, rfl⟩
  have hfacilities := h.facilities
  cases h with
  | ran code program args generation' pid' hfind hcommand hwritten h =>
      rw [filing_persist_ran] at h
      have hcalmed : r'.actor.session.calmed = r.actor.session.calmed :=
        congrArg Filing.session h
      have hpath : ∀ f, r'.actor.session.pathFor f = r.actor.session.pathFor f := by
        intro f
        change r'.actor.session.calmed.pathFor f = _
        rw [hcalmed]
        rfl
      have hdisk : r'.disk = (FileDeed.runAll r.disk (r.actor.session.writing (.code code))).2 :=
        congrArg Filing.disk h
      obtain ⟨rfl, rfl, rfl⟩ : generation = generation' ∧ pid = pid' ∧
          request = r.runRequest code.id program
            (args ++ [r.actor.session.pathFor code.filename]) := by
        simpa [h, hnone] using hmem
      -- the cell is the one that was written, but for its status
      obtain ⟨code', hcode', hfilename, hlanguage, hsource⟩ := code_of_calmed hcalmed hfind
      refine ⟨code', args, hcode', ?_, ?_, ?_⟩
      · rw [hfacilities, hlanguage]
        exact hcommand
      · rw [hpath, hfilename]
        rfl
      · rw [hpath, hfilename, hsource]
        have hdeeds : Succeed r.disk (r.actor.session.writing (.code code)) r'.disk :=
          Prod.ext hwritten hdisk.symm
        have hcopy : r.actor.session.copy? (.code code) =
            some (r.actor.session.pathFor code.filename, code.source) := rfl
        have hread := read_of_writing hcopy hdeeds
        exact hread
  | kept h => simp [h, hnone] at hmem
  | wrote cell hcell h => simp [h, filing_persist, hnone] at hmem
  | created given cell index session haccept hinsert h =>
      simp [h, filing_persist, hsession] at hmem
  | renamed code given old session hcheck hfind hne hreplace h =>
      simp [h, filing_persist, hsession] at hmem
  | deleted id code session hremove h => simp [h, filing_persist, hsession] at hmem
  | dropped id cell session hcell hremove h => simp [h, hsession] at hmem
  | edited id cell source hfind h => simp [h, filing_persist, hsession] at hmem
  | refreshed manifest source hfind hread h => simp [h, hsession] at hmem

end Room

/-! ## Somebody else's writing -/

namespace Session

/-- Somebody else's writing has left alone what a session keeps and has kept on disk. -/
structure SparedBy (s : Session) (had : Set String) (d d' : Disk) : Prop where
  dir : d.Leads s.dir → d'.Leads s.dir
  sourceDir : s.filenames ≠ [] → d.Leads s.sourceDir → d'.Leads s.sourceDir
  nodes : ∀ path ∈ had, d'.node? (placeOf path) = d.node? (placeOf path)

/-- If the files are spared, they are still in step, and all else is as it was left now. -/
theorem Stored.disturb {s : Session} {had : Set String} {d d' left : Disk}
    (h : s.Stored d had left) (hs : s.WellFormed) (hspared : s.SparedBy had d d') :
    s.Stored d' had d' := by
  have hdir' := hspared.dir h.dir
  refine ⟨hdir', fun hne => hspared.sourceDir hne (h.sourceDir hne), fun e he => ?_,
    fun path hpath hmanifest hnot => ?_, fun _ _ _ => rfl, h.current, h.proper⟩
  · obtain ⟨hlocate, hnode, hends⟩ := read_eq_ok_iff.mp (h.read e he)
    have hkept := hspared.nodes e.1 (h.current _ (List.mem_map_of_mem he))
    refine read_eq_ok_iff.mpr ⟨?_, hkept ▸ hnode, hends⟩
    obtain ⟨c, hc, hcopy⟩ := List.mem_filterMap.mp he
    rcases copy?_cases hcopy with ⟨code, rfl, rfl⟩ | ⟨manifest, rfl, rfl⟩
    · have hmem : code.filename ∈ s.filenames :=
        List.mem_map_of_mem (List.mem_filterMap.mpr ⟨_, hc, rfl⟩)
      have hne := List.ne_nil_of_mem hmem
      have hname := (hs.ordinary hmem).isName List.mem_cons_self
      have hsource := h.sourceDir hne
      rw [hsource.locate_congr (hspared.sourceDir hne hsource) (s.components_pathFor hname)]
      exact hlocate
    · rw [h.dir.locate_congr hdir' s.components_manifestPath]
      exact hlocate
  · rw [hspared.nodes path hpath]
    exact h.gone path hpath hmanifest hnot

end Session

/-! ## Runs -/

namespace Site

/-- The paths of all copies that a run has come by. -/
def had (s : Site) (events : List Event) : Set String :=
  {path | ∃ before, before <+: events ∧ path ∈ (s.run before).actor.session.paths}

/-- The disk as others have left it. -/
def left (disk : Disk) (events : List Event) : Disk :=
  events.foldl (fun disk e => match e with
    | .disturb disk' => disk'
    | _ => disk) disk

/-- All deeds come off when something happens, and somebody else's writing spares the files. -/
def GoesWell (s : Site) (had : Set String) : Event → Prop
  | .disturb disk => s.actor.session.SparedBy had s.disk disk
  | e => (FileDeed.runAll s.disk ((s.effects [e]).flatMap Effect.deeds)).1 = none

/-- Every event goes well. -/
def Smooth (s : Site) (events : List Event) : Prop :=
  ∀ before e, before ++ [e] <+: events → (s.run before).GoesWell (s.had before) e

variable {s : Site}

theorem goesWell_iff {had : Set String} {e : Event} (he : ∀ disk, e ≠ .disturb disk) :
    s.GoesWell had e ↔
      (FileDeed.runAll s.disk ((s.effects [e]).flatMap Effect.deeds)).1 = none := by
  cases e with
  | disturb disk => exact absurd rfl (he disk)
  | _ => exact Iff.rfl

/-- If nobody else writes, only the deeds matter. -/
theorem smooth_of_deeds {events : List Event} (hnot : ∀ e ∈ events, ∀ disk, e ≠ .disturb disk)
    (hdeeds : ∀ n (hn : n < events.length), (FileDeed.runAll (s.run (events.take n)).disk
      (((s.run (events.take n)).effects [events[n]]).flatMap Effect.deeds)).1 = none) :
    s.Smooth events := by
  rintro before e ⟨after, rfl⟩
  have hbefore := hdeeds before.length (by simp)
  rw [goesWell_iff (hnot e (by simp))]
  simpa using hbefore

theorem run_concat (s : Site) (events : List Event) (e : Event) :
    s.run (events ++ [e]) = (s.run events).step e := by
  rw [run, List.foldl_append]
  rfl

theorem had_concat (s : Site) (events : List Event) (e : Event) :
    s.had (events ++ [e]) =
      s.had events ∪ {path | path ∈ (s.run (events ++ [e])).actor.session.paths} := by
  ext path
  constructor
  · rintro ⟨before, hbefore, hpath⟩
    rcases List.prefix_concat_iff.mp hbefore with rfl | hbefore
    · exact Or.inr hpath
    · exact Or.inl ⟨before, hbefore, hpath⟩
  · rintro (⟨before, hbefore, hpath⟩ | hpath)
    · exact ⟨before, hbefore.trans (List.prefix_append _ _), hpath⟩
    · exact ⟨_, List.prefix_rfl, hpath⟩

/-- What goes well leaves the disk in step with the session. -/
theorem step_stored {had : Set String} {left : Disk} (e : Event)
    (hs : s.actor.session.WellFormed) (hstored : s.actor.session.Stored s.disk had left)
    (hgoes : s.GoesWell had e) :
    (s.step e).actor.session.Stored (s.step e).disk
      (had ∪ {path | path ∈ (s.step e).actor.session.paths}) (Site.left left [e]) := by
  by_cases hdisk : ∃ disk, e = .disturb disk
  · obtain ⟨disk, rfl⟩ := hdisk
    exact (hstored.disturb hs hgoes).self
  · have hnot : ∀ disk, e ≠ .disturb disk := fun disk he => hdisk ⟨disk, he⟩
    have hleft : Site.left left [e] = left := by
      cases e with
      | disturb disk => exact absurd rfl (hnot disk)
      | _ => rfl
    rw [hleft]
    exact (step_filed s e hnot).stored rfl hs hstored ((goesWell_iff hnot).mp hgoes)

theorem run_wellFormed (events : List Event) (hs : s.actor.session.WellFormed) :
    (s.run events).actor.session.WellFormed :=
  run_invariant (P := fun s => s.actor.session.WellFormed) (fun _ _ hturn h => hturn.wellFormed h)
    events hs

/-- As long as all goes well, the disk stays in step with the session. -/
theorem run_stored {disk : Disk} (hs : s.actor.session.WellFormed)
    (hstored : s.actor.session.Stored s.disk {path | path ∈ s.actor.session.paths} disk)
    (events : List Event) (hsmooth : s.Smooth events) :
    (s.run events).actor.session.Stored (s.run events).disk (s.had events)
      (left disk events) := by
  induction events using List.reverseRecOn with
  | nil =>
      have hhad : s.had [] = {path | path ∈ s.actor.session.paths} := by
        ext path
        simp [had, run]
      rw [hhad]
      exact hstored
  | append_singleton events e ih =>
      have hbefore := ih fun before e' h => hsmooth before e' (h.trans (List.prefix_append _ _))
      have hafter := step_stored e (run_wellFormed events hs) hbefore
        (hsmooth events e List.prefix_rfl)
      rw [← run_concat] at hafter
      rw [had_concat, left, List.foldl_append]
      exact hafter

/-- The disk mirrors the cells.  After a session was opened, as long as all deeds come off and
others spare its files, the file of every code cell holds its source and the manifest holds that
of its cell, the filenames that no cell has any more have no file, and everywhere else, the source
directory apart, the disk is as others have left it.  Whenever a cell is run, even after deeds
have failed, the path that its runner gets leads to its source. -/
theorem disk_mirrors_cells (facilities : Facilities) (spawner : Spawner) (bare disk : Disk)
    (supervisor : Supervisor) (session : Session) (hs : session.WellFormed)
    (hprepared : FileDeed.runAll bare session.preparing = (none, disk)) (events : List Event) :
    let first := opened facilities spawner disk supervisor session
    let s := first.run events
    (first.Smooth events →
      (∀ code ∈ s.actor.session.codeCells,
        s.disk.read [] (session.pathFor code.filename) = .ok code.source.toUTF8) ∧
      (∀ manifest, .manifest manifest ∈ s.actor.session.cells →
        s.disk.read [] session.manifestPath = .ok manifest.source.toUTF8) ∧
      (∀ before, before <+: events → ∀ f ∈ (first.run before).actor.session.filenames,
        f ∉ s.actor.session.filenames → s.disk.isThere [] (session.pathFor f) = false) ∧
      ∀ place, place ≠ placeOf session.sourceDir →
        (∀ path ∈ first.had events, placeOf path ≠ place) →
          s.disk.node? place = (left disk events).node? place) ∧
    ∀ e generation pid request, .spawned generation pid request .cell ∈ s.effects [e] →
      ∃ code args, (s.step e).actor.session.cell? request.key.cell = some (.code code) ∧
        facilities.runner.command code.language = request.program :: args ∧
        request.args = args ++ [session.pathFor code.filename] ∧
        (s.step e).disk.read [] (session.pathFor code.filename) = .ok code.source.toUTF8 := by
  intro first s
  have hfrom : ∀ events, session.ComesFrom (first.run events).actor.session :=
    run_comesFrom facilities spawner disk supervisor session
  have hpath : ∀ events f, (first.run events).actor.session.pathFor f = session.pathFor f :=
    fun events => (hfrom events).pathFor
  refine ⟨fun hsmooth => ?_, fun e generation pid request hspawned => ?_⟩
  · have hstored := run_stored (s := first) hs (Session.stored_of_preparing hs hprepared) events
      hsmooth
    have hwf : ∀ events, (first.run events).actor.session.WellFormed := fun events =>
      run_wellFormed events hs
    refine ⟨fun code hcode => ?_, fun manifest hmanifest => ?_, fun before hbefore f hf hnot => ?_,
      fun place hplace => ?_⟩
    · have hread := hstored.read _ (Session.copy_of_code hcode)
      rwa [hpath events] at hread
    · have hread := hstored.read _ (Session.copy_of_manifest hmanifest)
      rwa [(hfrom events).manifestPath] at hread
    · have hordinary := (hwf before).ordinary hf
      have hhad : session.pathFor f ∈ first.had events := by
        refine ⟨before, hbefore, ?_⟩
        rw [← hpath before]
        exact ((hwf before).pathFor_mem_paths_iff hordinary).mpr hf
      rw [← hpath events] at hhad ⊢
      exact hstored.isThere_eq_false (hwf events) hordinary hhad hnot
    · rw [← (hfrom events).sourceDir] at hplace
      exact hstored.others place hplace
  · have hdisk : ∀ disk, e ≠ .disturb disk := by
      rintro disk rfl
      have hnone : s.effects [.disturb disk] = [] := List.drop_length
      rw [hnone] at hspawned
      cases hspawned
    have hfacilities : (s.step e).facilities = facilities := by
      rw [← run_concat]
      exact run_facilities first _
    obtain ⟨code, args, hcell, hcommand, hargs, hread⟩ :=
      (step_filed s e hdisk).spawned_current rfl hspawned
    refine ⟨code, args, hcell, hfacilities ▸ hcommand, ?_, ?_⟩
    · rw [hargs, ← hpath (events ++ [e]), run_concat]
      rfl
    · rw [← hpath (events ++ [e]), run_concat]
      exact hread

/-- A filename is given up, given to another cell and given up again, and that cell is run. -/
theorem disk_mirrors_cells_reused :
    let session : Session := ⟨⟨"s"⟩, "/book", .typescript,
      [.code ⟨⟨"x"⟩, "1", "a.ts", .typescript, .idle⟩, .manifest ⟨⟨"p"⟩, "\x7b\x7d", .idle⟩]⟩
    let disk := (FileDeed.runAll .empty session.preparing).2
    let first := opened ⟨.standard, .standard, []⟩ (fun _ _ => .ok 7) disk (.new 16) session
    let events : List Event := [.send ⟨0⟩ (.rename ⟨"x"⟩ "b.ts"), .work,
      .send ⟨0⟩ (.create 0 (.code ⟨⟨"y"⟩, "2", "a.ts", .typescript, .idle⟩)), .work,
      .send ⟨0⟩ (.delete ⟨"x"⟩), .work, .send ⟨0⟩ (.edit ⟨"y"⟩ "3"), .work,
      .send ⟨0⟩ (.edit ⟨"p"⟩ "null"), .work, .send ⟨0⟩ (.execute ⟨"y"⟩)]
    let s := first.run events
    (session.WellFormed ∧ FileDeed.runAll .empty session.preparing = (none, disk) ∧
      first.Smooth events ∧
      .spawned 1 7 ⟨⟨⟨"s"⟩, ⟨"y"⟩⟩, "npx", ["tsx", "/book/src/a.ts"], "/book", []⟩ .cell ∈
        s.effects [.work]) ∧
    ((∀ code ∈ s.actor.session.codeCells,
        s.disk.read [] (session.pathFor code.filename) = .ok code.source.toUTF8) ∧
      (∀ manifest, .manifest manifest ∈ s.actor.session.cells →
        s.disk.read [] session.manifestPath = .ok manifest.source.toUTF8) ∧
      (∀ before, before <+: events → ∀ f ∈ (first.run before).actor.session.filenames,
        f ∉ s.actor.session.filenames → s.disk.isThere [] (session.pathFor f) = false) ∧
      ∀ place, place ≠ placeOf session.sourceDir →
        (∀ path ∈ first.had events, placeOf path ≠ place) →
          s.disk.node? place = (left disk events).node? place) ∧
    (∃ code args, (s.step .work).actor.session.cell? ⟨"y"⟩ = some (.code code) ∧
      RunnerSettings.standard.command code.language = "npx" :: args ∧
      ["tsx", "/book/src/a.ts"] = args ++ [session.pathFor code.filename] ∧
      (s.step .work).disk.read [] (session.pathFor code.filename) = .ok code.source.toUTF8) ∧
    s.actor.session.codeCells = [⟨⟨"y"⟩, "3", "a.ts", .typescript, .idle⟩] := by
  intro session disk first events s
  have hs : session.WellFormed := by decide
  have hprepared : FileDeed.runAll .empty session.preparing = (none, disk) :=
    Prod.ext (by decide +kernel) rfl
  have hsmooth : first.Smooth events :=
    smooth_of_deeds (by simp [events]) (by decide +kernel)
  have hspawned : .spawned 1 7 ⟨⟨⟨"s"⟩, ⟨"y"⟩⟩, "npx", ["tsx", "/book/src/a.ts"], "/book", []⟩
      .cell ∈ s.effects [.work] := by decide +kernel
  obtain ⟨hmirrors, hcurrent⟩ := disk_mirrors_cells ⟨.standard, .standard, []⟩
    (fun _ _ => .ok 7) .empty disk (.new 16) session hs hprepared events
  have hrun : (opened ⟨.standard, .standard, []⟩ (fun _ _ => .ok 7) disk (.new 16) session).run
      events = s := rfl
  rw [hrun] at hmirrors hcurrent
  have hkept := hmirrors hsmooth
  have hran := hcurrent .work 1 7 _ hspawned
  exact ⟨⟨hs, hprepared, hsmooth, hspawned⟩, hkept, hran, by decide +kernel⟩

end Site
end Notebook
