import Notebook.Proofs.Service.Invariants

/-!
# What a bridge says

Calls queue requests about files by their service paths.  A `Brief` fixes which commands
are in order, the filenames that may get a record, their service paths, and the trace that
is there already.  `Brief.Holds` says that a bridge has kept to the brief: its records have
admitted filenames, its trace has only grown, and every command queued since is in order.

`Brief.Covers` lists what a brief must allow: opening, closing and checking admitted files
and the request to reload.  Then every call keeps to the brief, however it ends and
whatever the service does meanwhile.

* `Covers.kept`: every call keeps to such a brief.
* `Speaks.invariant`: the same for every move, if questions about places are in order.
-/

set_option autoImplicit false

namespace Notebook
namespace Bridge

open Call

/-- What a bridge may say from some point of its trace on. -/
structure Brief where
  /-- The commands that are in order. -/
  inOrder : Command → Prop
  /-- The filenames that may get a record. -/
  names : Set String
  path : String → String
  past : List Deed

namespace Brief

/-- A bridge that has kept to the brief. -/
structure Holds (t : Brief) (b : Bridge) : Prop where
  path : b.servicePath = t.path
  within : Within t.names b.records
  trace : ∃ deeds, b.trace = deeds ++ t.past ∧ ∀ g r, .queued g r ∈ deeds → t.inOrder r.command

/-- Whatever the calls say of admitted files is in order. -/
structure Covers (t : Brief) : Prop where
  openFile : ∀ f ∈ t.names, ∀ content, t.inOrder (.openFile (t.path f) content)
  closeFile : ∀ f ∈ t.names, t.inOrder (.closeFile (t.path f))
  reloadProjects : t.inOrder .reloadProjects
  findErrors : ∀ filenames : List String, (∀ f ∈ filenames, f ∈ t.names) →
    ∀ delay, t.inOrder (.findErrors (filenames.map t.path) delay)

/-- However the call ends, a bridge that has kept to the brief still does. -/
abbrev Keeps {α : Type} (t : Brief) (c : Call α) (b : Bridge) : Prop :=
  Call.Keeps t.Holds c b

namespace Holds

variable {t : Brief} {b b' : Bridge}

/-- Only the records, the directory and the trace matter. -/
theorem of_same (h : t.Holds b) (hdir : b'.projectDir = b.projectDir)
    (hwithin : Within t.names b'.records) (htrace : b'.trace = b.trace) : t.Holds b' := by
  refine ⟨?_, hwithin, htrace ▸ h.trace⟩
  rw [← h.path]
  funext filename
  simp only [Bridge.servicePath, sourceDir, hdir]

theorem of_later (h : t.Holds b) (hlater : Later b b') (htrace : b'.trace = b.trace) :
    t.Holds b' :=
  h.of_same hlater.projectDir (hlater.records ▸ h.within) htrace

/-- Something more was done that is in order. -/
theorem cons (h : t.Holds b) (hlater : Later b b') {deed : Deed}
    (htrace : b'.trace = deed :: b.trace)
    (hdeed : ∀ g r, deed = .queued g r → t.inOrder r.command) : t.Holds b' := by
  obtain ⟨deeds, hsplit, hall⟩ := h.trace
  refine ⟨hlater.servicePath.trans h.path, hlater.records ▸ h.within, deed :: deeds, ?_, ?_⟩
  · rw [htrace, hsplit, List.cons_append]
  · intro g r hmem
    rcases List.mem_cons.mp hmem with rfl | hmem
    · exact hdeed g r rfl
    · exact hall g r hmem

/-- An open file has an admitted filename. -/
theorem mem_names (h : t.Holds b) {filename : String} (hopen : b.isOpen filename = true) :
    filename ∈ t.names := by
  obtain ⟨content, hfind⟩ := Option.isSome_iff_exists.mp hopen
  exact h.within filename content hfind

/-- What is listed has a record. -/
theorem mem_names_of_sorted (h : t.Holds b) {r : String × String} (hr : r ∈ b.sortedRecords) :
    r.1 ∈ t.names :=
  h.mem_names ((mem_openFiles_iff b r.1).mp (List.mem_map_of_mem (f := (·.1)) hr))

end Holds

namespace Keeps

variable {α β : Type} {t : Brief} {b : Bridge}

/-- A change that nothing is said about. -/
theorem set {b' : Bridge} (hdir : b'.projectDir = b.projectDir)
    (hwithin : Within t.names b.records → Within t.names b'.records)
    (htrace : b'.trace = b.trace) : t.Keeps (MonadStateOf.set b' : Call PUnit) b :=
  fun hb => hb.of_same hdir (hwithin hb.within) htrace

theorem pause : t.Keeps Bridge.pause b :=
  fun hb => hb.of_later (later_elapse b) (trace_elapse b)

theorem notify (g : Nat) {c : Command} (hc : t.inOrder c) : t.Keeps (Bridge.notify g c) b := by
  intro hb
  refine (ends_notify b g c).mono ?_ ?_
  · rintro _ b' ⟨hlater, n, htrace⟩
    refine hb.cons hlater htrace fun g' r hqueued => ?_
    cases hqueued
    exact hc
  · rintro _ b' ⟨hlater, _, htrace⟩
    exact hb.of_later hlater htrace

theorem release (g : Nat) : t.Keeps (Bridge.release g) b := by
  intro hb
  refine (ends_release b g).mono ?_ (fun _ _ h => h.elim)
  rintro _ b' ⟨hlater, _, htrace | htrace⟩
  · exact hb.of_later hlater htrace
  · exact hb.cons hlater htrace (fun _ _ h => by cases h)

variable (ht : t.Covers)

include ht

theorem openAll (g : Nat) (records : List (String × String))
    (hnames : ∀ r ∈ records, r.1 ∈ t.names) : t.Keeps (Bridge.openAll g records) b := by
  induction records generalizing b with
  | nil => exact .pure _
  | cons r rest ih =>
      obtain ⟨filename, content⟩ := r
      refine .of_holds fun hb => ?_
      have hname := ht.openFile filename (hnames _ List.mem_cons_self) content
      rw [← hb.path] at hname
      exact .get_bind ((notify g hname).bind fun _ _ => pause.bind fun _ _ =>
        ih fun r hr => hnames r (List.mem_cons_of_mem _ hr))

/-- Every record is opened under its path, and the findings are asked for. -/
theorem launch : t.Keeps Bridge.launch b := by
  unfold Bridge.launch
  have hnext : t.Keeps Bridge.nextLaunch b := by
    unfold Bridge.nextLaunch
    refine .get_bind ?_
    split
    · exact .pure _
    · exact .bind (set rfl id rfl) fun _ _ => .pure _
  refine hnext.bind fun problem b₁ => ?_
  split
  · exact .throw _
  · refine .get_bind (.of_holds fun hb₁ => ?_)
    have hlaunched : ∀ b₂ : Bridge, t.Keeps (perform (.launched b₁.nextGeneration)) b₂ := by
      intro b₂ hb₂
      obtain ⟨deeds, hsplit, hall⟩ := hb₂.trace
      refine ⟨hb₂.path, hb₂.within, .launched b₁.nextGeneration :: deeds,
        congrArg (Deed.launched b₁.nextGeneration :: ·) hsplit, ?_⟩
      intro g r hmem
      rcases List.mem_cons.mp hmem with h | hmem
      · cases h
      · exact hall g r hmem
    have hnames : ∀ r ∈ b₁.sortedRecords, r.1 ∈ t.names := fun r hr =>
      hb₁.mem_names_of_sorted hr
    have hfind := ht.findErrors (b₁.sortedRecords.map (·.1))
      (by
        intro f hf
        obtain ⟨r, hr, rfl⟩ := List.mem_map.mp hf
        exact hnames r hr)
      b₁.settings.diagnosticsDelay.toNat
    rw [← hb₁.path, List.map_map] at hfind
    have hattach : ∀ (g : Nat) (b₂ : Bridge),
        t.Keeps (modify fun b => { b with attached := some g }) b₂ :=
      fun _ _ => set rfl id rfl
    refine .bind (set rfl id rfl) fun _ b₂ => (hlaunched b₂).bind fun _ _ =>
      (openAll ht _ _ hnames).bind fun _ _ => ?_
    split
    · exact hattach _ _
    · exact (notify _ hfind).bind fun _ _ => pause.bind fun _ _ => hattach _ _

theorem ensure : t.Keeps Bridge.ensure b :=
  keeps_ensure (fun _ hb => hb.of_same rfl hb.within rfl) (fun g _ => release g)
    (fun _ => launch ht) b

/-- A question about a place names an open file and a position in its record. -/
theorem navigate (navigation : Navigation)
    (hnavigate : ∀ f ∈ t.names, ∀ position, t.inOrder (.navigate navigation (t.path f) position))
    (filename : String) (offset : Nat) :
    t.Keeps (Bridge.navigate navigation filename offset) b := by
  unfold Bridge.navigate
  refine .get_bind (.of_holds fun hb => ?_)
  rw [hb.path]
  split
  · exact .throw _
  · next content hfind =>
      refine (ensure ht).bind fun g _ => pause.bind fun _ b₁ hb₁ => ?_
      have hquestion := hnavigate filename (hb.within filename content hfind)
        (Position.ofOffset content offset)
      refine (ends_request b₁ g _).mono ?_ ?_
      · rintro _ b' ⟨hlater, n, htrace⟩
        refine hb₁.cons hlater htrace fun g' r hqueued => ?_
        cases hqueued
        exact hquestion
      · rintro _ b' ⟨hlater, _, htrace⟩
        exact hb₁.of_later hlater htrace

end Keeps

variable {t : Brief} {b : Bridge}

/-! ## Calls -/

/-- Every call keeps to a brief that covers what calls say. -/
theorem Covers.kept (ht : t.Covers) : Kept t.names t.Holds where
  ensure _ := Keeps.ensure ht
  shutdown := keeps_shutdown (fun _ hb => hb.of_same rfl hb.within rfl)
    (fun g _ => Keeps.release g) (fun _ hb => hb.of_same rfl hb.within rfl)
  pause _ := Keeps.pause
  tellOpen _ hb f hf content g _ := Keeps.notify g (hb.path ▸ ht.openFile f hf content)
  tellClose _ hb f hopen g _ := Keeps.notify g (hb.path ▸ ht.closeFile f (hb.mem_names hopen))
  tellReload g _ := Keeps.notify g ht.reloadProjects
  tellFind _ hb filenames hopen delay g _ := Keeps.notify g
    (hb.path ▸ ht.findErrors filenames (fun f hf => hb.mem_names (hopen f hf)) delay)
  set _ _ hf content hb := hb.of_same rfl (within_set hb.within hf content) rfl
  remove _ f hb := hb.of_same rfl (within_erase hb.within f) rfl

/-! ## Moves -/

/-- A brief under which questions about places are in order, too. -/
structure Speaks (t : Brief) : Prop extends Covers t where
  navigate : ∀ f ∈ t.names, ∀ navigation position,
    t.inOrder (.navigate navigation (t.path f) position)

theorem Holds.apply (hb : t.Holds b) (incident : Incident) : t.Holds (b.apply incident) :=
  hb.of_later (later_apply b incident) (trace_apply b incident)

theorem Holds.handle (hb : t.Holds b) (report : Report) : t.Holds (b.handle report).2 := by
  obtain ⟨findings, heq⟩ := handle_eq b report
  rw [heq]
  exact hb.of_same rfl hb.within rfl

/-- Every move keeps to a brief under which questions about places are in order, too. -/
theorem Speaks.invariant (ht : t.Speaks) : Invariant t.names t.Holds where
  toKept := ht.toCovers.kept
  navigate navigation filename offset _ := Keeps.navigate ht.toCovers navigation
    (fun f hf => ht.navigate f hf navigation) filename offset
  apply _ incident hb := hb.apply incident
  reports _ _ hb := hb.of_same rfl hb.within rfl
  handle _ report hb := hb.handle report
  plan _ _ _ _ hb := hb.of_same rfl hb.within rfl

/-- A bridge in the place of one that was given up has nothing to say. -/
theorem Holds.renew (hb : t.Holds b) : t.Holds b.renew :=
  hb.of_same rfl (fun f c h => by simp [Bridge.renew] at h) rfl

end Brief
end Bridge
end Notebook
