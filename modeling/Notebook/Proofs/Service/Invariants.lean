import Notebook.Proofs.Service.Histories

/-!
# Invariants of calls

All calls are made of a few things: they see to it that an instance is attached, they tell it of
files and ask it for findings, and they change records.  What these keep is kept by every call,
however it ends and whatever the service does meanwhile.

`Kept names p` lists what has to be shown of a property for that.  Filenames that get a record
are taken from `names`, and an instance is told only of such files and of open ones, each under
its service path.  Calls that neither close a file nor stop the service need less: `Talks names p`.
An `Invariant` is kept by everything else that happens to a bridge, too.

A property that is not about what an instance is told is kept if the smallest `Steps` of calls
keep it.

* `keeps_ensure`, `keeps_shutdown`: calls that let go of an instance.
* `Talks.update`, `Kept.rename`, …: one lemma for each call.
* `Steps.talks`, `Steps.navigate`: from small steps to calls.
* `Kept.play`, `Invariant.play`, `Invariant.playAll`: the same for moves and histories.
-/

set_option autoImplicit false

namespace Notebook
namespace Bridge

open Call

variable {names : Set String} {p : Bridge → Prop} {b : Bridge}

/-! ## Instances that are let go -/

/-- What is kept by letting go of an instance and by launching one is kept by the call that
replaces an instance that has stopped. -/
theorem keeps_ensure (hdetach : ∀ b : Bridge, p b → p { b with attached := none })
    (hrelease : ∀ g b, Keeps p (release g) b) (hlaunch : ∀ b, Keeps p launch b) (b : Bridge) :
    Keeps p ensure b := by
  refine .get_bind ?_
  split
  · refine .get_bind ?_
    split
    · exact .pure _
    · exact .throw _
  · split
    · refine .bind (.set (hdetach b)) fun _ _ => (hrelease _ _).bind fun _ _ =>
        (hlaunch _).bind fun _ _ => .get_bind ?_
      split
      · exact .pure _
      · exact .throw _
    · refine (hlaunch _).bind fun _ _ => .get_bind ?_
      split
      · exact .pure _
      · exact .throw _

theorem keeps_shutdown (hdetach : ∀ b : Bridge, p b → p { b with attached := none })
    (hrelease : ∀ g b, Keeps p (release g) b)
    (hclear : ∀ b : Bridge, p b → p { b with findings := .empty }) (b : Bridge) :
    Keeps p shutdown b := by
  have hforget : ∀ b₁, Keeps p (modify fun b => { b with findings := .empty }) b₁ :=
    fun b₁ => .set (hclear b₁)
  refine .get_bind ?_
  split
  · exact .bind (.set (hdetach b)) fun _ _ => (hrelease _ _).bind fun _ _ => hforget _
  · exact hforget _

/-! ## Calls -/

/-- What has to keep a property that calls keep which take no record out. -/
structure Talks (names : Set String) (p : Bridge → Prop) : Prop where
  ensure : ∀ b, Keeps p ensure b
  pause : ∀ b, Keeps p pause b
  tellOpen : ∀ b, p b → ∀ f ∈ names, ∀ content g b',
    Keeps p (notify g (.openFile (b.servicePath f) content)) b'
  tellClose : ∀ b, p b → ∀ f, b.isOpen f = true → ∀ g b',
    Keeps p (notify g (.closeFile (b.servicePath f))) b'
  tellReload : ∀ g b, Keeps p (notify g .reloadProjects) b
  tellFind : ∀ b, p b → ∀ filenames : List String, (∀ f ∈ filenames, b.isOpen f = true) →
    ∀ delay g b', Keeps p (notify g (.findErrors (filenames.map b.servicePath) delay)) b'
  set : ∀ b, ∀ f ∈ names, ∀ content, p b → p { b with records := b.records.set f content }

/-- The parts of calls that have to keep a property. -/
structure Kept (names : Set String) (p : Bridge → Prop) : Prop extends Talks names p where
  shutdown : ∀ b, Keeps p shutdown b
  remove : ∀ b f, p b →
    p { b with records := b.records.erase f, findings := b.findings.remove f }

namespace Talks

variable (hp : Talks names p)

include hp

theorem start : Keeps p start b :=
  (hp.ensure b).bind fun _ _ => .pure _

theorem record {f : String} (hf : f ∈ names) (content : String) : Keeps p (record f content) b :=
  .set (hp.set b f hf content)

theorem update {f : String} (hf : f ∈ names) (content : String) :
    Keeps p (update f content) b := by
  refine .get_bind (.of_holds fun hb => (hp.ensure b).bind fun g _ => (hp.pause _).bind
    fun _ _ => ?_)
  have hopen : ∀ b₁, Keeps p (do
      notify g (.openFile (b.servicePath f) content)
      Bridge.pause
      Bridge.record f content) b₁ := fun _ =>
    (hp.tellOpen b hb f hf content g _).bind fun _ _ => (hp.pause _).bind fun _ _ =>
      hp.record hf content
  split
  · next hold =>
      exact (hp.tellClose b hb f hold g _).bind fun _ _ => (hp.pause _).bind fun _ _ => hopen _
  · exact hopen _

theorem openFile {f : String} (hf : f ∈ names) (content : String) :
    Keeps p (openFile f content) b := by
  refine .get_bind (.of_holds fun hb => ?_)
  split
  · exact hp.update hf content
  · exact (hp.ensure b).bind fun g _ => (hp.pause _).bind fun _ _ =>
      (hp.tellOpen b hb f hf content g _).bind fun _ _ => (hp.pause _).bind fun _ _ =>
        hp.record hf content

theorem reload : Keeps p reload b :=
  (hp.ensure b).bind fun g _ => (hp.pause _).bind fun _ _ => hp.tellReload g _

theorem requestDiagnostics (filenames : List String) (delay : Nat) :
    Keeps p (requestDiagnostics filenames delay) b := by
  refine .get_bind (.of_holds fun hb => ?_)
  simp only
  split
  · exact .pure _
  · exact (hp.ensure b).bind fun g _ => (hp.pause _).bind fun _ _ =>
      hp.tellFind b hb _ (fun f hf => (List.mem_filter.mp hf).2) delay g _

theorem resync {f : String} (hf : f ∈ names) (content : String) (filenames : List String) :
    Keeps p (resync f content filenames) b :=
  (hp.update hf content).bind fun _ _ => .get_bind (hp.requestDiagnostics _ _)

end Talks

namespace Kept

variable (hp : Kept names p)

include hp

theorem closeFile (f : String) : Keeps p (closeFile f) b := by
  refine .get_bind (.of_holds fun hb => ?_)
  split
  · next hold =>
      refine .bind (.set (hp.remove b f)) fun _ b₁ => ?_
      split
      · split
        · exact hp.tellClose b hb f hold _ _
        · exact .pure _
      · exact .pure _
  · exact .pure _

theorem rename (old : String) {new : String} (hnew : new ∈ names) (content : String) :
    Keeps p (rename old new content) b := by
  refine .get_bind (.of_holds fun hb => (hp.ensure b).bind fun g _ => (hp.pause _).bind
    fun _ _ => ?_)
  have hopen : ∀ b₁, Keeps p (do
      notify g (.openFile (b.servicePath new) content)
      Bridge.pause
      modify fun b => { b with
        records := (b.records.erase old).set new content
        findings := b.findings.remove old }
      Bridge.reload
      Bridge.pause
      let b ← get
      Bridge.requestDiagnostics b.openFiles b.settings.diagnosticsDelay.toNat) b₁ := fun _ =>
    (hp.tellOpen b hb new hnew content g _).bind fun _ _ => (hp.pause _).bind fun _ b₂ =>
      .bind (.set fun h => hp.set _ new hnew content (hp.remove b₂ old h)) fun _ _ =>
        hp.reload.bind fun _ _ => (hp.pause _).bind fun _ _ =>
          .get_bind (hp.requestDiagnostics _ _)
  split
  · next hold =>
      exact (hp.tellClose b hb old hold g _).bind fun _ _ => (hp.pause _).bind fun _ _ => hopen _
  · exact hopen _

theorem adopt (wanted : List (String × String)) (hwanted : ∀ w ∈ wanted, w.1 ∈ names) :
    Keeps p (adopt wanted) b :=
  .get_bind ((Keeps.forM _ fun f _ _ => hp.closeFile f).bind fun _ _ =>
    .forM wanted fun w hw _ => hp.openFile (hwanted w hw) w.2)

end Kept

/-! ## Small steps -/

/-- The bridge when the next instance has been launched and not been told anything. -/
def begun (b : Bridge) : Bridge :=
  { b with
    nextGeneration := b.nextGeneration + 1
    instances := b.instances.set b.nextGeneration ⟨1, true, true⟩
    findings := .empty
    trace := .launched b.nextGeneration :: b.trace }

/-- The steps of calls that have to keep a property which is not about what instances are
told. -/
structure Steps (p : Bridge → Prop) : Prop where
  pause : ∀ b, Keeps p pause b
  notify : ∀ g c b, Keeps p (notify g c) b
  request : ∀ g c b, Keeps p (request g c) b
  release : ∀ g b, Keeps p (release g) b
  begun : ∀ b : Bridge, p b → p b.begun
  launches : ∀ (b : Bridge) launches, p b → p { b with launches }
  attached : ∀ (b : Bridge) attached, p b → p { b with attached }
  set : ∀ (b : Bridge) f content, p b → p { b with records := b.records.set f content }

namespace Steps

/-- A property that stays while requests are sent need not be looked at in the middle of it. -/
theorem of_later (hlater : ∀ b b', Later b b' → p b → p b') (begun : ∀ b : Bridge, p b → p b.begun)
    (launches : ∀ (b : Bridge) launches, p b → p { b with launches })
    (attached : ∀ (b : Bridge) attached, p b → p { b with attached })
    (set : ∀ (b : Bridge) f content, p b → p { b with records := b.records.set f content }) :
    Steps p := by
  have hkeeps : ∀ {α : Type} {c : Call α} {b : Bridge},
      Ends c b (fun _ => Later b) (fun _ => Later b) → Keeps p c b :=
    fun h hb => h.mono (fun _ _ h => hlater _ _ h hb) fun _ _ h => hlater _ _ h hb
  exact {
    pause := fun b => hkeeps (later_elapse b)
    notify := fun g c b => hkeeps ((ends_notify b g c).mono (fun _ _ h => h.1) fun _ _ h => h.1)
    request := fun g c b => hkeeps ((ends_request b g c).mono (fun _ _ h => h.1) fun _ _ h => h.1)
    release := fun g b => hkeeps ((ends_release b g).mono (fun _ _ h => h.1) fun _ _ h => h.elim)
    begun, launches, attached, set }

variable (hp : Steps p)

include hp

theorem openAll (g : Nat) (records : List (String × String)) : Keeps p (openAll g records) b := by
  induction records generalizing b with
  | nil => exact .pure _
  | cons r rest ih =>
      exact .get_bind ((hp.notify g _ _).bind fun _ _ => (hp.pause _).bind fun _ _ => ih)

theorem launch : Keeps p launch b := by
  have hnext : Keeps p nextLaunch b := by
    refine .get_bind ?_
    split
    · exact .pure _
    · exact .bind (.set (hp.launches b _)) fun _ _ => .pure _
  have hattach : ∀ g b₁, Keeps p (modify fun b => { b with attached := some g }) b₁ :=
    fun g b₁ => .set (hp.attached b₁ (some g))
  refine hnext.bind fun problem b₁ => ?_
  split
  · exact .throw _
  · refine .get_bind fun hb₁ => ?_
    have hrest : Keeps p (do
        Bridge.openAll b₁.nextGeneration b₁.sortedRecords
        unless b₁.sortedRecords.isEmpty do
          Bridge.notify b₁.nextGeneration (.findErrors
            (b₁.sortedRecords.map fun r => b₁.servicePath r.1) b₁.settings.diagnosticsDelay.toNat)
          Bridge.pause
        modify fun b => { b with attached := some b₁.nextGeneration }) b₁.begun := by
      refine (hp.openAll _ _).bind fun _ _ => ?_
      split
      · exact hattach _ _
      · exact (hp.notify _ _ _).bind fun _ _ => (hp.pause _).bind fun _ _ => hattach _ _
    exact hrest (hp.begun b₁ hb₁)

theorem ensure : Keeps p ensure b :=
  keeps_ensure (fun b => hp.attached b none) hp.release (fun _ => hp.launch) b

/-- What small steps keep is kept by calls that take no record out. -/
theorem talks (names : Set String) : Talks names p where
  ensure _ := hp.ensure
  pause := hp.pause
  tellOpen _ _ _ _ _ g _ := hp.notify g _ _
  tellClose _ _ _ _ g _ := hp.notify g _ _
  tellReload g _ := hp.notify g _ _
  tellFind _ _ _ _ _ g _ := hp.notify g _ _
  set _ f _ content := hp.set _ f content

theorem shutdown (hclear : ∀ b : Bridge, p b → p { b with findings := .empty }) :
    Keeps p shutdown b :=
  keeps_shutdown (fun b => hp.attached b none) hp.release hclear b

theorem navigate (navigation : Navigation) (f : String) (offset : Nat) :
    Keeps p (navigate navigation f offset) b := by
  refine .get_bind ?_
  split
  · exact .throw _
  · exact hp.ensure.bind fun g _ => (hp.pause _).bind fun _ _ => hp.request g _ _

end Steps

/-! ## Moves -/

/-- The move is a call. -/
def Move.isCall : Move → Bool
  | .collect .. => false
  | .hear => false
  | .happens _ => false
  | .plan .. => false
  | _ => true

/-- Every move that is a call keeps what calls keep. -/
theorem Kept.play (hp : Kept names p)
    (hnavigate : ∀ navigation f offset b, Keeps p (navigate navigation f offset) b) {m : Move}
    (hcall : m.isCall = true) (hb : p b) (hm : ∀ f ∈ m.opens, f ∈ names) : p (b.play m) := by
  cases m with
  | start => exact Ends.always (hp.start hb)
  | openFile f content => exact Ends.always (hp.openFile (hm f List.mem_cons_self) content hb)
  | update f content => exact Ends.always (hp.update (hm f List.mem_cons_self) content hb)
  | closeFile f => exact Ends.always (hp.closeFile f hb)
  | rename old new content =>
      exact Ends.always (hp.rename old (hm new List.mem_cons_self) content hb)
  | reload => exact Ends.always (hp.reload hb)
  | requestDiagnostics filenames delay =>
      exact Ends.always (hp.requestDiagnostics filenames delay hb)
  | navigate navigation f offset => exact Ends.always (hnavigate navigation f offset b hb)
  | shutdown => exact Ends.always (hp.shutdown b hb)
  | _ => cases hcall

/-- A property that is kept by everything that happens to a bridge. -/
structure Invariant (names : Set String) (p : Bridge → Prop) : Prop extends Kept names p where
  navigate : ∀ navigation f offset b, Keeps p (navigate navigation f offset) b
  apply : ∀ b incident, p b → p (b.apply incident)
  reports : ∀ (b : Bridge) reports, p b → p { b with reports }
  handle : ∀ b report, p b → p (b.handle report).2
  plan : ∀ (b : Bridge) hindrance launches incidents, p b →
    p { b with hindrance, launches, incidents }

namespace Invariant

variable (hp : Invariant names p)

include hp

/-- Every move keeps an invariant. -/
theorem play (hb : p b) (m : Move) (hm : ∀ f ∈ m.opens, f ∈ names) : p (b.play m) := by
  cases hcall : m.isCall with
  | true => exact hp.toKept.play hp.navigate hcall hb hm
  | false =>
      cases m with
      | collect ticket navigation =>
          rcases play_collect_cases b ticket navigation with heq | heq
          · rwa [heq]
          · rw [heq]
            exact hp.apply b (.expires ticket) hb
      | hear =>
          simp only [Bridge.play]
          split
          · exact hb
          · next report rest _ => exact hp.handle _ report (hp.reports b rest hb)
      | happens incident => exact hp.apply b incident hb
      | plan hindrance launches incidents => exact hp.plan b hindrance launches incidents hb
      | _ => cases hcall

theorem playAll (moves : List Move) (hb : p b) (hm : ∀ m ∈ moves, ∀ f ∈ m.opens, f ∈ names) :
    p (b.playAll moves) :=
  List.foldlRecOn moves Bridge.play hb fun _ hb m hmem => hp.play hb m (hm m hmem)

end Invariant

end Bridge
end Notebook
