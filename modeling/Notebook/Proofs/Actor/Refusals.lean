import Notebook.Engine.Basic
import Notebook.Proofs.Actor.Residents

/-!
# Refused intents

An intent may be refused after something has been done for it: files were tried, a bridge was
made and called.  Of all this nobody but the analysis service sees anything, which `Unseen`
states, and it is all that any handler does before it refuses.

* `install_unseen`, `executeCode_unseen`, `analyze_unseen`: the handlers that may refuse late.
* `perform_unseen`: a refused intent is unseen.
* `Coordinator.refusal_reaches_only_sender`: the cells stay as they are, and all that comes
  of the intent is a frame for its sender.
-/

set_option autoImplicit false

namespace Notebook
namespace Room

/-- Nobody sees how `r` becomes `r'`: cells, processes, runs and inquiries are the same, and
nothing was done but to try files. -/
structure Unseen (r r' : Room) : Prop where
  silent : Silent r r'
  tried : ∃ tried : List (List FileDeed), r'.effects = r.effects ++ tried.map .files

namespace Unseen

theorem refl (r : Room) : Unseen r r :=
  ⟨Silent.refl r, [], (List.append_nil _).symm⟩

theorem trans {a b c : Room} (h : Unseen a b) (h' : Unseen b c) : Unseen a c := by
  obtain ⟨tried, htried⟩ := h.tried
  obtain ⟨tried', htried'⟩ := h'.tried
  refine ⟨h.silent.trans h'.silent, tried ++ tried', ?_⟩
  rw [htried', htried, List.append_assoc, List.map_append]

theorem of_silent {r r' : Room} (h : Silent r r') (heffects : r'.effects = r.effects) :
    Unseen r r' :=
  ⟨h, [], by rw [heffects]; exact (List.append_nil _).symm⟩

theorem onDisk (r : Room) (deeds : List FileDeed) : Unseen r (r.onDisk deeds).2 :=
  ⟨Silent.persist r deeds, [deeds], rfl⟩

end Unseen

theorem effects_call {α : Type} (r : Room) (c : Call α) : (r.call c).2.effects = r.effects := by
  unfold call
  split <;> rfl

theorem call_unseen {α : Type} (r : Room) (c : Call α) : Unseen r (r.call c).2 :=
  .of_silent (Silent.call r c) (effects_call r c)

theorem ensureBridge_unseen (r : Room) : Unseen r r.ensureBridge := by
  refine .of_silent (Silent.ensureBridge r) ?_
  unfold ensureBridge
  split <;> rfl

theorem freshen_unseen (r : Room) : Unseen r r.freshen.2 := by
  have hcall := effects_call r (Bridge.adopt r.actor.session.sources)
  refine .of_silent (Silent.freshen r) ?_
  unfold freshen
  split
  · split
    · next r₁ heq =>
        rw [heq] at hcall
        exact hcall
    · next e r₁ heq =>
        rw [heq] at hcall
        exact hcall
  · rfl

/-! ## Handlers -/

/-- A call is unseen, whether it comes back or not. -/
theorem analyze_unseen {α : Type} (r : Room) (c : Call α) : Unseen r (r.analyze c).2 := by
  unfold analyze
  split
  · have hready := (ensureBridge_unseen r).trans (freshen_unseen r.ensureBridge)
    split
    · next e r₁ heq =>
        rw [heq] at hready
        exact hready
    · next r₁ heq =>
        rw [heq] at hready
        have hcalled := hready.trans (call_unseen r₁ c)
        split
        · next e r₂ hrun =>
            rw [hrun] at hcalled
            exact hcalled
        · next a r₂ hrun =>
            rw [hrun] at hcalled
            exact hcalled
  · exact .refl r

variable {r : Room} {refusal : Refusal}

/-- An installation is not refused any more once its process is to be started. -/
theorem install_unseen {packages : List String}
    (h : (r.install packages).1 = some refusal) : Unseen r (r.install packages).2 := by
  unfold install at h ⊢
  split
  · exact .refl r
  · next manifest hmanifest =>
      simp only [hmanifest] at h
      split
      · exact .refl r
      · next program args hinstall =>
          simp only [hinstall] at h
          have hdisk := Unseen.onDisk r (r.actor.session.writing (.manifest manifest))
          split
          · next problem r₁ heq =>
              rw [heq] at hdisk
              exact hdisk
          · next r₁ heq =>
              simp only [heq] at h
              split at h <;> cases h

/-- Neither is the run of a code cell. -/
theorem executeCode_unseen {cell : CellId} {code : CodeCell}
    (h : (r.executeCode cell code).1 = some refusal) :
    Unseen r (r.executeCode cell code).2 := by
  unfold executeCode at h ⊢
  split
  · exact .refl r
  · next program args hcommand =>
      simp only [hcommand] at h
      have hdisk := Unseen.onDisk r (r.actor.session.writing (.code code))
      split
      · next problem r₁ heq =>
          rw [heq] at hdisk
          exact hdisk
      · next r₁ heq =>
          simp only [heq] at h
          split at h <;> cases h

theorem execute_unseen {cell : CellId} (h : (r.execute cell).1 = some refusal) :
    Unseen r (r.execute cell).2 := by
  unfold execute at h ⊢
  split
  · exact .refl r
  · exact .refl r
  · exact .refl r
  · next manifest hfind =>
      simp only [hfind] at h
      exact install_unseen h
  · next code hfind =>
      simp only [hfind] at h
      exact executeCode_unseen h

theorem create_unseen {index : Nat} {given : Cell}
    (h : (r.create index given).1 = some refusal) : Unseen r (r.create index given).2 := by
  unfold create at h ⊢
  split
  · exact .refl r
  · next cell haccept =>
      simp only [haccept] at h
      split
      · exact .refl r
      · next session hinsert =>
          simp only [hinsert] at h
          cases h

theorem rename_unseen {cell : CellId} {filename : String}
    (h : (r.rename cell filename).1 = some refusal) :
    Unseen r (r.rename cell filename).2 := by
  unfold rename at h ⊢
  split
  · exact .refl r
  · next hcheck =>
      simp only [hcheck] at h
      split
      · exact .refl r
      · next code hfind =>
          simp only [hfind] at h
          unfold renameTo at h ⊢
          split
          · next hsame =>
              rw [if_pos hsame] at h
              cases h
          · next hother =>
              rw [if_neg hother] at h
              simp only at h ⊢
              split
              · exact .refl r
              · next old session hreplace =>
                  simp only [hreplace] at h
                  cases h
      · exact .refl r

theorem delete_unseen {cell : CellId} (h : (r.delete cell).1 = some refusal) :
    Unseen r (r.delete cell).2 := by
  unfold delete at h ⊢
  split
  · exact .refl r
  · next removed session hremove =>
      simp only [hremove] at h
      cases h

theorem edit_unseen {id : CellId} {source : String}
    (h : (r.edit id source).1 = some refusal) : Unseen r (r.edit id source).2 := by
  unfold edit at h ⊢
  split
  · exact .refl r
  · next cell hfind =>
      simp only [hfind] at h
      cases h

theorem startService_unseen (h : r.startService.1 = some refusal) :
    Unseen r r.startService.2 := by
  have hanalyze := analyze_unseen r Bridge.start
  unfold startService at h ⊢
  split
  · next e r₁ heq =>
      rw [heq] at hanalyze
      exact hanalyze
  · next r₁ heq =>
      simp only [heq] at h
      cases h

theorem requestDiagnostics_unseen (r : Room) : Unseen r r.requestDiagnostics.2 := by
  have hanalyze := analyze_unseen r (Bridge.requestDiagnostics r.actor.session.filenames
    r.facilities.service.diagnosticsDelay.toNat)
  unfold requestDiagnostics
  simp only
  split
  · next e r₁ heq =>
      rw [heq] at hanalyze
      exact hanalyze
  · next r₁ heq =>
      rw [heq] at hanalyze
      exact hanalyze

/-- A request about a place in a cell is never refused: it is answered with nothing. -/
theorem navigate_not_refused (r : Room) (navigation : Navigation) (query : Query) :
    (r.navigate navigation query).1 = none := by
  obtain ⟨r₁, _, ⟨_, heq⟩ | ⟨_, ticket, heq⟩⟩ := navigate_cases r navigation query
  · rw [heq]
  · rw [heq]

/-- Whatever has been done for an intent that is refused, nobody sees it. -/
theorem perform_unseen {intent : Intent} (h : (r.perform intent).1 = some refusal) :
    Unseen r (r.perform intent).2 := by
  cases intent with
  | execute cell => exact execute_unseen h
  | stop cell => cases h
  | create index cell => exact create_unseen h
  | rename cell filename =>
      rw [perform] at h ⊢
      exact rename_unseen h
  | delete cell => exact delete_unseen h
  | edit cell source => exact edit_unseen h
  | install packages => exact install_unseen h
  | startService => exact startService_unseen h
  | stopService => cases h
  | requestDiagnostics => exact requestDiagnostics_unseen r
  | navigate navigation query =>
      rw [perform, navigate_not_refused] at h
      cases h

/-- A refusal is all that is told of a refused intent. -/
theorem serve_refused {sender : ConnectionId} {intent : Intent}
    (h : (r.perform intent).1 = some refusal) :
    r.serve sender intent = (r.perform intent).2.tell (.refusal sender refusal) := by
  unfold serve
  split
  · next r₁ heq =>
      rw [heq] at h
      cases h
  · next other r₁ heq =>
      rw [heq] at h
      obtain rfl := Option.some.inj h
      rw [heq]

end Room

/-! ## Frames -/

namespace Engine

/-- Deeds on the disk are done already when they come to be put into effect. -/
theorem foldl_files (e : Engine) (resident : Nat) (session : SessionId)
    (tried : List (List FileDeed)) :
    (tried.map fun deeds => LogEntry.effect resident session (.files deeds)).foldl applyEntry e =
      e := by
  induction tried with
  | nil => rfl
  | cons deeds rest ih => exact ih

/-- A client whose queue has room finds an error at its end, and nothing else happens. -/
theorem apply_refusal {e : Engine} {client : ConnectionId} {inbox : Inbox}
    (hconnected : e.hub.isConnected client = true)
    (hinbox : e.hub.inboxes.find? client = some inbox) (hreceiving : inbox.receiving = true)
    (hroom : inbox.frames.length < e.hub.capacity) (resident : Nat) (session : SessionId)
    (refusal : Refusal) :
    e.apply resident session (.refusal client refusal) =
      { e with hub.inboxes := e.hub.inboxes.set client { inbox with
          frames := inbox.frames ++ [Frame.renderError (some session.topic) refusal.message] } } := by
  simp [apply, Hub.sendError, Hub.sendTo, Hub.Inbox.offer, hconnected, hinbox, hreceiving, hroom]

end Engine

namespace Coordinator

/-- After an intent that its handler has refused, the resident has the same cells, processes
and inquiries, no process was started, and the other residents are left alone.  All that is
told, besides files that were tried, is the refusal.  Put into effect, this is one error frame
on the topic of the session at the end of the sender's queue: nobody else gets a frame, and
no process gets a signal. -/
theorem refusal_reaches_only_sender (c : Coordinator) (resident : Nat) (actor : Actor)
    (sender : ConnectionId) (intent : Intent) (rest : List Letter) (refusal : Refusal)
    (hresident : c.residents.find? resident = some ⟨actor, .intent sender intent :: rest, true⟩)
    (hrefused : ((c.room actor).perform intent).1 = some refusal) :
    (∃ actor', (c.work resident).residents.find? resident = some ⟨actor', rest, true⟩ ∧
      actor'.session = actor.session ∧ actor'.runs = actor.runs ∧
      actor'.inquiries = actor.inquiries) ∧
    (∀ other, other ≠ resident →
      (c.work resident).residents.find? other = c.residents.find? other) ∧
    (c.work resident).supervisor = c.supervisor ∧
    ∃ news, (c.work resident).log = c.log ++ news ∧
      (∃ tried, news = (tried ++ [Effect.refusal sender refusal]).map
          (.effect resident actor.session.id) ∧
        ∀ what ∈ tried, ∃ deeds, what = .files deeds) ∧
      ∀ (e : Engine) (inbox : Inbox), e.hub.isConnected sender = true →
        e.hub.inboxes.find? sender = some inbox → inbox.receiving = true →
        inbox.frames.length < e.hub.capacity →
        news.foldl Engine.applyEntry e =
          { e with hub.inboxes := e.hub.inboxes.set sender { inbox with
              frames := inbox.frames ++
                [Frame.renderError (some actor.session.id.topic) refusal.message] } } := by
  obtain ⟨hsilent, tried, htried⟩ := Room.perform_unseen hrefused
  have hwork : c.work resident = c.leave resident rest true
      (((c.room actor).perform intent).2.tell (.refusal sender refusal)) := by
    unfold work
    rw [hresident]
    simp only [Room.receive, Room.serve_refused hrefused]
  obtain ⟨errands, heq⟩ := leave_eq c resident rest true
    (((c.room actor).perform intent).2.tell (.refusal sender refusal))
  rw [hwork, heq]
  have heffects : (((c.room actor).perform intent).2.tell (.refusal sender refusal)).effects =
      tried.map .files ++ [.refusal sender refusal] := by
    change ((c.room actor).perform intent).2.effects ++ _ = _
    rw [htried]
    rfl
  have hsession : (((c.room actor).perform intent).2.tell
      (.refusal sender refusal)).actor.session = actor.session := hsilent.session
  rw [heffects, hsession]
  refine ⟨⟨_, (Table.find?_set _ _ _ _).trans (if_pos rfl), hsession, hsilent.runs,
    hsilent.inquiries⟩, fun other hother => ?_, hsilent.supervisor, _, rfl,
    ⟨tried.map .files, rfl, fun what hwhat => ?_⟩, ?_⟩
  · exact (Table.find?_set _ _ _ _).trans (if_neg (Ne.symm hother))
  · obtain ⟨deeds, _, rfl⟩ := List.mem_map.mp hwhat
    exact ⟨deeds, rfl⟩
  · intro e inbox hconnected hinbox hreceiving hroom
    rw [List.map_append, List.map_map, List.foldl_append]
    change List.foldl _ (List.foldl _ _ (tried.map fun deeds =>
      LogEntry.effect resident actor.session.id (.files deeds))) _ = _
    -- The files were tried before anything is put into effect, so only the refusal is left.
    rw [Engine.foldl_files]
    exact Engine.apply_refusal hconnected hinbox hreceiving hroom resident _ refusal

/-- The analysis service cannot be launched.  Of the two subscribers only the one who asked
for it gets a frame. -/
theorem refusal_reaches_only_sender_launch :
    let facilities : Facilities := ⟨.standard, .standard, []⟩
    let session : Session := ⟨⟨"s"⟩, "/book", .typescript,
      [.code ⟨⟨"x"⟩, "1", "a.ts", .typescript, .idle⟩]⟩
    let fresh : Actor := .new facilities session
    let actor := { fresh with former.hindrance := some (.failed "no service") }
    let c : Coordinator :=
      ⟨facilities, fun _ _ => .ok 7, .empty, .new 16, .empty,
        Table.empty.set 0 ⟨actor, [.intent ⟨1⟩ .startService], true⟩, .empty, []⟩
    let hub := (((Hub.empty 4).connect.2.connect.2.subscribe ⟨0⟩ "session:s").2.subscribe ⟨1⟩
      "session:s").2
    let e := { Engine.new facilities .standard .empty [] .played with hub }
    ((c.room actor).perform .startService).1 =
      some (.service (.launch (.failed "no service"))) ∧
    ((c.work 0).residents.find? 0).map (·.actor.session) = some session ∧
    ((c.work 0).log.foldl Engine.applyEntry e).hub.inboxes =
      hub.inboxes.set ⟨1⟩ ⟨[Frame.renderError (some "session:s")
        "failed to launch analysis service: no service"], true⟩ := by
  intro facilities session fresh actor c hub e
  have hrefused : ((c.room actor).perform .startService).1 =
      some (.service (.launch (.failed "no service"))) := by
    decide +kernel
  obtain ⟨⟨actor', hresident, hsession, _, _⟩, _, _, news, hlog, _, hnews⟩ :=
    refusal_reaches_only_sender c 0 actor ⟨1⟩ .startService [] _ rfl hrefused
  refine ⟨hrefused, ?_, ?_⟩
  · rw [hresident, Option.map_some, hsession]
    rfl
  · have hfresh : (c.work 0).log = news := hlog
    rw [hfresh, hnews e ⟨[], true⟩ (by decide) (by decide) rfl (by decide)]
    rfl

end Coordinator
end Notebook
