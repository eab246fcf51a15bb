import Notebook.Proofs.Actor.Mirror
import Notebook.Proofs.Service.Waiters

/-!
# Ledgers

What an actor knows of service instances stands in its bridge or, without one, in the
bridge that it gave up last.  `Actor.Narrated` says that all of it has a story, and that
whoever waits for an answer does so for the instance that is attached.  Giving up a bridge
turns everybody away, so nobody is left behind when the next one is made.

* `Room.Change.narrated`: whatever an actor does keeps this.
* `Site.run_narrated`: so it holds in every run.
-/

set_option autoImplicit false

namespace Notebook

open Call

/-! ## Bridges -/

namespace Bridge

/-- What has happened to the instances has a story, and everybody who waits does so for the
attached instance. -/
def Narrated (b : Bridge) : Prop :=
  (∃ h, At .idle h b) ∧ b.Bound

variable {b b' : Bridge}

theorem Narrated.of_same (hb : b.Narrated) (hsame : SameTraffic b b')
    (hattached : b'.attached = b.attached) (hnext : b'.nextGeneration = b.nextGeneration) :
    b'.Narrated := by
  obtain ⟨⟨h, hat⟩, hbound⟩ := hb
  refine ⟨⟨h, hat.of_same hsame hnext⟩, fun t ht => ?_⟩
  rw [hattached]
  exact hbound t (hsame.waiting ▸ ht)

theorem Narrated.apply (hb : b.Narrated) (i : Incident) : (b.apply i).Narrated := by
  obtain ⟨⟨h, hat⟩, hbound⟩ := hb
  obtain ⟨h', hat', hbound', _⟩ := story_play hat hbound (.happens i)
  exact ⟨⟨_, hat'⟩, hbound'⟩

theorem Calm.narrated {α : Type} {c : Call α} (hc : Calm c b) : Keeps Narrated c b := by
  rintro ⟨⟨h, hat⟩, hbound⟩
  exact (hc h hat hbound).mono
    (fun _ _ ⟨⟨_, hleads, _⟩, hbound'⟩ => ⟨⟨_, hleads.told⟩, hbound'⟩)
    fun _ _ ⟨⟨_, hleads, _⟩, hbound'⟩ => ⟨⟨_, hleads.told⟩, hbound'⟩

/-- All calls but `navigate` keep what has happened narrated. -/
theorem kept_narrated : Kept Set.univ Narrated :=
  kept_of_calm Calm.narrated

/-- Calls that ask for something are calm or make their sender wait. -/
theorem narrated_of_inquires {α : Type} {c : Call α} (hc : Room.Inquires c)
    (hb : b.Narrated) : Ends c b (fun _ => Narrated) fun _ => Narrated := by
  cases hc with
  | nothing => exact hb
  | start => exact kept_narrated.start hb
  | diagnostics filenames delay => exact kept_narrated.requestDiagnostics filenames delay hb
  | reanalyze filenames delay =>
      exact (kept_narrated.start.bind fun _ _ => kept_narrated.reload.bind fun _ _ =>
        kept_narrated.requestDiagnostics filenames delay) hb
  | navigate navigation filename offset =>
      obtain ⟨⟨h, hat⟩, hbound⟩ := hb
      exact (ends_navigate_story hat hbound navigation filename offset).mono
        (fun _ _ ⟨hbound', _, hleads, _⟩ => ⟨⟨_, hleads.told⟩, hbound'⟩)
        fun _ _ ⟨hbound', _, hleads, _⟩ => ⟨⟨_, hleads.told⟩, hbound'⟩

/-- If nobody waits, a bridge can be replaced. -/
theorem Narrated.renew (hb : b.Narrated) (hnobody : b.waiting = []) : b.renew.Narrated := by
  obtain ⟨⟨h, hat⟩, _⟩ := hb
  refine ⟨⟨h, hat.of_same ⟨rfl, rfl, rfl, rfl, rfl⟩ rfl⟩, fun t ht => ?_⟩
  change t ∈ b.waiting at ht
  rw [hnobody] at ht
  cases ht

theorem narrated_new (settings : ServiceSettings) (projectDir : String) :
    (new settings projectDir).Narrated :=
  ⟨⟨[], at_new settings projectDir⟩, nofun⟩

end Bridge

/-! ## Actors -/

/-- What the actor knows of service instances is narrated, and without a bridge nobody
waits. -/
structure Actor.Narrated (a : Actor) : Prop where
  ledger : a.ledger.Narrated
  nobody : a.bridge = none → a.ledger.waiting = []

theorem Actor.Narrated.of_same {a a' : Actor} (h : a.Narrated) (hbridge : a'.bridge = a.bridge)
    (hformer : a'.former = a.former) : a'.Narrated := by
  have hledger : a'.ledger = a.ledger := by
    unfold Actor.ledger
    rw [hbridge, hformer]
  exact ⟨hledger ▸ h.ledger, fun hnone => hledger ▸ h.nobody (hbridge ▸ hnone)⟩

theorem Actor.narrated_of_bridge {a : Actor} {b : Bridge} (hbridge : a.bridge = some b)
    (hb : b.Narrated) : a.Narrated := by
  have hledger : a.ledger = b := by
    unfold Actor.ledger
    rw [hbridge]
    rfl
  refine ⟨hledger ▸ hb, fun hnone => ?_⟩
  rw [hbridge] at hnone
  cases hnone

theorem Actor.Narrated.bridge {a : Actor} (h : a.Narrated) {b : Bridge}
    (hbridge : a.bridge = some b) : b.Narrated := by
  have hledger := h.ledger
  unfold Actor.ledger at hledger
  rw [hbridge] at hledger
  exact hledger

theorem Actor.ledger_withLedger (a : Actor) (b : Bridge) : (a.withLedger b).ledger = b := by
  unfold Actor.withLedger
  split
  · rfl
  · next hnone =>
      change (a.bridge).getD b = b
      rw [hnone]
      rfl

namespace Room

variable {r r' : Room}

/-- A call that keeps its bridge narrated, whether it fails or not. -/
theorem call_narrated {α : Type} {c : Call α} (h : r.actor.Narrated)
    (hcall : ∀ b, b.Narrated → Ends c b (fun _ => Bridge.Narrated) fun _ => Bridge.Narrated) :
    (r.call c).2.actor.Narrated := by
  rcases call_cases fun b hbridge => hcall b (h.bridge hbridge) with
    ⟨_, heq⟩ | ⟨_, b', hb', heq⟩ | ⟨e, b', hb', heq⟩
  · rw [heq]
    exact h
  · rw [heq]
    exact Actor.narrated_of_bridge rfl hb'
  · rw [heq]
    exact Actor.narrated_of_bridge rfl hb'

theorem inform_narrated {c : Call Unit} (h : r.actor.Narrated)
    (hc : ∀ b, Keeps Bridge.Narrated c b) : (r.inform c).actor.Narrated := by
  have hcall := call_narrated h hc
  unfold inform
  split
  · exact h
  · split
    · next r₁ heq =>
        rw [heq] at hcall
        exact hcall
    · next e r₁ heq =>
        rw [heq] at hcall
        exact hcall.of_same rfl rfl

theorem follow_narrated (h : r.actor.Narrated) (cell : Cell) {c : CodeCell → Call Unit}
    (hc : ∀ code b, Keeps Bridge.Narrated (c code) b) : (r.follow cell c).actor.Narrated := by
  cases cell with
  | code code => exact inform_narrated h (hc code)
  | _ => exact h

theorem freshen_narrated (h : r.actor.Narrated) : r.freshen.2.actor.Narrated := by
  have hcall := call_narrated h fun b =>
    Bridge.kept_narrated.adopt r.actor.session.sources fun _ _ => trivial
  unfold freshen
  split
  · split
    · next r₁ heq =>
        rw [heq] at hcall
        exact hcall.of_same rfl rfl
    · next e r₁ heq =>
        rw [heq] at hcall
        exact hcall
  · exact h

theorem ensureBridge_narrated (h : r.actor.Narrated) : r.ensureBridge.actor.Narrated := by
  unfold ensureBridge
  split
  · exact h
  · next hnone =>
      have hledger : r.actor.ledger = r.actor.former := by
        unfold Actor.ledger
        rw [hnone]
        rfl
      refine Actor.narrated_of_bridge rfl (Bridge.Narrated.renew ?_ ?_)
      · exact hledger ▸ h.ledger
      · exact hledger ▸ h.nobody hnone

/-- With the bridge everybody who waits is turned away. -/
theorem dismissBridge_narrated (h : r.actor.Narrated) : r.dismissBridge.actor.Narrated := by
  have hcall : ∀ b, r.actor.bridge = some b → Ends Bridge.shutdown b
      (fun _ b' => b'.Narrated ∧ b'.waiting = []) fun _ _ => False := by
    intro b hbridge
    obtain ⟨⟨past, hat⟩, hbound⟩ := h.bridge hbridge
    refine (Bridge.ends_shutdown_story hat hbound).mono ?_ (fun _ _ h => h)
    rintro _ b' ⟨⟨_, hleads, _⟩, _, hnobody⟩
    refine ⟨⟨⟨_, hleads.told⟩, fun t ht => ?_⟩, hnobody⟩
    rw [hnobody] at ht
    cases ht
  unfold dismissBridge
  rcases call_cases hcall with ⟨hnone, heq⟩ | ⟨_, b', ⟨hb', hnobody⟩, heq⟩ | ⟨e, b', hno, _⟩
  · rw [heq]
    simp only [hnone]
    exact h
  · rw [heq]
    exact ⟨hb', fun _ => hnobody⟩
  · exact hno.elim

theorem setStatus_narrated (h : r.actor.Narrated) (cell : CellId) (status : CellStatus) :
    (r.setStatus cell status).actor.Narrated := by
  rcases setStatus_cases r cell status with ⟨_, heq⟩ | ⟨_, heq⟩
  · rw [heq]
    exact h.of_same rfl rfl
  · rw [heq]
    exact h

theorem PlainChange.narrated (hchange : PlainChange r r') (h : r.actor.Narrated) :
    r'.actor.Narrated := by
  cases hchange with
  | refused client refusal => exact h
  | counted event => exact h
  | signalled pid => exact h
  | shown call => exact h
  | closed call => exact h
  | noticed notice haside hreply => exact h
  | wrote deeds => exact h
  | created given cell index session haccept hinsert =>
      rw [Room.created, actor_broadcast]
      refine follow_narrated ?_ cell fun code b =>
        Bridge.kept_narrated.openFile trivial code.source
      exact h.of_same rfl rfl
  | restated cell hfind => exact h
  | renamed code given old session hcheck hfind hne hreplace =>
      rw [Room.renamed, actor_broadcast]
      refine inform_narrated ?_ fun b =>
        Bridge.kept_narrated.rename code.filename trivial code.source
      exact h.of_same rfl rfl
  | deleted id cell session hremove =>
      have hstopped : ((r.withSession session).stop id).actor.Narrated := by
        rw [actor_stop]
        exact h.of_same rfl rfl
      rw [Room.deleted, actor_broadcast]
      cases cell with
      | code code =>
          rw [discard, actor_persist]
          exact inform_narrated hstopped fun b => Bridge.kept_narrated.closeFile code.filename
      | _ => exact hstopped
  | edited id cell source hfind =>
      rw [Room.edited, actor_broadcast]
      refine follow_narrated ?_ _ fun code b =>
        Bridge.kept_narrated.resync trivial code.source _
      exact h.of_same rfl rfl
  | refreshed manifest source hfind hread => exact h.of_same rfl rfl
  | spawned cell program args pid hfree hspawn hknown =>
      refine setStatus_narrated ?_ cell .running
      exact h.of_same rfl rfl
  | unspawned cell failure hfree => exact setStatus_narrated h cell .idle
  | ensured => exact ensureBridge_narrated h
  | freshened => exact freshen_narrated h
  | called c hc => exact call_narrated h fun b => Bridge.narrated_of_inquires hc
  | dismissed => exact dismissBridge_narrated h
  | settled hnone => exact h.of_same rfl rfl
  | reported b report rest hbridge hreports =>
      obtain ⟨findings, heq⟩ := Bridge.handle_eq { b with reports := rest } report
      refine Actor.narrated_of_bridge rfl ?_
      rw [heq]
      exact (h.bridge hbridge).of_same ⟨rfl, rfl, rfl, rfl, rfl⟩ rfl rfl

theorem Change.narrated (hchange : Change r r') (h : r.actor.Narrated) :
    r'.actor.Narrated := by
  cases hchange with
  | plain hplain => exact hplain.narrated h
  | noticed notice haside => exact h
  | spawned cell program args purpose pid hfree hspawn hknown =>
      refine setStatus_narrated ?_ cell .running
      exact h.of_same rfl rfl
  | awaited inquiry => exact h.of_same rfl rfl

theorem ended_narrated (h : r.actor.Narrated) (cell : CellId) :
    (r.ended cell).actor.Narrated := by
  refine setStatus_narrated ?_ cell .idle
  exact h.of_same rfl rfl

end Room

/-! ## Runs -/

namespace Site

variable {s s' : Site}

theorem withLedger_narrated (h : s.actor.Narrated) {b : Bridge} (hb : b.Narrated)
    (hwaiting : ∀ t ∈ b.waiting, t ∈ s.actor.ledger.waiting) :
    (s.withLedger b).actor.Narrated := by
  have hledger : (s.withLedger b).actor.ledger = b := Actor.ledger_withLedger s.actor b
  refine ⟨hledger.symm ▸ hb, fun hnone => ?_⟩
  have hbridge : s.actor.bridge = none := by
    unfold withLedger Actor.withLedger at hnone
    split at hnone
    · cases hnone
    · next h => exact h
  rw [hledger, List.eq_nil_iff_forall_not_mem]
  intro t ht
  have hmem := hwaiting t ht
  rw [h.nobody hbridge] at hmem
  cases hmem

theorem Turn.narrated (hturn : s.Turn s') (h : s.actor.Narrated) : s'.actor.Narrated := by
  have hpost : ∀ (s : Site) letter, s.actor.Narrated → (s.post letter).actor.Narrated := by
    intro s letter h
    rwa [actor_post]
  cases hturn with
  | posted letter _ => exact hpost s letter h
  | worked letter rest _ _ =>
      exact Room.receive_preserves (P := fun r => r.actor.Narrated)
        (fun _ _ hchange hr => hchange.narrated hr)
        (fun _ cell hr => Room.ended_narrated hr cell) h letter
  | heard _ =>
      exact (Room.hearNext_changes s.room).preserves (P := fun r => r.actor.Narrated)
        (fun _ _ hchange hr => hchange.narrated hr) h
  | concluded index inquiry letter _ _ => exact hpost _ letter (h.of_same rfl rfl)
  | happened incident =>
      refine withLedger_narrated h (h.ledger.apply incident) fun t ht => ?_
      have hold := (Bridge.mem_waiting_beat s.actor.ledger (.incident incident) t).mp ht
      rcases hold with heq | ⟨hmem, _⟩
      · cases heq
      · exact hmem
  | planned hindrance launches incidents =>
      exact withLedger_narrated h (h.ledger.of_same ⟨rfl, rfl, rfl, rfl, rfl⟩ rfl rfl)
        fun t ht => ht
  | passed generation w info _ _ => exact hpost _ _ h
  | _ => exact h

theorem run_narrated (h : s.actor.Narrated) (events : List Event) :
    (s.run events).actor.Narrated :=
  run_invariant (P := fun s => s.actor.Narrated) (fun _ _ hturn h => hturn.narrated h) events h

theorem opened_narrated (facilities : Facilities) (spawner : Spawner) (disk : Disk)
    (supervisor : Supervisor) (session : Session) :
    (opened facilities spawner disk supervisor session).actor.Narrated :=
  ⟨Bridge.narrated_new _ _, fun _ => rfl⟩

end Site
end Notebook
