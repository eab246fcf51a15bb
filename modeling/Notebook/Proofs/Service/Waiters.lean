import Notebook.Proofs.Service.CallStories
import Notebook.Proofs.Service.Invariants

/-!
# Waiters

Every history of a bridge has a story, so what holds of stories holds of every history.  A
call is `Calm` if it makes nobody wait and leaves those who wait with the attached instance;
all calls but `navigate` are made of calm ones.

* `ends_ensure_story`, `ends_shutdown_story`: nobody waits for an instance that is not
  attached any longer.
* `ends_navigate_story`: a request makes its sender wait, or it fails and makes nobody wait.
* `waiters_pair`: who waits and who has been answered with what, after every history.
-/

set_option autoImplicit false

namespace Notebook
namespace Bridge

open Call

/-! ## Calm calls -/

/-- Everybody who waits does so for the attached instance. -/
def Bound (b : Bridge) : Prop :=
  ∀ t ∈ b.waiting, b.attached = some t.generation

/-- The call makes nobody wait, and leaves those who wait with the attached instance. -/
def Calm {α : Type} (c : Call α) (b : Bridge) : Prop :=
  ∀ h, At .idle h b → b.Bound →
    Ends c b (fun _ b' => Makes b h .idle b' ∧ b'.Bound) fun _ b' => Makes b h .idle b' ∧ b'.Bound

/-- With a working instance at hand, which has been launched, nobody waits for another. -/
theorem ends_ensure_story {b : Bridge} {h : List Beat} (hb : At .idle h b) (hbound : b.Bound) :
    Ends ensure b
      (fun g b' => b'.attached = some g ∧ b'.Bound ∧
        ∃ h', Leads b h h' .idle b' ∧ tickets h' = [] ∧ .launched g ∈ h ++ h')
      fun _ b' => Makes b h .idle b' ∧ b'.Bound := by
  have hlaunch : ∀ (h₁ : List Beat) (b₁ : Bridge), Leads b h h₁ .idle b₁ →
      tickets h₁ = [] → b₁.waiting = [] →
      Ends launch b₁
        (fun _ b' => ∃ g, b'.attached = some g ∧ b'.Bound ∧
          ∃ h', Leads b h h' .idle b' ∧ tickets h' = [] ∧ .launched g ∈ h ++ h')
        fun _ b' => Makes b h .idle b' ∧ b'.Bound := by
    intro h₁ b₁ hleads htickets hnobody
    -- Nobody begins to wait during the launch.
    have hnone : ∀ {b' : Bridge}, Makes b₁ (h ++ h₁) .idle b' → b'.Bound := by
      intro b' hmakes t ht
      have hmem := hmakes.mem_waiting hleads.told ht
      rw [hnobody] at hmem
      cases hmem
    refine (ends_launch_story hleads.told).mono ?_ ?_
    · rintro _ b' ⟨g, h₂, hattached, hleads₂, htickets₂, hg⟩
      exact ⟨g, hattached, hnone ⟨h₂, hleads₂, htickets₂⟩, h₁ ++ h₂, hleads.trans hleads₂,
        by rw [tickets_append, htickets, htickets₂]; rfl, by simp [hg]⟩
    · exact fun _ b' hmakes => ⟨hleads.makes htickets hmakes, hnone hmakes⟩
  simp only [ensure, ends_bind, ends_get]
  split
  · next hrunning =>
      cases hattached : b.attached with
      | none => simp [isRunning, hattached] at hrunning
      | some g =>
          simp only [ends_bind, ends_get, hattached, ends_pure]
          refine ⟨trivial, hbound, [], Leads.refl hb, rfl, ?_⟩
          have hworks : b.works g = true := by simpa [isRunning, hattached] using hrunning
          rw [List.append_nil]
          unfold works at hworks
          split at hworks
          · next i hi => exact launched_of_find? (hb.same.instances ▸ hi)
          · cases hworks
  · cases hattached : b.attached with
    | none =>
        simp only [ends_bind, ends_get]
        have hnobody : b.waiting = [] := by
          rw [List.eq_nil_iff_forall_not_mem]
          intro t ht
          have hsome := hbound t ht
          rw [hattached] at hsome
          cases hsome
        refine (hlaunch [] b (Leads.refl hb) rfl hnobody).mono ?_ (fun _ _ h => h)
        rintro _ b' ⟨g, hg, hrest⟩
        rw [hg]
        exact ⟨hg, hrest⟩
    | some dead =>
        simp only [ends_bind, ends_get, ends_set]
        have hloose : Leads b h [] .idle { b with attached := none } :=
          Leads.of_same hb ⟨rfl, rfl, rfl, rfl, rfl⟩ rfl rfl
        refine (ends_release_story hloose.told dead).mono ?_ (fun _ _ h => h.elim)
        rintro _ b₁ ⟨⟨h₁, hleads, htickets⟩, hnot⟩
        have hnobody : b₁.waiting = [] := by
          rw [List.eq_nil_iff_forall_not_mem]
          intro t ht
          have hmem := Makes.mem_waiting ⟨h₁, hleads, htickets⟩ hloose.told ht
          have hsome := hbound t hmem
          rw [hattached] at hsome
          exact hnot t ht (Option.some.inj hsome).symm
        refine (hlaunch ([] ++ h₁) b₁ (hloose.trans hleads) htickets hnobody).mono ?_
          (fun _ _ h => h)
        rintro _ b' ⟨g, hg, hrest⟩
        rw [hg]
        exact ⟨hg, hrest⟩

/-- After the service has been stopped nobody waits any longer. -/
theorem ends_shutdown_story {b : Bridge} {h : List Beat} (hb : At .idle h b)
    (hbound : b.Bound) :
    Ends shutdown b (fun _ b' => Makes b h .idle b' ∧ b'.attached = none ∧ b'.waiting = [])
      fun _ _ => False := by
  simp only [shutdown, ends_bind, ends_get]
  cases hattached : b.attached with
  | none =>
      simp only [ends_modify]
      refine ⟨⟨[], Leads.of_same hb ⟨rfl, rfl, rfl, rfl, rfl⟩ rfl rfl, rfl⟩, hattached, ?_⟩
      refine List.eq_nil_iff_forall_not_mem.mpr fun t ht => ?_
      have hsome := hbound t ht
      rw [hattached] at hsome
      cases hsome
  | some g =>
      simp only [ends_bind, ends_set]
      have hloose : Leads b h [] .idle { b with attached := none } :=
        Leads.of_same hb ⟨rfl, rfl, rfl, rfl, rfl⟩ rfl rfl
      refine ((ends_release_story hloose.told g).and (ends_release _ g)).mono ?_
        (fun _ _ h => h.1)
      rintro _ b₁ ⟨⟨⟨h₁, hleads, htickets⟩, hnot⟩, hlater, _, _⟩
      refine ⟨?_, hlater.attached, List.eq_nil_iff_forall_not_mem.mpr fun t ht => ?_⟩
      · exact hloose.makes rfl ((show Makes _ _ _ b₁ from ⟨h₁, hleads, htickets⟩).trans
          fun h₂ hat => ⟨[], Leads.of_same hat ⟨rfl, rfl, rfl, rfl, rfl⟩ rfl rfl, rfl⟩)
      · have hmem := Makes.mem_waiting ⟨h₁, hleads, htickets⟩ hloose.told ht
        have hsome := hbound t hmem
        rw [hattached] at hsome
        exact hnot t ht (Option.some.inj hsome).symm

namespace Calm

variable {α : Type} {b : Bridge}

/-- A calm call goes on with a story that makes nobody wait. -/
theorem keeps {b₀ : Bridge} {h : List Beat} {c : Call α} (hc : Calm c b) :
    Keeps (fun b' => Makes b₀ h .idle b' ∧ b'.Bound) c b := by
  rintro ⟨⟨h', hleads, htickets⟩, hbound⟩
  exact (hc _ hleads.told hbound).mono
    (fun _ _ hmakes => ⟨hleads.makes htickets hmakes.1, hmakes.2⟩)
    (fun _ _ hmakes => ⟨hleads.makes htickets hmakes.1, hmakes.2⟩)

/-- What is not about the traffic may change. -/
theorem set {b' : Bridge} (hsame : SameTraffic b b') (hattached : b'.attached = b.attached)
    (hnext : b'.nextGeneration = b.nextGeneration) (hincidents : b'.incidents = b.incidents) :
    Calm (MonadStateOf.set b' : Call PUnit) b := by
  intro h hb hbound
  refine ⟨⟨[], Leads.of_same hb hsame hnext hincidents, rfl⟩, fun t ht => ?_⟩
  rw [hattached]
  exact hbound t (hsame.waiting ▸ ht)

theorem pause : Calm Bridge.pause b := by
  intro h hb hbound
  have hmakes := makes_elapse hb
  refine ⟨hmakes, fun t ht => ?_⟩
  rw [(later_elapse b).attached]
  exact hbound t (hmakes.mem_waiting hb ht)

theorem notify (g : Nat) (c : Command) : Calm (Bridge.notify g c) b := by
  intro h hb hbound
  refine ((ends_notify_story hb g c).and (ends_notify b g c)).mono ?_ ?_
  · rintro _ b' ⟨hmakes, hlater, _⟩
    exact ⟨hmakes, fun t ht => hlater.attached ▸ hbound t (hmakes.mem_waiting hb ht)⟩
  · rintro _ b' ⟨⟨_, hmakes⟩, hlater, _⟩
    exact ⟨hmakes, fun t ht => hlater.attached ▸ hbound t (hmakes.mem_waiting hb ht)⟩

theorem ensure : Calm Bridge.ensure b := by
  intro h hb hbound
  refine (ends_ensure_story hb hbound).mono ?_ (fun _ _ h => h)
  rintro g b' ⟨_, hbound', h', hleads, htickets, _⟩
  exact ⟨⟨h', hleads, htickets⟩, hbound'⟩

theorem shutdown : Calm Bridge.shutdown b := by
  intro h hb hbound
  refine (ends_shutdown_story hb hbound).mono ?_ (fun _ _ h => h.elim)
  rintro _ b' ⟨hmakes, _, hnobody⟩
  exact ⟨hmakes, fun t ht => by rw [hnobody] at ht; cases ht⟩

end Calm

/-- What calm calls keep is kept by all calls but `navigate`. -/
theorem kept_of_calm {p : Bridge → Prop}
    (hp : ∀ {α : Type} {c : Call α} {b : Bridge}, Calm c b → Keeps p c b) : Kept Set.univ p where
  ensure _ := hp Calm.ensure
  shutdown _ := hp Calm.shutdown
  pause _ := hp Calm.pause
  tellOpen _ _ _ _ _ g _ := hp (Calm.notify g _)
  tellClose _ _ _ _ g _ := hp (Calm.notify g _)
  tellReload g _ := hp (Calm.notify g _)
  tellFind _ _ _ _ _ g _ := hp (Calm.notify g _)
  set b f _ content := by
    have hset : Calm (MonadStateOf.set { b with records := b.records.set f content } :
        Call PUnit) b := Calm.set ⟨rfl, rfl, rfl, rfl, rfl⟩ rfl rfl rfl
    exact hp hset
  remove b f := by
    have hremove : Calm (MonadStateOf.set { b with
        records := b.records.erase f
        findings := b.findings.remove f } : Call PUnit) b :=
      Calm.set ⟨rfl, rfl, rfl, rfl, rfl⟩ rfl rfl rfl
    exact hp hremove

/-! ## Navigation -/

/-- A request that is sent makes its sender wait.  One that fails makes nobody wait: whoever
has begun to is told that the service is not available. -/
theorem ends_navigate_story {b : Bridge} {h : List Beat} (hb : At .idle h b)
    (hbound : b.Bound) (navigation : Navigation) (filename : String) (offset : Nat) :
    Ends (navigate navigation filename offset) b
      (fun t b' => b'.Bound ∧ ∃ h', Leads b h h' .idle b' ∧ tickets h' = [t] ∧
        ∃ c, .queued t.generation ⟨t.number, c⟩ ∈ h')
      fun e b' => b'.Bound ∧ ∃ h', Leads b h h' .idle b' ∧
        ∀ t ∈ tickets h', .withdrawn t ∈ h' ∧ e = .unavailable := by
  simp only [navigate, ends_bind, ends_get]
  split
  · exact ⟨hbound, [], Leads.refl hb, nofun⟩
  · simp only [ends_bind, ends_pause]
    refine (ends_ensure_story hb hbound).mono ?_ ?_
    · rintro g b₁ ⟨hattached, hbound₁, h₁, hleads₁, htickets₁, hg⟩
      obtain ⟨h₂, hleads₂, htickets₂⟩ := makes_elapse hleads₁.told
      have hready := hleads₁.trans hleads₂
      have hattached₂ : b₁.elapse.attached = some g :=
        (later_elapse b₁).attached.trans hattached
      have hg₂ : .launched g ∈ h ++ (h₁ ++ h₂) := by
        rw [← List.append_assoc]
        exact List.mem_append_left _ hg
      -- Whoever waits afterwards has waited before, or by the new ticket.
      have hwaits : ∀ {b' : Bridge} {h₃ : List Beat} {t : Ticket},
          Leads b₁.elapse (h ++ (h₁ ++ h₂)) h₃ .idle b' → tickets h₃ = [t] →
          t.generation = g → b'.attached = b₁.elapse.attached → b'.Bound := by
        intro b' h₃ t hleads htickets ht hsame t' ht'
        rw [hsame, hattached₂]
        rcases waits_append ((hleads.told.mem_waiting_iff t').mp ht') with hold | hnew
        · have hmem : t' ∈ b₁.waiting :=
            Makes.mem_waiting ⟨h₂, hleads₂, htickets₂⟩ hleads₁.told
              ((hready.told.mem_waiting_iff t').mpr hold)
          rw [← hattached]
          exact hbound₁ t' hmem
        · rw [htickets] at hnew
          rw [List.mem_singleton.mp hnew, ht]
      refine ((ends_request_story hready.told hg₂ _).and (ends_request _ g _)).mono ?_ ?_
      · rintro t b' ⟨⟨ht, h₃, hleads, htickets, hqueued⟩, hlater, _⟩
        refine ⟨hwaits hleads htickets ht hlater.attached, _, hready.trans hleads, ?_, _,
          List.mem_append_right _ (ht ▸ hqueued)⟩
        simp only [tickets_append, htickets₁, htickets₂, htickets, List.nil_append]
      · rintro e b' ⟨⟨he, h₃, t, ht, hleads, htickets, hwithdrawn⟩, hlater, _⟩
        refine ⟨hwaits hleads htickets ht hlater.attached, _, hready.trans hleads,
          fun t' ht' => ?_⟩
        simp only [tickets_append, htickets₁, htickets₂, htickets, List.nil_append,
          List.mem_singleton] at ht'
        exact ⟨ht' ▸ List.mem_append_right _ hwithdrawn, he⟩
    · rintro e b' ⟨⟨h', hleads, htickets⟩, hbound'⟩
      refine ⟨hbound', h', hleads, fun t ht => ?_⟩
      rw [htickets] at ht
      cases ht

/-! ## Histories -/

/-- The incidents of a move. -/
def passes (b : Bridge) : Move → List Incident
  | .happens incident => [incident]
  | .collect ticket _ =>
    match b.outcome ticket with
    | .pending => [.expires ticket]
    | _ => []
  | .plan .. => []
  | m => b.incidents.flatten.take
      (b.incidents.flatten.length - (b.play m).incidents.flatten.length)

/-- The incidents of several moves, in order. -/
def happened (b : Bridge) : List Move → List Incident
  | [] => []
  | m :: rest => b.passes m ++ (b.play m).happened rest

/-- The incidents of a call are those that were planned and have come. -/
theorem Leads.incidents {b b' : Bridge} {h h' : List Beat} {p : Phase}
    (hleads : Leads b h h' p b') : h'.filterMap Beat.incident? =
      b.incidents.flatten.take (b.incidents.flatten.length - b'.incidents.flatten.length) := by
  rw [hleads.passed, List.length_append, Nat.add_sub_cancel, List.take_left]

/-- A move goes on with the story. -/
theorem story_play {b : Bridge} {h : List Beat} (hb : At .idle h b) (hbound : b.Bound)
    (m : Move) : ∃ h', At .idle (h ++ h') (b.play m) ∧ (b.play m).Bound ∧
      h'.filterMap Beat.incident? = b.passes m := by
  have hkept : Kept Set.univ fun b' => Makes b h .idle b' ∧ b'.Bound := kept_of_calm Calm.keeps
  have hcalm : ∀ {α : Type} (c : Call α), Keeps (fun b' => Makes b h .idle b' ∧ b'.Bound) c b →
      ∃ h', At .idle (h ++ h') (b.after c) ∧ (b.after c).Bound ∧
        h'.filterMap Beat.incident? = b.incidents.flatten.take
          (b.incidents.flatten.length - (b.after c).incidents.flatten.length) := by
    intro α c hc
    obtain ⟨⟨h', hleads, _⟩, hbound'⟩ := Ends.always (hc ⟨Makes.refl hb, hbound⟩)
    exact ⟨h', hleads.told, hbound', hleads.incidents⟩
  have hincident : ∀ i, ∃ h', At .idle (h ++ h') (b.apply i) ∧ (b.apply i).Bound ∧
      h'.filterMap Beat.incident? = [i] := by
    intro i
    have hat := hb.snoc (hb.story.incident i) (SameTraffic.refl _) rfl
      (later_apply b i).nextGeneration
    refine ⟨[.incident i], hat, fun t ht => ?_, rfl⟩
    rw [(later_apply b i).attached]
    rcases waits_append ((hat.mem_waiting_iff t).mp ht) with hold | hnew
    · exact hbound t ((hb.mem_waiting_iff t).mpr hold)
    · cases hnew
  have hsame : ∀ b' : Bridge, SameTraffic b b' → b'.attached = b.attached →
      b'.nextGeneration = b.nextGeneration → ∃ h', At .idle (h ++ h') b' ∧ b'.Bound ∧
        h'.filterMap Beat.incident? = [] := by
    intro b' hsame hattached hnext
    refine ⟨[], (List.append_nil h).symm ▸ hb.of_same hsame hnext, fun t ht => ?_, rfl⟩
    rw [hattached]
    exact hbound t (hsame.waiting ▸ ht)
  cases m with
  | start => exact hcalm _ hkept.start
  | openFile filename content => exact hcalm _ (hkept.openFile trivial content)
  | update filename content => exact hcalm _ (hkept.update trivial content)
  | closeFile filename => exact hcalm _ (hkept.closeFile filename)
  | rename old new content => exact hcalm _ (hkept.rename old trivial content)
  | reload => exact hcalm _ hkept.reload
  | requestDiagnostics filenames delay =>
      exact hcalm _ (hkept.requestDiagnostics filenames delay)
  | navigate navigation filename offset =>
      refine Ends.always (p := fun b' => ∃ h', At .idle (h ++ h') b' ∧ b'.Bound ∧
        h'.filterMap Beat.incident? = b.incidents.flatten.take
          (b.incidents.flatten.length - b'.incidents.flatten.length))
        ((ends_navigate_story hb hbound navigation filename offset).mono ?_ ?_)
      · exact fun t b' ⟨hbound', h', hleads, _⟩ => ⟨h', hleads.told, hbound', hleads.incidents⟩
      · exact fun e b' ⟨hbound', h', hleads, _⟩ => ⟨h', hleads.told, hbound', hleads.incidents⟩
  | shutdown => exact hcalm _ (hkept.shutdown b)
  | collect ticket navigation =>
      cases houtcome : b.outcome ticket with
      | pending =>
          simp only [play, collect, passes, houtcome]
          exact hincident (.expires ticket)
      | answered frame =>
          simp only [play, collect, passes, houtcome]
          exact hsame b (SameTraffic.refl b) rfl rfl
      | expired =>
          simp only [play, collect, passes, houtcome]
          exact hsame b (SameTraffic.refl b) rfl rfl
      | turnedAway =>
          simp only [play, collect, passes, houtcome]
          exact hsame b (SameTraffic.refl b) rfl rfl
  | hear =>
      have hplay : ∃ findings reports, b.play .hear = { b with findings, reports } := by
        simp only [play]
        split
        · exact ⟨b.findings, b.reports, rfl⟩
        · next report rest _ =>
            obtain ⟨findings, heq⟩ := handle_eq { b with reports := rest } report
            exact ⟨findings, rest, heq⟩
      obtain ⟨findings, reports, heq⟩ := hplay
      simp only [passes, heq, Nat.sub_self, List.take_zero]
      exact hsame _ ⟨rfl, rfl, rfl, rfl, rfl⟩ rfl rfl
  | happens incident => exact hincident incident
  | plan hindrance launches incidents => exact hsame _ ⟨rfl, rfl, rfl, rfl, rfl⟩ rfl rfl

/-- Every history has a story, with the incidents that have happened. -/
theorem story_playAll (moves : List Move) {b : Bridge} {h : List Beat} (hb : At .idle h b)
    (hbound : b.Bound) : ∃ h', At .idle (h ++ h') (b.playAll moves) ∧
      (b.playAll moves).Bound ∧ h'.filterMap Beat.incident? = b.happened moves := by
  induction moves generalizing b h with
  | nil => exact ⟨[], (List.append_nil h).symm ▸ hb, hbound, rfl⟩
  | cons m rest ih =>
      obtain ⟨h₁, hat₁, hbound₁, hincidents₁⟩ := story_play hb hbound m
      obtain ⟨h₂, hat₂, hbound₂, hincidents₂⟩ := ih hat₁ hbound₁
      refine ⟨h₁ ++ h₂, List.append_assoc h h₁ h₂ ▸ hat₂, hbound₂, ?_⟩
      rw [List.filterMap_append, hincidents₁, hincidents₂]
      rfl

/-- A new bridge has a story without beats. -/
theorem at_new (settings : ServiceSettings) (projectDir : String) :
    At .idle [] (new settings projectDir) :=
  ⟨.begin, ⟨rfl, rfl, rfl, rfl, rfl⟩, nofun⟩

/-- What a waiter gets can be read off the story. -/
theorem At.collect_eq {b : Bridge} {h : List Beat} {p : Phase} (hb : At p h b) (t : Ticket)
    (navigation : Navigation) :
    (∀ response, AnsweredWith h t response →
      b.collect t navigation = (.ok (.ofResponse navigation b.sourceDir response), b)) ∧
    (Waits h t → b.collect t navigation =
      (.error (.timeout (Command.navigationName navigation)), b.expire t)) ∧
    (TimedOut h t →
      b.collect t navigation = (.error (.timeout (Command.navigationName navigation)), b)) ∧
    ((∀ response, ¬AnsweredWith h t response) → ¬Waits h t → ¬TimedOut h t →
      b.collect t navigation = (.error .unavailable, b)) := by
  obtain ⟨hanswered, hpending, hexpired, haway⟩ := hb.outcome_eq t
  refine ⟨fun response h => ?_, fun h => ?_, fun h => ?_, fun h h' h'' => ?_⟩
  · simp only [collect, hanswered response h]
  · simp only [collect, hpending h]
    rfl
  · simp only [collect, hexpired h]
  · simp only [collect, haway h h' h'']

/-- Let a bridge do anything, while the service does anything, also in the middle of a call.
There is a story of all that has happened to the instances and to those who wait, with the
incidents in their order.  At every point of it,
* the n-th request queued to an instance has the number n,
* exactly those wait who have been registered and whose waiting nothing has ended since,
* a ticket, which is registered once, is answered exactly by the first response of its
  instance that has its number and is read while somebody waits.

Whoever comes for the answer to a ticket gets this response.  If there is none yet or the time
has run out before, the request has taken too long, and then nobody waits any longer; otherwise
the service is not available.

Afterwards nobody waits for an instance that has died or has been shut down since its
launch: unless the ticket has been answered or its time has run out, it is told that the service
is not available.  So is the sender of a request that fails after it has begun to wait. -/
theorem waiters_pair (settings : ServiceSettings) (projectDir : String) (moves : List Move) :
    let b := (new settings projectDir).playAll moves
    ∃ h, At .idle h b ∧
      h.filterMap Beat.incident? = (new settings projectDir).happened moves ∧
      (∀ past, past <+: h →
        (∀ g n r, (queuedTo g (replay past).trace).reverse[n]? = some r → r.number = n + 1) ∧
        (∀ t, t ∈ (replay past).waiting ↔ Waits past t) ∧
        (tickets past).Nodup ∧
        ∀ t response, (replay past).answered.find? t = some response ↔
          AnsweredWith past t response) ∧
      (∀ t navigation,
        (∀ response, AnsweredWith h t response →
          b.collect t navigation = (.ok (.ofResponse navigation b.sourceDir response), b)) ∧
        (Waits h t → t ∉ (b.expire t).waiting ∧ b.collect t navigation =
          (.error (.timeout (Command.navigationName navigation)), b.expire t)) ∧
        (TimedOut h t →
          b.collect t navigation =
            (.error (.timeout (Command.navigationName navigation)), b))) ∧
      (∀ g, Gone h g → ∀ t : Ticket, t.generation = g → t ∉ b.waiting ∧
        ((∀ response, ¬AnsweredWith h t response) → ¬TimedOut h t →
          ∀ navigation, b.collect t navigation = (.error .unavailable, b))) ∧
      ∀ navigation filename offset,
        let (result, b') := ((navigate navigation filename offset).run).run b
        ∃ h', At .idle (h ++ h') b' ∧
          match result with
          | .ok t => tickets h' = [t] ∧ ∃ c, .queued t.generation ⟨t.number, c⟩ ∈ h'
          | .error e => ∀ t ∈ tickets h', .withdrawn t ∈ h' ∧ e = .unavailable := by
  intro b
  have hnobody : (new settings projectDir).Bound := nofun
  obtain ⟨h, hat, hbound, hincidents⟩ :=
    story_playAll moves (at_new settings projectDir) hnobody
  rw [List.nil_append] at hat
  refine ⟨h, hat, hincidents, fun past hpast => ?_, fun t navigation => ?_,
    fun g hgone t ht => ?_, ?_⟩
  · obtain ⟨p, hs⟩ := hat.story.of_prefix hpast
    exact ⟨fun g n r hr => hs.numbers hr, mem_waiting_replay_iff past, hs.unused.single,
      hs.answered_iff⟩
  · obtain ⟨hanswered, hwaits, hexpired, -⟩ := hat.collect_eq t navigation
    exact ⟨hanswered, fun h => ⟨by simp [expire], hwaits h⟩, hexpired⟩
  · have hgoes : ¬Waits h t := hat.story.gone hgone ht
    refine ⟨fun hmem => hgoes ((hat.mem_waiting_iff t).mp hmem),
      fun hanswered hexpired navigation => ?_⟩
    exact (hat.collect_eq t navigation).2.2.2 hanswered hgoes hexpired
  · intro navigation filename offset
    have hends := ends_navigate_story hat hbound navigation filename offset
    rcases hrun : ((navigate navigation filename offset).run).run b with ⟨result, b'⟩
    cases result with
    | ok t =>
        obtain ⟨_, h', hleads, hrest⟩ := hends.of_ok hrun
        exact ⟨h', hleads.told, hrest⟩
    | error e =>
        obtain ⟨_, h', hleads, hrest⟩ := hends.of_error hrun
        exact ⟨h', hleads.told, hrest⟩

/-- Four requests wait for an instance.  Two are answered, the later one first, one takes too
long, and then the instance dies. -/
theorem waiters_pair_answered :
    let response (number : Nat) (name : String) : Json := .ofFields
      [("type", .string "response"), ("request_seq", .nat number), ("success", .bool true),
        ("body", .ofFields [("entries", .array [.ofFields [("name", .string name)]])])]
    let answer (name : String) : Answer := .completions (some [⟨name, "", "", none⟩])
    let ask : Move := .navigate .completions "a.ts" 0
    let b := (new .standard "/book").playAll
      [.openFile "a.ts" "1", ask, ask, ask, ask, .happens (.frame 1 (response 3 "second")),
        .happens (.frame 1 (response 2 "first")), .happens (.expires ⟨1, 4⟩),
        .happens (.frame 1 (response 4 "late")), .happens (.dies 1), .happens (.forgets 1)]
    ∃ h first second, At .idle h b ∧ AnsweredWith h ⟨1, 2⟩ first ∧
      AnsweredWith h ⟨1, 3⟩ second ∧ TimedOut h ⟨1, 4⟩ ∧
      b.collect ⟨1, 2⟩ .completions = (.ok (answer "first"), b) ∧
      b.collect ⟨1, 3⟩ .completions = (.ok (answer "second"), b) ∧
      b.collect ⟨1, 4⟩ .completions = (.error (.timeout "completionInfo"), b) ∧
      b.collect ⟨1, 5⟩ .completions = (.error .unavailable, b) := by
  intro response answer ask b
  obtain ⟨h, hat, -, hpoints, hcollect, -⟩ := waiters_pair .standard "/book"
    [.openFile "a.ts" "1", ask, ask, ask, ask, .happens (.frame 1 (response 3 "second")),
      .happens (.frame 1 (response 2 "first")), .happens (.expires ⟨1, 4⟩),
      .happens (.frame 1 (response 4 "late")), .happens (.dies 1), .happens (.forgets 1)]
  change At .idle h b at hat
  have hanswers : ∀ t r, b.answered.find? t = some r ↔ AnsweredWith h t r := by
    intro t r
    rw [hat.same.answered]
    exact (hpoints h List.prefix_rfl).2.2.2 t r
  have hanswered : ∀ t name, (b.answered.find? t).map (.ofResponse .completions b.sourceDir) =
      some (answer name) → ∃ r, AnsweredWith h t r ∧
        b.collect t .completions = (.ok (answer name), b) := by
    intro t name hfind
    obtain ⟨r, hr, hname⟩ := Option.map_eq_some_iff.mp hfind
    have hresponse := (hanswers t r).mp hr
    exact ⟨r, hresponse, hname ▸ (hcollect t .completions).1 r hresponse⟩
  obtain ⟨first, hfirst, hcollected⟩ := hanswered ⟨1, 2⟩ "first" (by decide +kernel)
  obtain ⟨second, hsecond, hcollected'⟩ := hanswered ⟨1, 3⟩ "second" (by decide +kernel)
  have hlate : TimedOut h ⟨1, 4⟩ := (hat.mem_expired_iff _).mp (by decide +kernel)
  have hnone : (b.answered.find? ⟨1, 5⟩).isNone = true := by decide +kernel
  refine ⟨h, first, second, hat, hfirst, hsecond, hlate, hcollected, hcollected',
    (hcollect _ .completions).2.2 hlate, (hat.collect_eq _ .completions).2.2.2
      (fun r hr => ?_) ?_ ?_⟩
  · rw [(hanswers _ r).mpr hr] at hnone
    cases hnone
  · rw [← hat.mem_waiting_iff]
    decide +kernel
  · rw [← hat.mem_expired_iff]
    decide +kernel

end Bridge
end Notebook
