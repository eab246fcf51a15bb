import Notebook.Proofs.Service.Stories
import Notebook.Proofs.Service.Launches

/-!
# Stories of calls

`Bridge.At p h b` says that the beats `h` have led to the bridge `b`, with the call in
progress in the phase `p`.  Every step of a call goes on with the story: `Bridge.Leads b h
h' p b'` names the beats `h'` by which it has led from `b` to `b'`, and `Makes` says that
they make nobody wait.

* `ends_send_story`, `ends_notify_story`, `ends_request_story`: a command goes through its
  phases and is queued, or it fails.
* `ends_release_story`, `ends_launch_story`: an instance is shut or launched.
-/

set_option autoImplicit false

namespace Notebook
namespace Bridge

open Call

/-- The instances, those who wait or have waited too long, the answers and the trace are the
same. -/
structure SameTraffic (b b' : Bridge) : Prop where
  instances : b'.instances = b.instances
  waiting : b'.waiting = b.waiting
  answered : b'.answered = b.answered
  expired : b'.expired = b.expired
  trace : b'.trace = b.trace

/-- The beats `h` have led to the bridge `b`, with the call in progress in phase `p`. -/
structure At (p : Phase) (h : List Beat) (b : Bridge) : Prop where
  story : Story p h
  same : SameTraffic (replay h) b
  launched : ∀ g, .launched g ∈ h → g < b.nextGeneration

/-- A beat does the same to bridges with the same traffic. -/
theorem SameTraffic.beat {b b' : Bridge} (h : SameTraffic b b') (x : Beat) :
    SameTraffic (b.beat x) (b'.beat x) := by
  obtain ⟨hinstances, hwaiting, hanswered, hexpired, htrace⟩ := h
  have hchange : ∀ g f, SameTraffic (b.changeInstance g f) (b'.changeInstance g f) := by
    intro g f
    unfold changeInstance
    rw [hinstances]
    split
    · exact ⟨rfl, hwaiting, hanswered, hexpired, htrace⟩
    · exact ⟨hinstances, hwaiting, hanswered, hexpired, htrace⟩
  cases x with
  | launched g =>
      exact ⟨congrArg (·.set g ⟨1, true, true⟩) hinstances, hwaiting, hanswered, hexpired,
        congrArg (Deed.launched g :: ·) htrace⟩
  | numbered g => exact hchange g _
  | registered t => exact ⟨hinstances, congrArg (t :: ·) hwaiting, hanswered, hexpired, htrace⟩
  | queued g r => exact ⟨hinstances, hwaiting, hanswered, hexpired,
        congrArg (Deed.queued g r :: ·) htrace⟩
  | withdrawn t =>
      exact ⟨hinstances, congrArg (List.filter (· ≠ t)) hwaiting, hanswered, hexpired, htrace⟩
  | shut g =>
      have hshut := hchange g fun i => { i with writable := false }
      refine ⟨hshut.instances, hshut.waiting, hshut.answered, hshut.expired, ?_⟩
      have haccepts : b'.accepts g = b.accepts g := by simp only [accepts, hinstances]
      change (if b'.accepts g then Deed.released g :: b'.trace else b'.trace) =
        if b.accepts g then Deed.released g :: b.trace else b.trace
      rw [haccepts, htrace]
  | cleared g => exact ⟨hinstances, congrArg (List.filter _) hwaiting, hanswered, hexpired, htrace⟩
  | incident i =>
      cases i with
      | frame g frame =>
          simp only [Bridge.beat, apply, takeFrame]
          split
          · exact ⟨hinstances, hwaiting, hanswered, hexpired, htrace⟩
          · exact ⟨hinstances, hwaiting, hanswered, hexpired, htrace⟩
          · next n response _ =>
              rw [hwaiting]
              split
              · exact ⟨hinstances, rfl,
                  congrArg (Table.set · (⟨g, n⟩ : Ticket) response) hanswered, hexpired, htrace⟩
              · exact ⟨hinstances, hwaiting, hanswered, hexpired, htrace⟩
      | dies g => exact hchange g _
      | forgets g => exact ⟨hinstances, congrArg (List.filter _) hwaiting, hanswered, hexpired, htrace⟩
      | reports g reason => exact ⟨hinstances, hwaiting, hanswered, hexpired, htrace⟩
      | breaks g => exact hchange g _
      | expires t =>
          refine ⟨hinstances, congrArg (List.filter _) hwaiting, hanswered, ?_, htrace⟩
          simp only [Bridge.beat, apply, expire, hwaiting, hexpired]

theorem SameTraffic.refl (b : Bridge) : SameTraffic b b :=
  ⟨rfl, rfl, rfl, rfl, rfl⟩

theorem SameTraffic.trans {a b c : Bridge} (h : SameTraffic a b) (h' : SameTraffic b c) :
    SameTraffic a c :=
  ⟨h'.instances.trans h.instances, h'.waiting.trans h.waiting,
    h'.answered.trans h.answered, h'.expired.trans h.expired, h'.trace.trans h.trace⟩

namespace At

variable {p p' : Phase} {h : List Beat} {b b' : Bridge}

theorem reads (hb : At p h b) (g : Nat) : b.reads g = (replay h).reads g := by
  simp only [Bridge.reads, hb.same.instances]

theorem accepts (hb : At p h b) (g : Nat) : b.accepts g = (replay h).accepts g := by
  simp only [Bridge.accepts, hb.same.instances]

theorem mem_waiting_iff (hb : At p h b) (t : Ticket) : t ∈ b.waiting ↔ Waits h t := by
  rw [hb.same.waiting, mem_waiting_replay_iff]

theorem mem_expired_iff (hb : At p h b) (t : Ticket) : t ∈ b.expired ↔ TimedOut h t := by
  rw [hb.same.expired, mem_expired_replay_iff]

theorem answered_iff (hb : At p h b) (t : Ticket) (response : Json) :
    b.answered.find? t = some response ↔ AnsweredWith h t response := by
  rw [hb.same.answered, hb.story.answered_iff]

/-- What has become of a request can be read off the story. -/
theorem outcome_eq (hb : At p h b) (t : Ticket) :
    (∀ response, AnsweredWith h t response → b.outcome t = .answered response) ∧
      (Waits h t → b.outcome t = .pending) ∧ (TimedOut h t → b.outcome t = .expired) ∧
      ((∀ response, ¬AnsweredWith h t response) → ¬Waits h t → ¬TimedOut h t →
        b.outcome t = .turnedAway) := by
  obtain ⟨hwaiting, hexpired⟩ := apart_replay hb.story.unused.single t
  rw [← hb.same.waiting, ← hb.same.answered, ← hb.same.expired] at hwaiting
  rw [← hb.same.answered, ← hb.same.expired] at hexpired
  refine ⟨fun response hanswered => ?_, fun hwaits => ?_, fun hlate => ?_,
    fun hanswered hwaits hlate => ?_⟩
  · simp only [outcome, (hb.answered_iff t response).mpr hanswered]
  · rw [← hb.mem_waiting_iff] at hwaits
    simp only [outcome, (hwaiting hwaits).1, if_pos hwaits]
  · rw [← hb.mem_expired_iff] at hlate
    have hgone : t ∉ b.waiting := fun hmem => (hwaiting hmem).2 hlate
    simp only [outcome, hexpired hlate, if_neg hgone, if_pos hlate]
  · rw [← hb.mem_waiting_iff] at hwaits
    rw [← hb.mem_expired_iff] at hlate
    have hnone : b.answered.find? t = none := by
      cases hfind : b.answered.find? t with
      | none => rfl
      | some response => exact absurd ((hb.answered_iff t response).mp hfind) (hanswered response)
    simp only [outcome, hnone, if_neg hwaits, if_neg hlate]

/-- A beat that the story takes up, with a bridge of the same traffic. -/
theorem snoc (hb : At p h b) {x : Beat} (hstory : Story p' (h ++ [x]))
    (hsame : SameTraffic (b.beat x) b') (hx : x.launch? = none)
    (hnext : b'.nextGeneration = b.nextGeneration) : At p' (h ++ [x]) b' := by
  refine ⟨hstory, ?_, fun g hg => ?_⟩
  · rw [replay_snoc]
    exact (hb.same.beat x).trans hsame
  · rcases List.mem_append.mp hg with hg | hg
    · exact hnext ▸ hb.launched g hg
    · exact absurd (List.mem_singleton.mp hg).symm (Beat.ne_launched hx g)

/-- Nothing has happened, but the call in progress has gone on. -/
theorem phase (hb : At p h b) (hstory : Story p' h) : At p' h b :=
  ⟨hstory, hb.same, hb.launched⟩

/-- What is not about the traffic may change. -/
theorem of_same (hb : At p h b) (hsame : SameTraffic b b')
    (hnext : b'.nextGeneration = b.nextGeneration) : At p h b' :=
  ⟨hb.story, hb.same.trans hsame, fun g hg => hnext ▸ hb.launched g hg⟩

end At

/-- From `b` with the story `h`, the beats `h'` have led to `b'`.  Their incidents are
those that were planned. -/
structure Leads (b : Bridge) (h h' : List Beat) (p : Phase) (b' : Bridge) : Prop where
  told : At p (h ++ h') b'
  passed : b.incidents.flatten = h'.filterMap Beat.incident? ++ b'.incidents.flatten

/-- The beats that lead from `b` to `b'` make nobody wait. -/
def Makes (b : Bridge) (h : List Beat) (p : Phase) (b' : Bridge) : Prop :=
  ∃ h', Leads b h h' p b' ∧ tickets h' = []

theorem Leads.trans {b b₁ b₂ : Bridge} {h h₁ h₂ : List Beat} {p p' : Phase}
    (hfirst : Leads b h h₁ p b₁) (hlast : Leads b₁ (h ++ h₁) h₂ p' b₂) :
    Leads b h (h₁ ++ h₂) p' b₂ :=
  ⟨List.append_assoc h h₁ h₂ ▸ hlast.told, by
    rw [hfirst.passed, hlast.passed, List.filterMap_append, List.append_assoc]⟩

theorem Leads.refl {b : Bridge} {h : List Beat} {p : Phase} (hb : At p h b) :
    Leads b h [] p b :=
  ⟨by rwa [List.append_nil], rfl⟩

/-- What is not about the traffic may change without a beat. -/
theorem Leads.of_same {b b' : Bridge} {h : List Beat} {p : Phase} (hb : At p h b)
    (hsame : SameTraffic b b') (hnext : b'.nextGeneration = b.nextGeneration)
    (hincidents : b'.incidents = b.incidents) : Leads b h [] p b' :=
  ⟨(List.append_nil h).symm ▸ hb.of_same hsame hnext, by rw [hincidents]; rfl⟩

theorem Makes.refl {b : Bridge} {h : List Beat} {p : Phase} (hb : At p h b) :
    Makes b h p b :=
  ⟨[], Leads.refl hb, rfl⟩

theorem Makes.trans {b b₁ b₂ : Bridge} {h : List Beat} {p p' : Phase}
    (hfirst : Makes b h p b₁) (hlast : ∀ h₁, At p h₁ b₁ → Makes b₁ h₁ p' b₂) :
    Makes b h p' b₂ := by
  obtain ⟨h₁, hleads₁, htickets₁⟩ := hfirst
  obtain ⟨h₂, hleads₂, htickets₂⟩ := hlast _ hleads₁.told
  exact ⟨h₁ ++ h₂, hleads₁.trans hleads₂, by rw [tickets_append, htickets₁, htickets₂]; rfl⟩

/-- What makes nobody wait can be done after other beats that make nobody wait. -/
theorem Leads.makes {b b₁ b₂ : Bridge} {h h₁ : List Beat} {p p' : Phase}
    (hfirst : Leads b h h₁ p b₁) (htickets : tickets h₁ = [])
    (hlast : Makes b₁ (h ++ h₁) p' b₂) : Makes b h p' b₂ := by
  obtain ⟨h₂, hleads, htickets₂⟩ := hlast
  exact ⟨h₁ ++ h₂, hfirst.trans hleads, by rw [tickets_append, htickets, htickets₂]; rfl⟩

/-- Nobody begins to wait. -/
theorem Makes.mem_waiting {b b' : Bridge} {h : List Beat} {p p' : Phase}
    (hmakes : Makes b h p' b') (hb : At p h b) {t : Ticket} (ht : t ∈ b'.waiting) :
    t ∈ b.waiting := by
  obtain ⟨h', hleads, htickets⟩ := hmakes
  rw [hb.mem_waiting_iff]
  refine (waits_append ((hleads.told.mem_waiting_iff t).mp ht)).resolve_right fun hmem => ?_
  rw [htickets] at hmem
  cases hmem

/-! ## Steps of calls -/

theorem incidents_changeInstance (b : Bridge) (g : Nat) (f : Instance → Instance) :
    (b.changeInstance g f).incidents = b.incidents := by
  unfold changeInstance
  split <;> rfl

theorem incidents_apply (b : Bridge) (i : Incident) : (b.apply i).incidents = b.incidents := by
  cases i with
  | frame g frame =>
      simp only [apply, takeFrame]
      split
      · rfl
      · rfl
      · split <;> rfl
  | dies g => exact incidents_changeInstance b g _
  | breaks g => exact incidents_changeInstance b g _
  | _ => rfl

theorem incidents_foldl_apply (due : List Incident) (b : Bridge) :
    (due.foldl apply b).incidents = b.incidents := by
  induction due generalizing b with
  | nil => rfl
  | cons i rest ih => exact (ih (b.apply i)).trans (incidents_apply b i)

/-- What comes at a pause is part of the story. -/
theorem makes_elapse {b : Bridge} {h : List Beat} {p : Phase} (hb : At p h b) :
    Makes b h p b.elapse := by
  have hdue : ∀ (due : List Incident) (h : List Beat) (b : Bridge), At p h b →
      At p (h ++ due.map .incident) (due.foldl apply b) := by
    intro due
    induction due with
    | nil => exact fun h b hb => by simpa using hb
    | cons i rest ih =>
        intro h b hb
        have hnext : At p (h ++ [.incident i]) (b.apply i) :=
          hb.snoc (hb.story.incident i) ⟨rfl, rfl, rfl, rfl, rfl⟩ rfl
            (later_apply b i).nextGeneration
        have hrest := ih _ _ hnext
        rw [List.append_assoc] at hrest
        exact hrest
  unfold elapse
  split
  · exact Makes.refl hb
  · next due later hincidents =>
      have hat := hdue due h { b with incidents := later } (hb.of_same ⟨rfl, rfl, rfl, rfl, rfl⟩ rfl)
      refine ⟨due.map .incident, ⟨hat, ?_⟩, ?_⟩
      · rw [hincidents, incidents_foldl_apply, List.flatten_cons, List.filterMap_map]
        exact congrArg (· ++ later.flatten) List.filterMap_some.symm
      · simp [tickets, Beat.ticket?]

/-- A command takes the next number of its instance. -/
theorem ends_takeNumber_story {b : Bridge} {h : List Beat} (hb : At .idle h b) (g : Nat) :
    Ends (takeNumber g) b
      (fun n b' => At (.ready ⟨g, n⟩ false) (h ++ [.numbered g]) b' ∧
        b'.incidents = b.incidents) fun _ _ => False := by
  have hnumber : b.nextNumber g = (replay h).nextNumber g := by
    simp only [nextNumber, hb.same.instances]
  simp only [takeNumber, ends_bind, ends_get, ends_set, ends_pure]
  change At (.ready ⟨g, b.nextNumber g⟩ false) _
    (b.changeInstance g fun i => { i with nextNumber := b.nextNumber g + 1 }) ∧
    (b.changeInstance g fun i => { i with nextNumber := b.nextNumber g + 1 }).incidents =
      b.incidents
  rw [show (b.changeInstance g fun i => { i with nextNumber := b.nextNumber g + 1 }) =
    b.beat (.numbered g) from ?_]
  · refine ⟨hb.snoc (hnumber ▸ hb.story.number g) ⟨rfl, rfl, rfl, rfl, rfl⟩ rfl ?_, ?_⟩
    · simp only [Bridge.beat, changeInstance]
      split <;> rfl
    · simp only [Bridge.beat, changeInstance]
      split <;> rfl
  · simp only [Bridge.beat, changeInstance, nextNumber]
    split
    · next i hi => rw [hi, Option.map_some, Option.getD_some]
    · rfl

/-- A command that is ready is queued, or it fails. -/
theorem ends_send_story {b : Bridge} {h : List Beat} {t : Ticket} {waits : Bool}
    (hb : At (.ready t waits) h b) (c : Command) :
    Ends (send t.generation ⟨t.number, c⟩) b
      (fun _ b' => ∃ h', Leads b h h' .idle b' ∧ tickets h' = [] ∧
        .queued t.generation ⟨t.number, c⟩ ∈ h')
      fun e b' => e = .unavailable ∧ Makes b h (.failed t waits) b' := by
  simp only [send, ends_bind, ends_get]
  split
  · next n writable hi =>
      have hreads : (replay h).reads t.generation = true := by
        rw [← hb.reads]
        simp [reads, hi]
      have hpause := makes_elapse (hb.phase (hb.story.check hreads))
      simp only [ends_bind, ends_pause, ends_get]
      split
      · next n' alive' hi' =>
          simp only [ends_perform]
          obtain ⟨h₁, hleads, htickets⟩ := hpause
          have haccepts : (replay (h ++ h₁)).accepts t.generation = true := by
            rw [← hleads.told.accepts]
            simp [accepts, hi']
          have hqueued := hleads.told.snoc (hleads.told.story.queue haccepts c)
            (SameTraffic.refl _) rfl rfl
          exact ⟨h₁ ++ [.queued t.generation ⟨t.number, c⟩], hleads.trans ⟨hqueued, rfl⟩,
            by rw [tickets_append, htickets]; rfl, by simp⟩
      · next hshut =>
          simp only [ends_throw]
          refine ⟨trivial, hpause.trans fun h₁ hat =>
            Makes.refl (hat.phase (hat.story.failShut ?_))⟩
          rw [← hat.accepts]
          unfold accepts
          cases hi' : b.elapse.instances.find? t.generation with
          | none => rfl
          | some i =>
              rcases i with ⟨n', alive', writable'⟩
              cases writable' with
              | true => exact absurd hi' (hshut n' alive')
              | false => rfl
  · next hdead =>
      simp only [ends_throw]
      refine ⟨trivial, Makes.refl (hb.phase (hb.story.failDead ?_))⟩
      rw [← hb.reads]
      unfold reads
      cases hi : b.instances.find? t.generation with
      | none => rfl
      | some i =>
          rcases i with ⟨n, alive, writable⟩
          cases alive with
          | true => exact absurd hi (hdead n writable)
          | false => rfl

/-- A notification makes nobody wait. -/
theorem ends_notify_story {b : Bridge} {h : List Beat} (hb : At .idle h b) (g : Nat)
    (c : Command) :
    Ends (notify g c) b (fun _ => Makes b h .idle)
      fun e b' => e = .unavailable ∧ Makes b h .idle b' := by
  simp only [notify, ends_bind]
  refine (ends_takeNumber_story hb g).mono ?_ (fun _ _ h => h.elim)
  rintro n b₁ ⟨hat, hincidents⟩
  have hnumbered : Leads b h [.numbered g] (.ready ⟨g, n⟩ false) b₁ :=
    ⟨hat, by rw [hincidents]; rfl⟩
  obtain ⟨h₁, hleads, htickets⟩ := hnumbered.makes rfl (makes_elapse hat)
  simp only [ends_pause]
  refine (ends_send_story hleads.told c).mono ?_ ?_
  · rintro _ b' ⟨h₂, hsent, htickets₂, _⟩
    exact hleads.makes htickets ⟨h₂, hsent, htickets₂⟩
  · rintro e b' ⟨he, hfailed⟩
    refine ⟨he, hleads.makes htickets (hfailed.trans fun h₂ hat₂ => ?_)⟩
    exact Makes.refl (hat₂.phase hat₂.story.giveUp)

/-- A request makes its sender wait until the answer is there, or it fails since the
service is not available. -/
theorem ends_request_story {b : Bridge} {h : List Beat} (hb : At .idle h b) {g : Nat}
    (hg : .launched g ∈ h) (c : Command) :
    Ends (request g c) b
      (fun t b' => t.generation = g ∧ ∃ h', Leads b h h' .idle b' ∧ tickets h' = [t] ∧
        .queued g ⟨t.number, c⟩ ∈ h')
      fun e b' => e = .unavailable ∧ ∃ h' t, t.generation = g ∧ Leads b h h' .idle b' ∧
        tickets h' = [t] ∧ .withdrawn t ∈ h' := by
  simp only [request, ends_bind]
  refine (ends_takeNumber_story hb g).mono ?_ (fun _ _ h => h.elim)
  rintro n b₁ ⟨hat, hincidents⟩
  have hnumbered : Leads b h [.numbered g] (.ready ⟨g, n⟩ false) b₁ :=
    ⟨hat, by rw [hincidents]; rfl⟩
  obtain ⟨h₁, hleads₁, htickets₁⟩ := hnumbered.makes rfl (makes_elapse hat)
  simp only [ends_pause, ends_modify, ends_tryCatch, ends_bind, ends_pure, ends_throw]
  -- Somebody waits before the request is sent.
  generalize hb₂ : ({ b₁.elapse with waiting := ⟨g, n⟩ :: b₁.elapse.waiting } : Bridge) = b₂
  have hregistered : Leads b h (h₁ ++ [.registered ⟨g, n⟩]) (.ready ⟨g, n⟩ true) b₂ := by
    subst hb₂
    have hknown : (replay (h ++ h₁)).instances.contains g = true :=
      contains_of_launched (List.mem_append_left h₁ hg)
    exact hleads₁.trans ⟨hleads₁.told.snoc (hleads₁.told.story.register hknown)
      (SameTraffic.refl _) rfl rfl, rfl⟩
  obtain ⟨h₂, hpause, htickets₂⟩ := makes_elapse hregistered.told
  have hwaiting := hregistered.trans hpause
  have htickets : tickets (h₁ ++ [.registered ⟨g, n⟩] ++ h₂) = [⟨g, n⟩] := by
    rw [tickets_append, tickets_append, htickets₁, htickets₂]
    rfl
  refine (ends_send_story hwaiting.told c).mono ?_ ?_
  · rintro _ b' ⟨h₃, hsent, htickets₃, hqueued⟩
    exact ⟨trivial, _, hwaiting.trans hsent,
      by rw [tickets_append, htickets, htickets₃]; rfl, List.mem_append_right _ hqueued⟩
  · rintro e b' ⟨he, h₃, hfailed, htickets₃⟩
    obtain ⟨h₄, hlate, htickets₄⟩ := makes_elapse hfailed.told
    have hwithdrawn : Leads b'.elapse _ [.withdrawn ⟨g, n⟩] .idle
        { b'.elapse with waiting := b'.elapse.waiting.filter (· ≠ ⟨g, n⟩) } :=
      ⟨hlate.told.snoc hlate.told.story.withdraw (SameTraffic.refl _) rfl rfl, rfl⟩
    refine ⟨he, _, ⟨g, n⟩, rfl, hwaiting.trans (hfailed.trans (hlate.trans hwithdrawn)), ?_,
      by simp⟩
    simp only [tickets_append, htickets₁, htickets₂, htickets₃, htickets₄]
    rfl

/-- An instance that is let go is shut, and nobody waits for it any longer. -/
theorem ends_release_story {b : Bridge} {h : List Beat} (hb : At .idle h b) (g : Nat) :
    Ends (release g) b
      (fun _ b' => Makes b h .idle b' ∧ ∀ t ∈ b'.waiting, t.generation ≠ g)
      fun _ _ => False := by
  obtain ⟨h₁, hpause, htickets₁⟩ := makes_elapse hb
  have hshut : ∀ b₁ : Bridge, SameTraffic (b.elapse.beat (.shut g)) b₁ →
      b₁.nextGeneration = b.elapse.nextGeneration → b₁.incidents = b.elapse.incidents →
      Makes b h .idle (b₁.elapse.forget g) ∧
        ∀ t ∈ (b₁.elapse.forget g).waiting, t.generation ≠ g := by
    intro b₁ hsame hnext hincidents
    have hat := hpause.told.snoc (hpause.told.story.shut g) hsame rfl hnext
    have hshut : Leads b.elapse (h ++ h₁) [.shut g] (.shutting g) b₁ :=
      ⟨hat, by rw [hincidents]; rfl⟩
    obtain ⟨h₂, hlate, htickets₂⟩ := makes_elapse hat
    have hcleared : Leads b₁.elapse _ [.cleared g] .idle (b₁.elapse.forget g) :=
      ⟨hlate.told.snoc hlate.told.story.clear (SameTraffic.refl _) rfl rfl, rfl⟩
    refine ⟨⟨_, hpause.trans (hshut.trans (hlate.trans hcleared)), ?_⟩, fun t ht => ?_⟩
    · simp only [tickets_append, htickets₁, htickets₂]
      rfl
    · exact of_decide_eq_true (List.mem_filter.mp ht).2
  have hbeat : ∀ trace, (if b.elapse.accepts g then Deed.released g :: b.elapse.trace
      else b.elapse.trace) = trace →
      let b₁ := ({ b.elapse with trace } : Bridge).changeInstance g
        fun i => { i with writable := false }
      SameTraffic (b.elapse.beat (.shut g)) b₁ ∧
        b₁.nextGeneration = b.elapse.nextGeneration ∧ b₁.incidents = b.elapse.incidents := by
    rintro trace rfl
    simp only [Bridge.beat, changeInstance]
    split <;> exact ⟨⟨rfl, rfl, rfl, rfl, rfl⟩, rfl, rfl⟩
  simp only [release, ends_bind, ends_pause, ends_get]
  split
  · next hwritable =>
      simp only [ends_bind, ends_perform, ends_modify, ends_pause]
      obtain ⟨hsame, hnext, hincidents⟩ := hbeat _ (if_pos hwritable)
      exact hshut _ hsame hnext hincidents
  · next hclosed =>
      simp only [ends_bind, ends_modify, ends_pause]
      obtain ⟨hsame, hnext, hincidents⟩ := hbeat _ (if_neg hclosed)
      exact hshut _ hsame hnext hincidents

theorem ends_openAll_story (g : Nat) (records : List (String × String)) {b : Bridge}
    {h : List Beat} (hb : At .idle h b) :
    Ends (openAll g records) b (fun _ => Makes b h .idle) fun _ => Makes b h .idle := by
  induction records generalizing b h with
  | nil => exact Makes.refl hb
  | cons r rest ih =>
      obtain ⟨filename, content⟩ := r
      simp only [openAll, ends_bind, ends_get, ends_pause]
      refine (ends_notify_story hb g _).mono ?_ (fun _ _ h => h.2)
      rintro _ b₁ ⟨h₁, hleads, htickets⟩
      obtain ⟨h₂, hpause, htickets₂⟩ := hleads.makes htickets (makes_elapse hleads.told)
      exact (ih hpause.told).mono (fun _ _ h => hpause.makes htickets₂ h)
        (fun _ _ h => hpause.makes htickets₂ h)

/-- A launch makes nobody wait, and the instance that is attached has been launched. -/
theorem ends_launch_story {b : Bridge} {h : List Beat} (hb : At .idle h b) :
    Ends launch b
      (fun _ b' => ∃ g h', b'.attached = some g ∧ Leads b h h' .idle b' ∧ tickets h' = [] ∧
        .launched g ∈ h')
      fun _ => Makes b h .idle := by
  simp only [launch, ends_bind]
  refine (ends_nextLaunch b).mono ?_ (fun _ _ h => h.elim)
  rintro problem _ ⟨launches, rfl⟩
  cases problem with
  | some problem => exact ⟨[], Leads.of_same hb ⟨rfl, rfl, rfl, rfl, rfl⟩ rfl rfl, rfl⟩
  | none =>
      simp only [ends_bind, ends_get, ends_set, ends_perform]
      generalize hb₁ : ({ b with
        nextGeneration := b.nextGeneration + 1
        instances := b.instances.set b.nextGeneration ⟨1, true, true⟩
        findings := .empty
        launches
        trace := .launched b.nextGeneration :: b.trace } : Bridge) = b₁
      have hlaunched : Leads b h [.launched b.nextGeneration] .idle b₁ := by
        subst hb₁
        have hnew : .launched b.nextGeneration ∉ h := fun hmem =>
          Nat.lt_irrefl _ (hb.launched _ hmem)
        refine ⟨⟨hb.story.launch _ hnew, ?_, fun g hg => ?_⟩, rfl⟩
        · rw [replay_snoc]
          exact (hb.same.beat _).trans ⟨rfl, rfl, rfl, rfl, rfl⟩
        · rcases List.mem_append.mp hg with hold | hlast
          · exact Nat.lt_succ_of_lt (hb.launched g hold)
          · obtain rfl := Beat.launched.inj (List.mem_singleton.mp hlast)
            exact Nat.lt_succ_self _
      clear hb₁
      -- What is told to the new instance makes nobody wait.
      have hrest : ∀ {b₂ : Bridge}, Makes b₁ (h ++ [.launched b.nextGeneration]) .idle b₂ →
          ∃ g h', ({ b₂ with attached := some b.nextGeneration } : Bridge).attached = some g ∧
            Leads b h h' .idle { b₂ with attached := some b.nextGeneration } ∧
            tickets h' = [] ∧ .launched g ∈ h' := by
        rintro b₂ ⟨h₂, hleads, htickets⟩
        have hattached : Leads b₂ _ [] .idle
            { b₂ with attached := some b.nextGeneration } :=
          Leads.of_same hleads.told ⟨rfl, rfl, rfl, rfl, rfl⟩ rfl rfl
        exact ⟨_, _, rfl, hlaunched.trans (hleads.trans hattached),
          by simp only [tickets_append, htickets]; rfl, by simp⟩
      change Ends (openAll b.nextGeneration b.sortedRecords) b₁ _ _
      refine (ends_openAll_story _ _ hlaunched.told).mono ?_ ?_
      · rintro _ b₂ ⟨h₂, hleads₂, htickets₂⟩
        split
        · exact hrest ⟨h₂, hleads₂, htickets₂⟩
        · simp only [ends_bind, ends_pause, ends_modify]
          refine (ends_notify_story hleads₂.told _ _).mono ?_ ?_
          · rintro _ b₃ ⟨h₃, hleads₃, htickets₃⟩
            exact hrest (hleads₂.makes htickets₂
              (hleads₃.makes htickets₃ (makes_elapse hleads₃.told)))
          · rintro _ b₃ ⟨_, hmakes⟩
            exact hlaunched.makes rfl (hleads₂.makes htickets₂ hmakes)
      · rintro _ b₂ hmakes
        exact hlaunched.makes rfl hmakes

end Bridge
end Notebook
