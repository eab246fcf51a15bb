import Notebook.Proofs.Actor.Ledgers
import Notebook.Proofs.Actor.Replies
import Notebook.Proofs.Shapes

/-!
# Inquiries

A navigation request is answered at once, or an inquiry stands for it until its fate is
known and a letter carries the answer to the mailbox.  A request is known by its kind and
the name that the client has given it, its `Key`; a client may use a key twice.

For every key, the requests that have been handled are counted by the answers that have
been told, the answers that wait in the mailbox and the inquiries: `Site.Accounts`.

* `Room.receive_accounts`: what handling a letter does to the counts.
* `Site.run_accounts`: the counts agree in every run.
* `Site.told_of_works`: an answer in the mailbox has been told when the actor has worked off
  what stood before it.
* `Site.waiting_of_conclude`, `Site.conclude_of_ends`: when the fate of an inquiry is known.
* `Site.navigation_answered`: all of this for a session from its opening on.
-/

set_option autoImplicit false

namespace Notebook

/-! ## Keys -/

/-- The kind of a navigation request and its name. -/
abbrev Key : Type := Navigation × RequestId

/-- The request that a notice answers. -/
def Notice.answers? : Notice → Option Key
  | .quickinfo request _ => some (.quickinfo, request)
  | .definition request _ => some (.definition, request)
  | .completions request _ => some (.completions, request)
  | _ => none

/-- The request that an effect answers. -/
def Effect.answers? : Effect → Option Key
  | .notice n => n.answers?
  | _ => none

/-- The request whose answer a letter carries. -/
def Letter.answers? : Letter → Option Key
  | .answered request answer => some (answer.navigation, request)
  | _ => none

/-- The request that a letter makes. -/
def Letter.asks? : Letter → Option Key
  | .intent _ (.navigate navigation query) => some (navigation, query.request)
  | _ => none

/-- The request that an inquiry stands for. -/
def Inquiry.key (i : Inquiry) : Key :=
  (i.navigation, i.request)

theorem Actor.answers?_of_conclude {a : Actor} {i : Inquiry} {letter : Letter}
    (h : a.conclude i = some letter) : letter.answers? = some i.key := by
  obtain ⟨answer, rfl, hnavigation⟩ := answer_of_conclude h
  exact congrArg (fun n => some (n, i.request)) hnavigation

/-- The fate of an inquiry is not known only if somebody waits for its ticket. -/
theorem Actor.mem_waiting_of_conclude {a : Actor} {i : Inquiry} (h : a.conclude i = none) :
    ∃ t, i.ticket = some t ∧ t ∈ a.ledger.waiting := by
  unfold conclude at h
  simp only at h
  split at h
  · cases h
  · next t ht =>
      refine ⟨t, ht, ?_⟩
      cases hfind : a.ledger.answered.find? t with
      | some frame =>
          simp only [Bridge.outcome, hfind] at h
          cases h
      | none =>
          by_cases hmem : t ∈ a.ledger.waiting
          · exact hmem
          · by_cases hlate : t ∈ a.ledger.expired
            · simp only [Bridge.outcome, hfind, if_neg hmem, if_pos hlate] at h
              cases h
            · simp only [Bridge.outcome, hfind, if_neg hmem, if_neg hlate] at h
              cases h

theorem Effect.answers?_of_isReply {e : Effect} (h : e.isReply = false) :
    e.answers? = none := by
  cases e with
  | notice n =>
      cases n with
      | quickinfo _ _ => cases h
      | definition _ _ => cases h
      | completions _ _ => cases h
      | _ => rfl
  | _ => rfl

/-! ## Counts -/

namespace Room

/-- How often the actor has told an answer to a request. -/
def told (r : Room) (key : Key) : Nat :=
  (r.effects.filterMap Effect.answers?).count key

/-- How many inquiries stand for a request. -/
def awaited (r : Room) (key : Key) : Nat :=
  (r.actor.inquiries.map Inquiry.key).count key

variable {r r' : Room}

theorem Unreplied.told (h : Unreplied r r') (key : Key) : r'.told key = r.told key := by
  unfold Room.told
  rw [h.filterMap_eq fun _ => Effect.answers?_of_isReply]

theorem Unreplied.awaited (h : Unreplied r r') (key : Key) : r'.awaited key = r.awaited key := by
  unfold Room.awaited
  rw [h.inquiries]

theorem told_tell (r : Room) (e : Effect) (key : Key) :
    (r.tell e).told key = r.told key + e.answers?.toList.count key := by
  change ((r.effects ++ [e]).filterMap _).count key = _
  rw [List.filterMap_append, List.count_append, filterMap_singleton_eq_toList]
  rfl

/-- Passing an answer on. -/
theorem told_answer (r : Room) (request : RequestId) (answer : Answer) (key : Key) :
    (r.answer request answer).told key =
      r.told key + [(answer.navigation, request)].count key := by
  unfold Room.answer broadcast
  rw [told_tell]
  cases answer <;> rfl

theorem awaited_await (r : Room) (i : Inquiry) (key : Key) :
    (r.await i).awaited key = r.awaited key + [i.key].count key := by
  unfold Room.awaited Room.await
  rw [List.map_append, List.count_append]
  rfl

/-- Installing packages answers no navigation request. -/
theorem install_accounts (r : Room) (packages : List String) (key : Key) :
    (r.install packages).2.told key = r.told key ∧
      (r.install packages).2.awaited key = r.awaited key := by
  have hbroadcast : ∀ (r₁ : Room) status packages code,
      (r₁.broadcast (.install status packages code)).told key = r₁.told key := by
    intro r₁ status packages code
    exact told_tell r₁ _ key
  obtain ⟨r₁, hplain, heq | heq | ⟨_, cell, program, args, pid, _, _, _, _, heq⟩⟩ :=
    install_cases r packages
  · exact heq ▸ ⟨hplain.unreplied.told key, hplain.unreplied.awaited key⟩
  · rw [heq, hbroadcast]
    exact ⟨hplain.unreplied.told key, hplain.unreplied.awaited key⟩
  · let r₂ : Room := r₁.begun cell program args (.install packages) pid
    have hstatus := Unreplied.setStatus r₂ cell .running
    have htold : r₂.told key = r₁.told key := told_tell _ _ key
    rw [heq, hbroadcast]
    exact ⟨(hstatus.told key).trans (htold.trans (hplain.unreplied.told key)),
      (hstatus.awaited key).trans (hplain.unreplied.awaited key)⟩

/-- A navigation request is answered at once if nobody can be asked, and otherwise its answer
is awaited. -/
theorem navigate_accounts (r : Room) (navigation : Navigation) (query : Query) (key : Key) :
    r.Unserved query ∧
        (r.navigate navigation query).2.told key =
          r.told key + [(navigation, query.request)].count key ∧
        (r.navigate navigation query).2.awaited key = r.awaited key ∨
      ¬r.Unserved query ∧
        (r.navigate navigation query).2.told key = r.told key ∧
        (r.navigate navigation query).2.awaited key =
          r.awaited key + [(navigation, query.request)].count key := by
  obtain ⟨r₁, hplain, ⟨hunserved, heq⟩ | ⟨hserved, ticket, heq⟩⟩ :=
    navigate_cases r navigation query
  · refine Or.inl ⟨hunserved, ?_, ?_⟩
    · rw [heq, told_answer, Answer.navigation_nothing, hplain.unreplied.told]
    · rw [heq]
      exact hplain.unreplied.awaited key
  · refine Or.inr ⟨hserved, ?_, ?_⟩
    · rw [heq]
      exact hplain.unreplied.told key
    · rw [heq, awaited_await, hplain.unreplied.awaited]
      rfl

/-- What a client asks for is answered at once or awaited, if it is a navigation. -/
theorem perform_accounts (r : Room) (sender : ConnectionId) (intent : Intent) (key : Key) :
    (r.perform intent).2.told key + (r.perform intent).2.awaited key =
      r.told key + r.awaited key +
        (Letter.intent sender intent).asks?.toList.count key := by
  have hother : ∀ r' : Room, (Letter.intent sender intent).asks? = none →
      r'.told key = r.told key → r'.awaited key = r.awaited key →
      r'.told key + r'.awaited key = r.told key + r.awaited key +
        (Letter.intent sender intent).asks?.toList.count key := by
    intro r' hnone htold hawaited
    rw [htold, hawaited, hnone]
    rfl
  have hasks : (∃ navigation query, intent = .navigate navigation query) ∨
      (Letter.intent sender intent).asks? = none := by
    cases intent with
    | navigate navigation query => exact Or.inl ⟨navigation, query, rfl⟩
    | _ => exact Or.inr rfl
  rcases hasks with ⟨navigation, query, rfl⟩ | hnone
  · change (r.navigate navigation query).2.told key +
      (r.navigate navigation query).2.awaited key =
        _ + [(navigation, query.request)].count key
    rcases navigate_accounts r navigation query key with ⟨_, htold, hawaited⟩ |
      ⟨_, htold, hawaited⟩
    · omega
    · omega
  · rcases perform_cases r intent with hplain | ⟨packages, heq⟩ | ⟨navigation, query, rfl⟩
    · exact hother _ hnone (hplain.unreplied.told key) (hplain.unreplied.awaited key)
    · have hinstall := install_accounts r packages key
      rw [heq]
      exact hother _ hnone hinstall.1 hinstall.2
    · cases hnone

/-- To handle a letter answers the request whose answer it carries, and makes or awaits the
answer to the request that it makes. -/
theorem receive_accounts (r : Room) (letter : Letter) (key : Key) :
    (r.receive letter).2.told key + (r.receive letter).2.awaited key =
      r.told key + r.awaited key + letter.asks?.toList.count key +
        letter.answers?.toList.count key := by
  have hplain : ∀ r' : Room, Unreplied r r' → r'.told key + r'.awaited key =
      r.told key + r.awaited key + (none : Option Key).toList.count key +
        (none : Option Key).toList.count key := by
    intro r' h
    rw [h.told, h.awaited]
    rfl
  cases letter with
  | intent sender intent =>
      have hperform := perform_accounts r sender intent key
      have hserve : (r.serve sender intent).told key = (r.perform intent).2.told key ∧
          (r.serve sender intent).awaited key = (r.perform intent).2.awaited key := by
        rcases serve_eq r sender intent with heq | ⟨refusal, heq⟩
        · rw [heq]
          exact ⟨rfl, rfl⟩
        · rw [heq]
          have hrefused := Unreplied.tell (r.perform intent).2 (.refusal sender refusal) rfl
          exact ⟨hrefused.told key, hrefused.awaited key⟩
      change (r.serve sender intent).told key + (r.serve sender intent).awaited key = _
      rw [hserve.1, hserve.2, hperform]
      rfl
  | exited cell pid purpose info =>
      change (r.exited cell pid purpose info).told key +
        (r.exited cell pid purpose info).awaited key = _
      rcases exited_cases r cell pid purpose info with ⟨_, heq⟩ | ⟨_, heq⟩
      · rw [heq]
        rfl
      · rw [heq]
        have hended := ended_unreplied r cell
        cases purpose with
        | cell => exact hplain _ hended
        | install packages =>
            have hfinished := (finishInstall_plain (r.ended cell) packages info).unreplied
            have htold : ((r.ended cell).broadcast (.install
                (if info.success then .complete else .failed) packages info.code)).told key =
                (r.ended cell).told key := told_tell _ _ key
            have hrest := hplain _ hended
            rw [← htold] at hrest
            dsimp only
            rw [hfinished.told, hfinished.awaited]
            exact hrest
  | answered request answer =>
      change (r.answer request answer).told key + r.awaited key = _
      rw [told_answer]
      change _ = _ + 0 + [(answer.navigation, request)].count key
      omega
  | snapshot call => exact hplain _ (.tell r _ rfl)
  | close call => exact hplain _ ((teardown_plain r).unreplied.trans (.tell _ _ rfl))

end Room

/-! ## Runs -/

namespace Site

/-- How often an answer to a request has been told. -/
def told (s : Site) (key : Key) : Nat :=
  (s.log.filterMap Effect.answers?).count key

/-- How many answers to a request wait in the mailbox. -/
def queued (s : Site) (key : Key) : Nat :=
  (s.mailbox.filterMap Letter.answers?).count key

/-- How many inquiries stand for a request. -/
def awaited (s : Site) (key : Key) : Nat :=
  (s.actor.inquiries.map Inquiry.key).count key

/-- Every request that has been handled is answered, or its answer waits in the mailbox or
is awaited. -/
def Accounts (s : Site) (asked : List Key) : Prop :=
  ∀ key, asked.count key = s.told key + s.queued key + s.awaited key

variable {s s' : Site}

theorem told_leave (s : Site) (rest : List Letter) (alive : Bool) (r : Room) (key : Key) :
    (s.leave rest alive r).told key = s.told key + r.told key := by
  change ((s.log ++ r.effects).filterMap _).count key = _
  rw [List.filterMap_append, List.count_append]
  rfl

theorem queued_post (halive : s.alive = true) (letter : Letter) (key : Key) :
    (s.post letter).queued key = s.queued key + letter.answers?.toList.count key := by
  unfold post queued
  rw [if_pos halive]
  dsimp only
  rw [List.filterMap_append, List.count_append, filterMap_singleton_eq_toList]

theorem told_post (s : Site) (letter : Letter) (key : Key) :
    (s.post letter).told key = s.told key := by
  unfold told
  rw [log_post]

theorem awaited_post (s : Site) (letter : Letter) (key : Key) :
    (s.post letter).awaited key = s.awaited key := by
  unfold awaited
  rw [actor_post]

/-- An inquiry whose fate becomes known turns into the letter with its answer. -/
theorem concluded_accounts (halive : s.alive = true) {index : Nat} {inquiry : Inquiry}
    {letter : Letter} (hinquiry : s.actor.inquiries[index]? = some inquiry)
    (hletter : s.actor.conclude inquiry = some letter) {s' : Site}
    (hs' : s' = { s with actor.inquiries := s.actor.inquiries.eraseIdx index }.post letter)
    (key : Key) :
    s'.told key = s.told key ∧
      s'.queued key = s.queued key + [inquiry.key].count key ∧
      s'.awaited key + [inquiry.key].count key = s.awaited key := by
  let s₁ : Site := { s with actor.inquiries := s.actor.inquiries.eraseIdx index }
  have halive₁ : s₁.alive = true := halive
  have hrest : s₁.awaited key + [inquiry.key].count key = s.awaited key := by
    obtain ⟨hindex, rfl⟩ := List.getElem?_eq_some_iff.mp hinquiry
    have hperm := (List.getElem_cons_eraseIdx_perm hindex).map Inquiry.key
    rw [awaited, awaited, ← hperm.count_eq key]
    simp only [List.map_cons, List.count_cons, List.count_nil, Nat.zero_add]
    rfl
  change s' = s₁.post letter at hs'
  rw [hs', told_post, queued_post halive₁, awaited_post,
    Actor.answers?_of_conclude hletter]
  exact ⟨rfl, rfl, hrest⟩

/-- What happens without a letter being handled asks for nothing and answers nothing. -/
theorem Aside.accounts (h : s.Aside s') (halive : s.alive = true) {asked : List Key}
    (hs : s.Accounts asked) : s'.Accounts asked := by
  intro key
  rw [hs key]
  cases h with
  | posted letter hresult =>
      have hnone : letter.answers? = none := by
        cases letter with
        | answered _ _ => cases hresult
        | _ => rfl
      rw [told_post, queued_post halive, awaited_post, hnone]
      rfl
  | heard _ =>
      have hplain := (Room.hearNext_plain s.room).unreplied
      rw [told_leave, hplain.told]
      have hawaited : (s.leave s.mailbox true s.room.hearNext).awaited key = s.awaited key :=
        hplain.awaited key
      rw [hawaited]
      rfl
  | concluded index inquiry letter hinquiry hletter =>
      have hconcluded := concluded_accounts halive hinquiry hletter rfl key
      omega
  | passed generation w info hw hevent =>
      let s₁ : Site := { s with
        supervisor := s.supervisor.step generation .take
        watchers := s.watchers.erase generation }
      have halive₁ : s₁.alive = true := halive
      change _ = (s₁.post _).told key + (s₁.post _).queued key + (s₁.post _).awaited key
      rw [told_post, queued_post halive₁, awaited_post]
      rfl
  | elsewhere hmailbox hinquiries _ _ hlog =>
      obtain ⟨told, hlog, hnone⟩ := hlog
      have htold : s'.told key = s.told key := by
        unfold Site.told
        rw [hlog, List.filterMap_append, List.filterMap_eq_nil_iff.mpr fun e he =>
          Effect.answers?_of_isReply (hnone e he).2, List.append_nil]
      have hqueued : s'.queued key = s.queued key := by
        unfold queued
        rw [hmailbox]
      have hawaited : s'.awaited key = s.awaited key := by
        unfold awaited
        rw [hinquiries]
      rw [htold, hqueued, hawaited]

/-- The counts agree after a step of an actor that stays. -/
theorem step_accounts {asked : List Key} (hs : s.Accounts asked) (e : Event)
    (halive : (s.step e).alive = true) :
    (s.step e).Accounts (asked ++ (s.due e).toList.filterMap Letter.asks?) := by
  rcases step_cases s e with ⟨letter, rest, hdue, _, hmailbox, hstep⟩ | ⟨hdue, haside⟩
  · intro key
    have hgoes : (s.room.receive letter).1 = true := by
      rw [hstep] at halive
      exact halive
    have hreceive := Room.receive_accounts s.room letter key
    have hqueued : s.queued key = letter.answers?.toList.count key +
        (rest.filterMap Letter.answers?).count key := by
      rw [queued, hmailbox, filterMap_cons_eq_append, List.count_append]
    have hrest : (s.step e).queued key = (rest.filterMap Letter.answers?).count key := by
      rw [hstep]
      simp only [queued, leave, hgoes]
      rfl
    have htold : (s.step e).told key = s.told key + (s.room.receive letter).2.told key := by
      rw [hstep, told_leave]
    have hawaited : (s.step e).awaited key = (s.room.receive letter).2.awaited key := by
      rw [hstep]
      rfl
    have hroom : s.room.told key = 0 ∧ s.room.awaited key = s.awaited key := ⟨rfl, rfl⟩
    rw [List.count_append, hdue, Option.toList_some, filterMap_singleton_eq_toList, hs key,
      htold, hrest, hawaited, hqueued]
    omega
  · rw [hdue]
    simp only [Option.toList_none, List.filterMap_nil, List.append_nil]
    exact haside.accounts ((turn_step s e).alive halive) hs

/-- The counts agree after a run of an actor that stays. -/
theorem run_accounts (events : List Event) {asked : List Key} (hs : s.Accounts asked)
    (halive : (s.run events).alive = true) :
    (s.run events).Accounts (asked ++ (s.handled events).filterMap Letter.asks?) := by
  induction events generalizing s asked with
  | nil =>
      change s.Accounts (asked ++ [])
      rwa [List.append_nil]
  | cons e rest ih =>
      have hstep := step_accounts hs e (alive_of_run rest halive)
      have hrest := ih hstep halive
      rwa [List.append_assoc, ← List.filterMap_append] at hrest

/-! ## Delivery -/

theorem told_le_run (events : List Event) (s : Site) (key : Key) :
    s.told key ≤ (s.run events).told key :=
  ((prefix_log_run events s).filterMap _).sublist.count_le key

theorem Aside.mailbox (h : s.Aside s') (halive : s.alive = true) :
    s.mailbox <+: s'.mailbox := by
  have hpost : ∀ (s₁ : Site) letter, s₁.alive = true →
      s₁.mailbox <+: (s₁.post letter).mailbox := by
    intro s₁ letter halive₁
    rw [post, if_pos halive₁]
    exact List.prefix_append _ _
  cases h with
  | posted letter _ => exact hpost s letter halive
  | heard _ => exact List.prefix_rfl
  | concluded index inquiry letter _ _ =>
      exact hpost { s with actor.inquiries := s.actor.inquiries.eraseIdx index } letter halive
  | passed generation w info _ _ =>
      exact hpost { s with
        supervisor := s.supervisor.step generation .take
        watchers := s.watchers.erase generation } _ halive
  | elsewhere hmailbox _ _ _ _ => exact hmailbox ▸ List.prefix_rfl

/-- An answer in a letter is told when the letter is handled. -/
theorem answers?_le_told_receive (r : Room) (letter : Letter) (key : Key) :
    letter.answers?.toList.count key ≤ (r.receive letter).2.told key := by
  cases letter with
  | answered request answer =>
      change _ ≤ (r.answer request answer).told key
      rw [Room.told_answer]
      exact Nat.le_add_left _ _
  | _ => exact Nat.zero_le _

/-- The answers among the first letters of the mailbox have been told when the actor has
worked as often as there are such letters. -/
theorem told_of_works (later : List Event) {waiting rest : List Letter}
    (hmailbox : s.mailbox = waiting ++ rest) (halive : (s.run later).alive = true)
    (hworks : waiting.length ≤ later.countP Event.isWork) (key : Key) :
    s.told key + (waiting.filterMap Letter.answers?).count key ≤ (s.run later).told key := by
  -- Work takes the first letter off, and whatever else happens leaves it there and may add
  -- others at the end.
  induction later generalizing s waiting rest with
  | nil =>
      obtain rfl := List.length_eq_zero_iff.mp (Nat.le_zero.mp hworks)
      exact Nat.le_refl _
  | cons e later ih =>
      cases waiting with
      | nil => exact told_le_run (e :: later) s key
      | cons letter waiting =>
          have hstays : (s.step e).alive = true := alive_of_run later halive
          have hbefore := (turn_step s e).alive hstays
          change _ ≤ ((s.step e).run later).told key
          rcases step_cases s e with ⟨letter', rest', hdue, _, hcons, hstep⟩ | ⟨hdue, haside⟩
          · obtain ⟨rfl, rfl⟩ := List.cons.inj (hcons.symm.trans hmailbox)
            have hgoes : (s.room.receive letter').1 = true := by
              rw [hstep] at hstays
              exact hstays
            have hleft : (s.step e).mailbox = waiting ++ rest := by
              rw [hstep]
              simp only [leave, hgoes]
              rfl
            have hwork : Event.isWork e = true := by
              cases e with
              | work => rfl
              | _ => cases hdue
            have hnext := ih hleft halive (by
              simpa [List.countP_cons, hwork] using hworks)
            have htold : (s.step e).told key =
                s.told key + (s.room.receive letter').2.told key := by
              rw [hstep, told_leave]
            have hletter := answers?_le_told_receive s.room letter' key
            have hcount : ((letter' :: waiting).filterMap Letter.answers?).count key =
                letter'.answers?.toList.count key +
                  (waiting.filterMap Letter.answers?).count key := by
              rw [filterMap_cons_eq_append, List.count_append]
            omega
          · have hidle : Event.isWork e = false := by
              cases e with
              | work => simp [due, hbefore, hmailbox] at hdue
              | _ => rfl
            obtain ⟨new, hnew⟩ := haside.mailbox hbefore
            have hkept : (s.step e).mailbox = (letter :: waiting) ++ (rest ++ new) := by
              rw [← hnew, hmailbox, List.append_assoc]
            have hsame : s.told key ≤ (s.step e).told key := told_le_run [e] s key
            have hnext := ih hkept halive (by
              simpa [List.countP_cons, hidle] using hworks)
            omega

/-! ## Fates -/

/-- An inquiry whose fate is not known waits for the attached instance. -/
theorem waiting_of_conclude (h : s.actor.Narrated) {i : Inquiry}
    (hnone : s.actor.conclude i = none) :
    ∃ b t, s.actor.bridge = some b ∧ i.ticket = some t ∧ t ∈ b.waiting ∧
      b.attached = some t.generation := by
  obtain ⟨t, hticket, hwaits⟩ := Actor.mem_waiting_of_conclude hnone
  cases hbridge : s.actor.bridge with
  | none =>
      rw [h.nobody hbridge] at hwaits
      cases hwaits
  | some b =>
      have hledger : s.actor.ledger = b := by
        unfold Actor.ledger
        rw [hbridge]
        rfl
      rw [hledger] at hwaits
      exact ⟨b, t, rfl, hticket, hwaits, (h.bridge hbridge).2 t hwaits⟩

/-- What ends the waiting for its ticket decides the fate of an inquiry. -/
theorem conclude_of_ends (s : Site) {i : Inquiry} {t : Ticket} {incident : Incident}
    (hticket : i.ticket = some t) (hends : Beat.Ends t (.incident incident)) :
    (s.step (.happens incident)).actor.conclude i ≠ none := by
  intro hnone
  obtain ⟨t', hticket', hwaits⟩ := Actor.mem_waiting_of_conclude hnone
  obtain rfl := Option.some.inj (hticket.symm.trans hticket')
  have hledger : (s.step (.happens incident)).actor.ledger =
      s.actor.ledger.beat (.incident incident) :=
    Actor.ledger_withLedger s.actor _
  rw [hledger, Bridge.mem_waiting_beat] at hwaits
  rcases hwaits with heq | ⟨_, hnever⟩
  · cases heq
  · exact hnever hends

/-! ## Navigation requests -/

/-- A request that is handled is answered if nobody can be asked, and awaited otherwise. -/
theorem work_navigate (halive : s.alive = true) {client : ConnectionId}
    {navigation : Navigation} {query : Query} {rest : List Letter}
    (hmailbox : s.mailbox = .intent client (.navigate navigation query) :: rest) :
    (s.room.Unserved query ∧
      s.work.told (navigation, query.request) = s.told (navigation, query.request) + 1) ∨
    ¬s.room.Unserved query ∧
      s.work.told (navigation, query.request) = s.told (navigation, query.request) ∧
      s.work.awaited (navigation, query.request) =
        s.awaited (navigation, query.request) + 1 := by
  have hreceive : (s.room.receive (.intent client (.navigate navigation query))).2 =
      (s.room.navigate navigation query).2 := by
    obtain ⟨r₁, _, ⟨_, heq⟩ | ⟨_, ticket, heq⟩⟩ :=
      Room.navigate_cases s.room navigation query
    · simp only [Room.receive, Room.serve, Room.perform, heq]
    · simp only [Room.receive, Room.serve, Room.perform, heq]
  have hwork : s.work = s.leave rest true (s.room.navigate navigation query).2 := by
    rw [← hreceive]
    unfold work
    rw [halive, hmailbox]
    rfl
  have hroom : s.room.told (navigation, query.request) = 0 := rfl
  have hone : [(navigation, query.request)].count (navigation, query.request) = 1 :=
    List.count_singleton_self
  rw [hwork, told_leave]
  rcases Room.navigate_accounts s.room navigation query (navigation, query.request) with
    ⟨hunserved, htold, _⟩ | ⟨hserved, htold, hawaited⟩
  · exact Or.inl ⟨hunserved, by omega⟩
  · exact Or.inr ⟨hserved, by omega, hawaited.trans (by rw [hone]; rfl)⟩

/-- The navigation requests `asked` are answered, each of them once, or will be. -/
structure Answers (s : Site) (asked : List Key) : Prop where
  /-- Every request has one answer that has been told, one in the mailbox or one inquiry. -/
  accounts : s.Accounts asked
  /-- A request that is at the head of the mailbox is answered when it is handled if nobody
  can be asked, and becomes an inquiry otherwise. -/
  handled : ∀ client navigation query rest,
    s.mailbox = .intent client (.navigate navigation query) :: rest →
      (s.room.Unserved query ∧
        s.work.told (navigation, query.request) = s.told (navigation, query.request) + 1) ∨
      ¬s.room.Unserved query ∧
        s.work.told (navigation, query.request) = s.told (navigation, query.request) ∧
        s.work.awaited (navigation, query.request) =
          s.awaited (navigation, query.request) + 1
  /-- Inquiries whose fate is not known wait for an instance that is still attached. -/
  pending : ∀ i ∈ s.actor.inquiries, s.actor.conclude i = none →
    ∃ b t, s.actor.bridge = some b ∧ i.ticket = some t ∧ t ∈ b.waiting ∧
      b.attached = some t.generation
  /-- Their fate is known as soon as the instance responds, its waiting list is dropped or
  their time is up. -/
  settles : ∀ i ∈ s.actor.inquiries, ∀ t incident, i.ticket = some t →
    Beat.Ends t (.incident incident) →
      (s.step (.happens incident)).actor.conclude i ≠ none
  /-- Once its fate is known, an inquiry turns into one letter that answers its request. -/
  concluded : ∀ (index : Nat) i letter, s.actor.inquiries[index]? = some i →
    s.actor.conclude i = some letter →
      (∃ answer, letter = .answered i.request answer ∧ answer.navigation = i.navigation) ∧
      (s.step (.conclude index)).queued i.key = s.queued i.key + 1 ∧
      (s.step (.conclude index)).awaited i.key + 1 = s.awaited i.key
  /-- The answers in the mailbox have been told when the mailbox has been worked off. -/
  delivered : ∀ later key, (s.run later).alive = true →
    s.mailbox.length ≤ later.countP Event.isWork →
      s.told key + s.queued key ≤ (s.run later).told key
  /-- By then every request that nobody waits for has exactly one answer. -/
  complete : ∀ later key, (s.run later).alive = true →
    s.mailbox.length ≤ later.countP Event.isWork → s.awaited key = 0 →
      key ∉ (s.handled later).filterMap Letter.asks? →
        (s.run later).told key = asked.count key
  /-- The answers that have been told make frames for the clients. -/
  framed : ∀ notice, .notice notice ∈ s.log → notice.answers?.isSome = true →
    (Frame.encode s.actor.session.id notice).isSome = true

/-- Let anything happen to a session after its opening.  As long as the actor handles
letters, no navigation request is answered twice and none is lost. -/
theorem navigation_answered (facilities : Facilities) (spawner : Spawner) (disk : Disk)
    (supervisor : Supervisor) (session : Session) (events : List Event) :
    let start := opened facilities spawner disk supervisor session
    (start.run events).alive = true →
      (start.run events).Answers ((start.handled events).filterMap Letter.asks?) := by
  intro start halive
  have hnarrated : (start.run events).actor.Narrated :=
    run_narrated (opened_narrated facilities spawner disk supervisor session) events
  have hstart : start.Accounts [] := fun _ => rfl
  have haccounts := run_accounts events hstart halive
  rw [List.nil_append] at haccounts
  generalize start.run events = s at halive hnarrated haccounts ⊢
  have hdelivered : ∀ later key, (s.run later).alive = true →
      s.mailbox.length ≤ later.countP Event.isWork →
        s.told key + s.queued key ≤ (s.run later).told key := by
    intro later key hlater hworks
    exact told_of_works later (List.append_nil _).symm hlater hworks key
  refine ⟨haccounts, fun client navigation query rest => work_navigate halive,
    fun i _ => waiting_of_conclude hnarrated, fun i _ t incident => conclude_of_ends s, ?_,
    hdelivered, ?_, ?_⟩
  · intro index i letter hinquiry hletter
    have hstep : s.step (.conclude index) =
        { s with actor.inquiries := s.actor.inquiries.eraseIdx index }.post letter := by
      simp only [step, conclude, hinquiry, hletter]
    obtain ⟨_, hqueued, hawaited⟩ := concluded_accounts halive hinquiry hletter hstep i.key
    rw [List.count_singleton_self] at hqueued hawaited
    exact ⟨Actor.answer_of_conclude hletter, hqueued, hawaited⟩
  · -- Nothing is asked for any more, so the answers that are owed now are all that can come.
    intro later key hlater hworks hnone hasked
    have htold := hdelivered later key hlater hworks
    have hend := run_accounts later haccounts hlater key
    rw [List.count_append, List.count_eq_zero_of_not_mem hasked] at hend
    have hstart := haccounts key
    omega
  · intro notice _ _
    rw [Frame.encode_eq]
    rfl

/-- Two requests have the same name.  One is about a cell that is deleted before the service
answers, the other about no cell. -/
theorem navigation_answered_deleted :
    let session : Session := ⟨⟨"s"⟩, "/book", .typescript,
      [.code ⟨⟨"x"⟩, "1", "a.ts", .typescript, .idle⟩]⟩
    let start := opened ⟨.standard, .standard, []⟩ (fun _ _ => .ok 7) .empty (.new 16) session
    let events : List Event := [.send ⟨0⟩ (.navigate .quickinfo ⟨⟨"q"⟩, ⟨"x"⟩, 0⟩),
      .send ⟨0⟩ (.navigate .quickinfo ⟨⟨"q"⟩, ⟨"y"⟩, 0⟩), .work, .work,
      .send ⟨0⟩ (.delete ⟨"x"⟩), .work, .happens (.frame 1
        (Json.ofFields [("type", .string "response"), ("request_seq", .nat 2)])),
      .conclude 0, .work]
    (start.run events).alive = true ∧
      (start.run events).Answers ((start.handled events).filterMap Letter.asks?) ∧
      (start.run events).told (.quickinfo, ⟨"q"⟩) = 2 := by
  intro session start events
  have halive : (start.run events).alive = true := by decide +kernel
  exact ⟨halive, navigation_answered _ _ _ _ session events halive, by decide +kernel⟩

end Site
end Notebook
