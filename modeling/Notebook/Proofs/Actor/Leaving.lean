import Notebook.Proofs.Actor.Executions
import Notebook.Proofs.Actor.Replies
import Notebook.Proofs.Actor.Snapshots

/-!
# Residents that leave

To close a session is to take it out of the table first and to let its resident handle what is
still in the mailbox afterwards.  In between the resident owns the session although the table
does not list it, and the session may be opened again.

It does so only while a call is closing it.  `Ordered` says that a resident that still handles
letters is listed for its session or is being closed by a call, but never both, and that such a
call is not ended by an answer that is meant for another one.

* `Ordered.put`, `Ordered.begin`, `Ordered.entered`, `Ordered.leave`: what becomes of it when a
  call goes on, when one begins, when a session is entered and when a resident has worked.
* `step_ordered`, `run_ordered`: a coordinator stays ordered, whatever happens to it.
* `Ordered.leaving`: of two residents that own a session one is leaving.
* `Ordered.dispatch_ne_closing`: no sender is ever told that a session is closing.
-/

set_option autoImplicit false

namespace Notebook

/-! ## Calls -/

/-- The call is to close this resident. -/
def Errand.closes (resident : Nat) : Errand → Bool
  | .close residents _ => residents.contains resident
  | .closing residents _ => residents.contains resident
  | _ => false

/-- The call waits for the cells of a session, or for nothing more. -/
def Errand.isInquiry : Errand → Bool
  | .ask _ _ => true
  | .asking _ _ => true
  | .finished _ => true
  | _ => false

theorem Errand.closes_of_isInquiry {errand : Errand} (h : errand.isInquiry = true)
    (resident : Nat) : errand.closes resident = false := by
  cases errand <;> first | rfl | cases h

namespace Coordinator

/-- The resident still handles letters for the session of this name. -/
def Owns (c : Coordinator) (resident : Nat) (session : SessionId) : Prop :=
  ∃ r ∈ c.residents.find? resident, r.alive = true ∧ r.actor.session.id = session

instance (c : Coordinator) (resident : Nat) (session : SessionId) :
    Decidable (c.Owns resident session) :=
  inferInstanceAs (Decidable (∃ r ∈ c.residents.find? resident, _ ∧ _))

/-- A call is closing the resident. -/
def Leaving (c : Coordinator) (resident : Nat) : Prop :=
  ∃ call, ∃ errand ∈ c.errands.find? call, errand.closes resident = true

instance (c : Coordinator) (resident : Nat) : Decidable (c.Leaving resident) :=
  decidable_of_iff (∃ call ∈ c.errands.keys, ∃ errand ∈ c.errands.find? call,
      errand.closes resident = true) <| by
    refine ⟨fun ⟨call, _, h⟩ => ⟨call, h⟩, fun ⟨call, errand, hfind, h⟩ => ?_⟩
    exact ⟨call, Table.mem_keys_of_find? hfind, errand, hfind, h⟩

/-- The answer to this call may end it. -/
def Inquires (c : Coordinator) (call : Nat) : Prop :=
  ∃ errand ∈ c.errands.find? call, errand.isInquiry = true

/-- The table lists owners that are not leaving, and all of them.  Who has got its last letter is
leaving, and a call that a resident is to show its cells to waits for them. -/
structure Ordered (c : Coordinator) : Prop where
  calls : ∀ call, c.errands.size ≤ call → c.errands.find? call = none
  known : ∀ i, c.Leaving i → i < c.residents.size
  listed : ∀ entry ∈ c.table.entries, c.Owns entry.2 entry.1 ∧ ¬c.Leaving entry.2
  owned : ∀ i session, c.Owns i session → c.table.find? session = some i ∨ c.Leaving i
  last : ∀ i r call, c.residents.find? i = some r → r.alive = true → .close call ∈ r.mailbox →
    c.Leaving i
  asked : ∀ i r call, c.residents.find? i = some r → .snapshot call ∈ r.mailbox → c.Inquires call

variable {c c' : Coordinator} {call other i : Nat} {session session' : SessionId}

theorem ordered_new (facilities : Facilities) (spawner : Spawner) (disk : Disk)
    (supervisor : Supervisor) : (new facilities spawner disk supervisor).Ordered where
  calls _ _ := rfl
  known i h := by
    obtain ⟨_, _, hfind, _⟩ := h
    cases hfind
  listed _ h := by cases h
  owned i session h := by
    obtain ⟨r, hr, _⟩ := h
    cases hr
  last i r call hr := by cases hr
  asked i r call hr := by cases hr

/-! ## Owners -/

/-- Who owns a session is alive. -/
theorem Owns.isAlive (h : c.Owns i session) : c.isAlive i = true := by
  obtain ⟨r, hr, halive, _⟩ := h
  rw [Coordinator.isAlive, hr, Option.any_some, halive]

theorem Owns.session_eq (h : c.Owns i session) (h' : c.Owns i session') : session = session' := by
  obtain ⟨r, hr, _, rfl⟩ := h
  obtain ⟨r', hr', _, rfl⟩ := h'
  obtain rfl := Option.some.inj (hr.symm.trans hr')
  rfl

theorem Owns.lt (h : c.Owns i session) (hnumbered : c.Numbered) : i < c.residents.size := by
  obtain ⟨r, hr, _⟩ := h
  exact hnumbered.lt hr

/-- To change a resident is not to make it an owner, or to end it. -/
theorem owns_change {f : Resident → Resident}
    (hf : ∀ r, (f r).alive = r.alive ∧ (f r).actor.session.id = r.actor.session.id) :
    (c.change other f).Owns i session ↔ c.Owns i session := by
  unfold Owns
  rw [find?_change]
  split
  · cases hr : c.residents.find? i with
    | none => simp
    | some r => simp [hf r]
  · exact Iff.rfl

/-- Neither is to work in a room for the same session to make one an owner. -/
theorem Owns.of_leave {actor : Actor} {mailbox rest : List Letter} {alive : Bool} {room : Room}
    (h : (c.leave other rest alive room).Owns i session)
    (hfind : c.residents.find? other = some ⟨actor, mailbox, true⟩)
    (hid : room.actor.session.id = actor.session.id) : c.Owns i session := by
  obtain ⟨errands, heq⟩ := leave_eq c other rest alive room
  obtain ⟨r, hr, halive, hname⟩ := h
  rw [heq] at hr
  change (c.residents.set other _).find? i = some r at hr
  rw [Table.find?_set] at hr
  split at hr
  · next hi =>
      obtain rfl := Option.some.inj hr
      exact ⟨_, hi ▸ hfind, rfl, hid.symm.trans hname⟩
  · exact ⟨r, hr, halive, hname⟩

/-- Who owns a session after one was entered has owned it before, or is the new resident. -/
theorem Owns.of_entered {new : Session} (h : (c.entered new).Owns i session) :
    c.Owns i session ∨ i = c.residents.size ∧ session = new.id := by
  obtain ⟨r, hr, halive, hname⟩ := h
  change (c.residents.set _ _).find? i = some r at hr
  rw [Table.find?_set] at hr
  split at hr
  · next hi =>
      obtain rfl := Option.some.inj hr
      exact Or.inr ⟨hi.symm, hname.symm⟩
  · exact Or.inl ⟨r, hr, halive, hname⟩

theorem errands_put (c : Coordinator) (call : Nat) (errand : Errand) (call' : Nat) :
    (c.put call errand).errands.find? call' =
      if call = call' then some errand else c.errands.find? call' :=
  Table.find?_set _ _ _ _

namespace Ordered

/-- Of two residents that own a session one is leaving. -/
theorem leaving (h : c.Ordered) {j : Nat} (hi : c.Owns i session) (hj : c.Owns j session)
    (hne : i ≠ j) : c.Leaving i ∨ c.Leaving j := by
  rcases h.owned i session hi with hlisted | hleaving
  · rcases h.owned j session hj with hlisted' | hleaving
    · exact absurd (Option.some.inj (hlisted.symm.trans hlisted')) hne
    · exact Or.inr hleaving
  · exact Or.inl hleaving

/-- An open session has an owner that is not leaving. -/
theorem owns_of_find? (h : c.Ordered) (hlisted : c.table.find? session = some i) :
    c.Owns i session ∧ ¬c.Leaving i :=
  h.listed (session, i) (Table.mem_of_lookup session i _ hlisted)

/-- Who closes a session has taken it out of the table, so no sender is ever told that it is
closing. -/
theorem dispatch_ne_closing (h : c.Ordered) (sender : ConnectionId) (message : Message) :
    (c.dispatch sender message).1 ≠ some (.closing message.session) := by
  unfold dispatch
  split
  · nofun
  · next resident hfind =>
      rw [(h.owns_of_find? hfind).1.isAlive]
      simp only [Bool.not_true, Bool.false_eq_true, if_false]
      split <;> nofun

/-! ## Calls that begin and go on -/

/-- A call that goes on closes nobody whom it did not close before, and still closes everybody
who handles letters. -/
theorem put (h : c.Ordered) {old errand : Errand} (hold : c.errands.find? call = some old)
    (hcloses : ∀ i, errand.closes i = true → old.closes i = true)
    (hkeeps : ∀ i session, c.Owns i session → old.closes i = true → errand.closes i = true)
    (hinquiry : old.isInquiry = true → errand.isInquiry = true) : (c.put call errand).Ordered := by
  have hleft : ∀ i, (c.put call errand).Leaving i → c.Leaving i := by
    rintro i ⟨k, closing, hk, hi⟩
    rw [errands_put] at hk
    split at hk
    · obtain rfl := Option.some.inj hk
      exact ⟨call, old, hold, hcloses i hi⟩
    · exact ⟨k, closing, hk, hi⟩
  have hstays : ∀ i session, c.Owns i session → c.Leaving i → (c.put call errand).Leaving i := by
    rintro i session howns ⟨k, closing, hk, hi⟩
    by_cases heq : call = k
    · subst heq
      obtain rfl := Option.some.inj (hold.symm.trans hk)
      exact ⟨call, errand, (errands_put _ _ _ _).trans (if_pos rfl), hkeeps i session howns hi⟩
    · exact ⟨k, closing, ((errands_put _ _ _ _).trans (if_neg heq)).trans hk, hi⟩
  constructor
  · intro k hk
    have hnone := h.calls k (Table.size_set_of_find? hold errand ▸ hk)
    rw [errands_put, if_neg ?_]
    · exact hnone
    · rintro rfl
      rw [hold] at hnone
      cases hnone
  · exact fun i hi => h.known i (hleft i hi)
  · exact fun entry hentry => (h.listed entry hentry).imp_right fun hnot hi => hnot (hleft _ hi)
  · exact fun i session howns => (h.owned i session howns).imp_right (hstays i session howns)
  · exact fun i r k hr halive hmem =>
      hstays i _ ⟨r, hr, halive, rfl⟩ (h.last i r k hr halive hmem)
  · intro i r k hr hmem
    obtain ⟨asking, hk, hasking⟩ := h.asked i r k hr hmem
    by_cases heq : call = k
    · subst heq
      obtain rfl := Option.some.inj (hold.symm.trans hk)
      exact ⟨errand, (errands_put _ _ _ _).trans (if_pos rfl), hinquiry hasking⟩
    · exact ⟨asking, ((errands_put _ _ _ _).trans (if_neg heq)).trans hk, hasking⟩

/-- A call goes on that closes nobody and has not asked for cells. -/
theorem goesOn (h : c.Ordered) {old errand : Errand} (hold : c.errands.find? call = some old)
    (hold' : ∀ i, old.closes i = false) (hinquiry : old.isInquiry = false)
    (hnew : ∀ i, errand.closes i = false) : (c.put call errand).Ordered := by
  refine h.put hold (fun i hi => ?_) (fun i _ _ hi => ?_) fun hasks => ?_
  · rw [hnew] at hi
    cases hi
  · rw [hold'] at hi
    cases hi
  · rw [hinquiry] at hasks
    cases hasks

/-- A call that has asked for cells goes on, and closes nobody either. -/
theorem inquires (h : c.Ordered) (hold : c.Inquires call) {errand : Errand}
    (hinquiry : errand.isInquiry = true) : (c.put call errand).Ordered := by
  obtain ⟨old, hold, hasked⟩ := hold
  refine h.put hold (fun i hi => ?_) (fun i _ _ hi => ?_) fun _ => hinquiry
  · rw [errand.closes_of_isInquiry hinquiry i] at hi
    cases hi
  · rw [old.closes_of_isInquiry hasked i] at hi
    cases hi

/-- A call begins.  It closes just those whom it takes out of the table. -/
theorem begin (h : c.Ordered) (hnumbered : c.Numbered) (table : Table SessionId Nat)
    {errand : Errand}
    (hrest : ∀ entry ∈ table.entries, entry ∈ c.table.entries ∧ errand.closes entry.2 = false)
    (htaken : ∀ session i, c.table.find? session = some i →
      table.find? session = some i ∨ errand.closes i = true)
    (hcloses : ∀ i, errand.closes i = true → ∃ entry ∈ c.table.entries, entry.2 = i) :
    ({ c with table }.begin errand).2.Ordered := by
  have hnew : ∀ k known, c.errands.find? k = some known →
      (c.errands.set c.errands.size errand).find? k = some known := by
    intro k known hk
    rw [Table.find?_set, if_neg, hk]
    rintro rfl
    rw [h.calls _ (Nat.le_refl _)] at hk
    cases hk
  have hleft : ∀ i, ({ c with table }.begin errand).2.Leaving i →
      c.Leaving i ∨ errand.closes i = true := by
    rintro i ⟨k, closing, hk, hi⟩
    change (c.errands.set c.errands.size errand).find? k = some closing at hk
    rw [Table.find?_set] at hk
    split at hk
    · obtain rfl := Option.some.inj hk
      exact Or.inr hi
    · exact Or.inl ⟨k, closing, hk, hi⟩
  have hstays : ∀ i, c.Leaving i → ({ c with table }.begin errand).2.Leaving i :=
    fun i ⟨k, closing, hk, hi⟩ => ⟨k, closing, hnew k closing hk, hi⟩
  constructor
  · intro k hk
    change (c.errands.set c.errands.size errand).size ≤ k at hk
    change (c.errands.set c.errands.size errand).find? k = none
    rw [Table.size_set, if_neg] at hk
    · rw [Table.find?_set, if_neg (by omega)]
      exact h.calls k (by omega)
    · rw [← Table.find?_eq_none_iff]
      exact h.calls _ (Nat.le_refl _)
  · intro i hi
    rcases hleft i hi with hbefore | hnow
    · exact h.known i hbefore
    · obtain ⟨entry, hentry, rfl⟩ := hcloses i hnow
      exact (h.listed entry hentry).1.lt hnumbered
  · intro entry hentry
    obtain ⟨hbefore, hspared⟩ := hrest entry hentry
    refine (h.listed entry hbefore).imp_right fun hnot hi => ?_
    rcases hleft _ hi with hleaving | hnow
    · exact hnot hleaving
    · rw [hspared] at hnow
      cases hnow
  · intro i session howns
    rcases h.owned i session howns with hlisted | hleaving
    · refine (htaken session i hlisted).imp_right fun hnow => ?_
      exact ⟨c.errands.size, errand, (Table.find?_set _ _ _ _).trans (if_pos rfl), hnow⟩
    · exact Or.inr (hstays i hleaving)
  · exact fun i r k hr halive hmem => hstays i (h.last i r k hr halive hmem)
  · intro i r k hr hmem
    obtain ⟨asking, hk, hasking⟩ := h.asked i r k hr hmem
    exact ⟨asking, hnew k asking hk, hasking⟩

/-- A call begins that leaves the table alone. -/
theorem begins (h : c.Ordered) (hnumbered : c.Numbered) {errand : Errand}
    (hcloses : ∀ i, errand.closes i = false) : (c.begin errand).2.Ordered := by
  refine h.begin hnumbered c.table (fun entry hentry => ⟨hentry, hcloses entry.2⟩)
    (fun _ _ => Or.inl) fun i hi => ?_
  rw [hcloses] at hi
  cases hi

theorem beginClose (h : c.Ordered) (hnumbered : c.Numbered) (session : SessionId) :
    (c.beginClose session).2.Ordered := by
  unfold Coordinator.beginClose
  split
  · next resident hfind =>
      have hmem := Table.mem_of_lookup session resident _ hfind
      refine h.begin hnumbered _ (fun entry hentry => ?_) (fun name i hlisted => ?_)
        fun i hi => ?_
      · -- Another session is listed with another resident.
        obtain ⟨hbefore, hne⟩ := List.mem_filter.mp hentry
        refine ⟨hbefore, ?_⟩
        by_contra hcloses
        have heq : entry.2 = resident := by simpa [Errand.closes] using hcloses
        have howns := (h.listed entry hbefore).1
        rw [heq] at howns
        exact of_decide_eq_true hne (howns.session_eq (h.listed _ hmem).1)
      · rw [Table.find?_erase]
        split
        · next heq =>
            obtain rfl := Option.some.inj (hfind.symm.trans (heq ▸ hlisted))
            exact Or.inr (by simp [Errand.closes])
        · exact Or.inl hlisted
      · have heq : i = resident := by simpa [Errand.closes] using hi
        exact ⟨_, hmem, heq.symm⟩
  · exact h.begins hnumbered fun _ => rfl

theorem beginShutdown (h : c.Ordered) (hnumbered : c.Numbered) :
    c.beginShutdown.2.Ordered := by
  refine h.begin hnumbered _ (by simp [Table.empty]) (fun name i hlisted => Or.inr ?_)
    fun i hi => ?_
  · rw [Errand.closes, List.contains_iff_mem]
    exact List.mem_map_of_mem (Table.mem_of_lookup name i _ hlisted)
  · rw [Errand.closes, List.contains_iff_mem] at hi
    exact List.mem_map.mp hi

/-! ## Residents -/

/-- A resident is changed and goes on, and gets no letters on behalf of calls that are not to
send them. -/
theorem change (h : c.Ordered) {f : Resident → Resident}
    (hf : ∀ r, (f r).alive = r.alive ∧ (f r).actor.session.id = r.actor.session.id)
    (hlast : ∀ r k, .close k ∈ (f r).mailbox → .close k ∈ r.mailbox ∨ c.Leaving other)
    (hasked : ∀ r k, .snapshot k ∈ (f r).mailbox → .snapshot k ∈ r.mailbox ∨ c.Inquires k) :
    (c.change other f).Ordered := by
  have howns : ∀ i session, (c.change other f).Owns i session ↔ c.Owns i session :=
    fun i session => owns_change hf
  have hsize : (c.change other f).residents.size = c.residents.size := by
    unfold Coordinator.change
    split
    · next r hr => exact Table.size_set_of_find? hr _
    · rfl
  have hfind := find?_change c other f
  obtain ⟨residents, heq⟩ := change_eq c other f
  rw [heq] at howns hsize hfind ⊢
  constructor
  · exact h.calls
  · exact fun i hi => hsize ▸ h.known i hi
  · exact fun entry hentry => (h.listed entry hentry).imp_left (howns _ _).mpr
  · exact fun i session hi => h.owned i session ((howns i session).mp hi)
  · intro i r' k hr' halive hmem
    rw [hfind] at hr'
    split at hr'
    · next hi =>
        obtain ⟨r, hr, rfl⟩ := Option.map_eq_some_iff.mp hr'
        rcases hlast r k hmem with hbefore | hleaving
        · exact h.last i r k hr ((hf r).1 ▸ halive) hbefore
        · exact hi ▸ hleaving
    · exact h.last i r' k hr' halive hmem
  · intro i r' k hr' hmem
    rw [hfind] at hr'
    split at hr'
    · obtain ⟨r, hr, rfl⟩ := Option.map_eq_some_iff.mp hr'
      exact (hasked r k hmem).elim (h.asked i r k hr) id
    · exact h.asked i r' k hr' hmem

theorem post (h : c.Ordered) (other : Nat) {letter : Letter}
    (hlast : ∀ k, letter = .close k → c.Leaving other)
    (hasked : ∀ k, letter = .snapshot k → c.Inquires k) : (c.post other letter).Ordered := by
  refine h.change (fun r => ?_) (fun r k hmem => ?_) fun r k hmem => ?_
  · split <;> exact ⟨rfl, rfl⟩
  · split at hmem
    · exact (List.mem_append.mp hmem).imp_right fun hnew =>
        hlast k (List.mem_singleton.mp hnew).symm
    · exact Or.inl hmem
  · split at hmem
    · exact (List.mem_append.mp hmem).imp_right fun hnew =>
        hasked k (List.mem_singleton.mp hnew).symm
    · exact Or.inl hmem

theorem withLedger (h : c.Ordered) (other : Nat) (f : Bridge → Bridge) :
    (c.withLedger other f).Ordered :=
  h.change (fun r => ⟨rfl, congrArg Session.id (session_withLedger r.actor _)⟩)
    (fun _ _ => Or.inl) fun _ _ => Or.inl

/-- To conclude inquiries is to get answers. -/
theorem conclude (h : c.Ordered) (other : Nat) : (c.conclude other).Ordered := by
  have hanswers : ∀ (a : Actor) (letter : Letter), letter ∈ a.concludeAll.1 →
      ∃ request answer, letter = .answered request answer := by
    intro a letter hletter
    obtain ⟨inquiry, _, hconclude⟩ := List.mem_filterMap.mp hletter
    obtain ⟨answer, heq, _⟩ := Actor.answer_of_conclude hconclude
    exact ⟨_, answer, heq⟩
  refine h.change (fun _ => ⟨rfl, rfl⟩) (fun r k hmem => ?_) fun r k hmem => ?_
  · refine (List.mem_append.mp hmem).imp_right fun hnew => ?_
    obtain ⟨request, answer, heq⟩ := hanswers r.actor _ hnew
    cases heq
  · refine (List.mem_append.mp hmem).imp_right fun hnew => ?_
    obtain ⟨request, answer, heq⟩ := hanswers r.actor _ hnew
    cases heq

/-- A session is entered that nobody is listed for. -/
theorem entered (h : c.Ordered) (hnumbered : c.Numbered) {new : Session}
    (hfree : c.table.find? new.id = none) : (c.entered new).Ordered := by
  have hfind : ∀ k, (c.entered new).residents.find? k =
      if c.residents.size = k then some ⟨.new c.facilities new, [], true⟩
      else c.residents.find? k := fun _ => Table.find?_set _ _ _ _
  have htable : ∀ name, (c.entered new).table.find? name =
      if new.id = name then some c.residents.size else c.table.find? name :=
    fun _ => Table.find?_set _ _ _ _
  constructor
  · exact h.calls
  · intro i hi
    have hlt := h.known i hi
    change i < (c.residents.set _ _).size
    rw [Table.size_set]
    split <;> omega
  · intro entry hentry
    change entry ∈ (c.table.set new.id c.residents.size).entries at hentry
    rw [Table.entries_set_of_find?_eq_none _ hfree, List.mem_append, List.mem_singleton] at hentry
    rcases hentry with hold | rfl
    · refine (h.listed entry hold).imp_left fun howns => ?_
      have hlt := howns.lt hnumbered
      obtain ⟨r, hr, hrest⟩ := howns
      exact ⟨r, ((hfind _).trans (if_neg (Nat.ne_of_gt hlt))).trans hr, hrest⟩
    · exact ⟨⟨_, (hfind _).trans (if_pos rfl), rfl, rfl⟩,
        fun hleaving => Nat.lt_irrefl _ (h.known _ hleaving)⟩
  · intro i name howns
    rw [htable]
    rcases howns.of_entered with hbefore | ⟨rfl, rfl⟩
    · refine (h.owned i name hbefore).imp_left fun hlisted => ?_
      rw [if_neg, hlisted]
      rintro rfl
      rw [hfree] at hlisted
      cases hlisted
    · exact Or.inl (if_pos rfl)
  · intro i r k hr halive hmem
    rw [hfind] at hr
    split at hr
    · obtain rfl := Option.some.inj hr
      cases hmem
    · exact h.last i r k hr halive hmem
  · intro i r k hr hmem
    rw [hfind] at hr
    split at hr
    · obtain rfl := Option.some.inj hr
      cases hmem
    · exact h.asked i r k hr hmem

/-- The answers that a resident has given end only calls that have asked for them. -/
theorem replies {effects : List Effect} (h : c.Ordered)
    (hshown : ∀ k ∈ effects.flatMap Effect.snapshots, c.Inquires k) :
    (effects.foldl reply c).Ordered := by
  induction effects generalizing c with
  | nil => exact h
  | cons e rest ih =>
      rw [List.foldl_cons]
      rw [List.flatMap_cons] at hshown
      have hrest := fun k hk => hshown k (List.mem_append_right _ hk)
      unfold reply
      split
      · next k cells =>
          have hasked := hshown k (List.mem_append_left _ List.mem_cons_self)
          refine ih (h.inquires hasked rfl) fun k' hk' => ?_
          by_cases heq : k = k'
          · exact ⟨_, (errands_put _ _ _ _).trans (if_pos heq), rfl⟩
          · obtain ⟨asking, hk, hasking⟩ := hrest k' hk'
            exact ⟨asking, ((errands_put _ _ _ _).trans (if_neg heq)).trans hk, hasking⟩
      · exact ih h hrest

/-- A resident has worked in its room for the same session.  It has shown its cells to those who
had asked for them, and if it has come to its end, it had got its last letter. -/
theorem leave (h : c.Ordered) {actor : Actor} {mailbox rest : List Letter} {alive : Bool}
    {room : Room} (hfind : c.residents.find? other = some ⟨actor, mailbox, true⟩)
    (hid : room.actor.session.id = actor.session.id) (hrest : rest ⊆ mailbox)
    (hends : alive = false → ∃ k, .close k ∈ mailbox)
    (hshown : ∀ k ∈ room.snapshots, .snapshot k ∈ mailbox) :
    (c.leave other rest alive room).Ordered := by
  have hset : ∀ i r, (c.residents.set other
      ⟨room.actor, if alive then rest else [], alive⟩).find? i = some r →
      c.residents.find? i = some r ∨
        i = other ∧ r = ⟨room.actor, if alive then rest else [], alive⟩ := by
    intro i r hr
    rw [Table.find?_set] at hr
    split at hr
    · next hi => exact Or.inr ⟨hi.symm, (Option.some.inj hr).symm⟩
    · exact Or.inl hr
  have hmailbox : ∀ letter, letter ∈ (if alive then rest else []) → letter ∈ mailbox := by
    intro letter hletter
    split at hletter
    · exact hrest hletter
    · cases hletter
  refine replies ⟨h.calls, ?_, ?_, ?_, ?_, ?_⟩ fun k hk => h.asked other _ k hfind (hshown k hk)
  · exact fun i hi => Table.size_set_of_find? hfind _ ▸ h.known i hi
  · intro entry hentry
    obtain ⟨howns, hnot⟩ := h.listed entry hentry
    refine ⟨?_, hnot⟩
    by_cases heq : other = entry.2
    · subst heq
      have hname : actor.session.id = entry.1 := Owns.session_eq ⟨_, hfind, rfl, rfl⟩ howns
      refine ⟨_, (Table.find?_set _ _ _ _).trans (if_pos rfl), ?_, hid.trans hname⟩
      by_contra hdead
      obtain ⟨k, hk⟩ := hends (Bool.eq_false_iff.mpr hdead)
      exact hnot (h.last _ _ k hfind rfl hk)
    · obtain ⟨r, hr, hrest⟩ := howns
      exact ⟨r, ((Table.find?_set _ _ _ _).trans (if_neg heq)).trans hr, hrest⟩
  · intro i name howns
    have hleft : (c.leave other rest alive room).Owns i name := by
      obtain ⟨errands, heq⟩ := leave_eq c other rest alive room
      rw [heq]
      exact howns
    exact h.owned i name (hleft.of_leave hfind hid)
  · intro i r k hr halive hmem
    rcases hset i r hr with hbefore | ⟨rfl, rfl⟩
    · exact h.last i r k hbefore halive hmem
    · exact h.last i _ k hfind rfl (hmailbox _ hmem)
  · intro i r k hr hmem
    rcases hset i r hr with hbefore | ⟨rfl, rfl⟩
    · exact h.asked i r k hbefore hmem
    · exact h.asked i _ k hfind (hmailbox _ hmem)

/-! ## Steps -/

theorem work (h : c.Ordered) (other : Nat) : (c.work other).Ordered := by
  unfold Coordinator.work
  split
  · next actor letter rest hfind =>
      refine h.leave hfind (Room.receive_starts (c.room actor) letter).id
        (List.subset_cons_self letter rest) (fun hends => ?_) fun k hk => ?_
      · cases letter with
        | close k => exact ⟨k, List.mem_cons_self⟩
        | _ => cases hends
      · change k ∈ ((c.room actor).receive letter).2.snapshots at hk
        rw [Room.snapshots_receive] at hk
        exact Letter.mem_snapshots hk ▸ List.mem_cons_self
  · exact h

theorem hear (h : c.Ordered) (other : Nat) : (c.hear other).Ordered := by
  unfold Coordinator.hear
  split
  · next actor mailbox hfind =>
      refine h.leave hfind (Room.hearNext_starts (c.room actor)).id (List.Subset.refl mailbox)
        nofun fun k hk => ?_
      rw [Room.snapshots_hearNext] at hk
      cases hk
  · exact h

/-- A call that sends its letter waits for what the letter is about. -/
theorem send (h : c.Ordered) {letter : Letter} {old next : Errand}
    {gone : Coordinator → Coordinator} (hold : c.errands.find? call = some old)
    (hlast : ∀ k, letter = .close k → c.Leaving other)
    (hasked : ∀ k, letter = .snapshot k → c.Inquires k)
    (hcloses : ∀ i, next.closes i = old.closes i)
    (hinquiry : old.isInquiry = true → next.isInquiry = true)
    (hgone : c.isAlive other = false → (gone c).Ordered) :
    (c.send call other letter next gone).Ordered := by
  have hsame : (c.post other letter).errands = c.errands := by
    unfold Coordinator.post Coordinator.change
    split <;> rfl
  unfold Coordinator.send
  split
  · split
    · rw [← hsame] at hold
      exact (h.post other hlast hasked).put hold (fun i => hcloses i ▸ id)
        (fun i _ _ => hcloses i ▸ id) hinquiry
    · exact h
  · next hdead => exact hgone ((Bool.not_eq_true _).mp hdead)

/-- Of residents that are to be closed, the first is done with when it handles no letters any
more. -/
theorem next (h : c.Ordered) {resident : Nat} {rest : List Nat} {final : Bool} {old : Errand}
    (hold : c.errands.find? call = some old)
    (hcloses : ∀ i, old.closes i = (resident :: rest).contains i)
    (hinquiry : old.isInquiry = false) (hdead : c.isAlive resident = false) :
    (c.put call (.close rest final)).Ordered := by
  refine h.put hold (fun i hi => ?_) (fun i session howns hi => ?_) fun hasks => ?_
  · rw [hcloses, List.contains_cons, Bool.or_eq_true]
    exact Or.inr hi
  · rw [hcloses, List.contains_cons, Bool.or_eq_true, beq_iff_eq] at hi
    rcases hi with rfl | hrest
    · rw [howns.isAlive] at hdead
      cases hdead
    · exact hrest
  · rw [hinquiry] at hasks
    cases hasks

theorem advance (h : c.Ordered) (hnumbered : c.Numbered) (call : Nat) :
    (c.advance call).Ordered := by
  unfold Coordinator.advance
  split
  · exact h
  · next session hfind =>
      have hwritten : ({ c with
          disk := (FileDeed.runAll c.disk session.preparing).2 } : Coordinator).Ordered :=
        ⟨h.calls, h.known, h.listed, h.owned, h.last, h.asked⟩
      refine hwritten.goesOn hfind (fun _ => rfl) rfl fun i => ?_
      split <;> rfl
  · next session hfind =>
      unfold enter
      split
      · exact h.goesOn hfind (fun _ => rfl) rfl fun _ => rfl
      · next hopen =>
          have hfree := (Table.contains_eq_false_iff _ _).mp ((Bool.not_eq_true _).mp hopen)
          exact (h.entered hnumbered hfree).goesOn hfind (fun _ => rfl) rfl fun _ => rfl
  · next final hfind =>
      have hdone : ∀ c' : Coordinator, c'.Ordered → c'.errands = c.errands →
          (c'.put call (.finished (.ok []))).Ordered := fun c' h' hsame =>
        h'.goesOn (hsame ▸ hfind) (fun _ => rfl) rfl fun _ => rfl
      split
      · exact hdone _ ⟨h.calls, h.known, h.listed, h.owned, h.last, h.asked⟩ rfl
      · exact hdone _ h rfl
  · next resident rest final hfind =>
      have hleaving : c.Leaving resident := ⟨call, _, hfind, by simp [Errand.closes]⟩
      exact h.send hfind (fun _ _ => hleaving) nofun (fun _ => rfl) nofun
        (h.next hfind (fun _ => rfl) rfl)
  · next residents final hfind =>
      split
      · exact h
      · next hdead =>
          cases residents with
          | nil => exact h.goesOn hfind (fun _ => rfl) rfl fun _ => rfl
          | cons resident rest =>
              exact h.next hfind (fun _ => rfl) rfl ((Bool.not_eq_true _).mp hdead)
  · next session resident hfind =>
      have hasked : c.Inquires call := ⟨_, hfind, rfl⟩
      refine h.send hfind nofun (fun k hk => ?_) (fun _ => rfl) (fun _ => rfl)
        fun _ => h.inquires hasked rfl
      obtain rfl := Letter.snapshot.inj hk
      exact hasked
  · next session resident hfind =>
      have hasked : c.Inquires call := ⟨_, hfind, rfl⟩
      split
      · exact h
      · exact h.inquires hasked rfl
  · exact h

end Ordered

/-- Whatever happens, a coordinator stays ordered. -/
theorem step_ordered (h : c.Ordered) (hnumbered : c.Numbered) (e : Event) :
    (c.step e).Ordered := by
  cases e with
  | dispatch sender message =>
      change (c.dispatch sender message).2.Ordered
      unfold dispatch
      split
      · exact h
      · split
        · exact h
        · split
          · exact h.post _ (by simp) (by simp)
          · exact h
  | beginOpen session =>
      change (c.beginOpen session).2.Ordered
      unfold beginOpen
      split <;> exact h.begins hnumbered fun _ => rfl
  | beginClose session => exact h.beginClose hnumbered session
  | beginShutdown => exact h.beginShutdown hnumbered
  | beginCells session =>
      change (c.beginCells session).2.Ordered
      unfold beginCells
      split <;> exact h.begins hnumbered fun _ => rfl
  | advance call => exact h.advance hnumbered call
  | work other => exact h.work other
  | hear other => exact h.hear other
  | conclude other => exact h.conclude other
  | supply spawner disk => exact ⟨h.calls, h.known, h.listed, h.owned, h.last, h.asked⟩
  | process generation what => exact ⟨h.calls, h.known, h.listed, h.owned, h.last, h.asked⟩
  | exit other cell pid purpose info => exact h.post other (by simp) (by simp)
  | happens other incident => exact h.withLedger other fun b => b.apply incident
  | plan other hindrance launches incidents =>
      exact h.withLedger other fun b => { b with hindrance, launches, incidents }

theorem run_ordered (h : c.Ordered) (htrack : c.KeepsTrack) (events : List Event) :
    (c.run events).Ordered := by
  induction events generalizing c with
  | nil => exact h
  | cons e rest ih => exact ih (step_ordered h htrack.numbered e) (step_keepsTrack htrack e)

end Coordinator
end Notebook
