import Notebook.Proofs.Actor.Exits

/-!
# Installations

An installation that begins is announced, and its end is reported when the exit of its
process is handled.  The actor drops an exit that it takes for that of an earlier process
of the cell, and then it also drops the report.

* `Room.receive_replies`: what an actor tells of installations when it handles a letter.
* `Site.install_reported`: an installation is reported exactly once if no other process of
  its cell is started in the meantime, and if no exit of an earlier process with the same
  pid was still to be handled when it began.
* `Site.install_unreported`: two installations overlap, and one of them is never reported.
-/

set_option autoImplicit false

namespace Notebook

/-- What an effect tells of an installation. -/
def Effect.install? : Effect → Option (InstallStatus × List String × Option Int32)
  | .notice (.install status packages code) => some (status, packages, code)
  | _ => none

/-- What the end of an installation comes to. -/
def ExitInfo.status (info : ExitInfo) : InstallStatus :=
  if info.success then .complete else .failed

theorem Effect.install?_of_isReply {e : Effect} (h : e.isReply = false) :
    e.install? = none := by
  cases e with
  | notice n =>
      cases n with
      | install _ _ _ => cases h
      | _ => rfl
  | _ => rfl

/-- What is told of installations stands among the replies. -/
theorem Effect.filterMap_install? (effects : List Effect) :
    effects.filterMap install? = (effects.filter isReply).filterMap install? := by
  induction effects with
  | nil => rfl
  | cons e rest ih =>
      cases h : e.isReply with
      | true => rw [List.filter_cons_of_pos h, List.filterMap_cons, List.filterMap_cons, ih]
      | false =>
          rw [List.filter_cons_of_neg (by rw [h]; exact Bool.false_ne_true),
            List.filterMap_cons, install?_of_isReply h, ih]

namespace Room

variable {r r' : Room}

/-! ## Replies to letters -/

/-- What the actor replies when it handles a letter in the room `r` and leaves it as `r'`. -/
inductive Replies (r : Room) (letter : Letter) (r' : Room) : List Effect → Prop where
  /-- There is nothing to reply to, or the exit of an installation is dropped. -/
  | nothing (hletter : ∀ cell pid packages info,
      letter = .exited cell pid (.install packages) info → ¬r.IsLatest cell pid) :
    Replies r letter r' []
  | answered (session : Session) (request : RequestId) (answer : Answer)
    (hletter : letter.exit? = none) :
    Replies r letter r' [.notice (noticeOf session request answer)]
  /-- The installation cannot be started. -/
  | unstarted (packages : List String) (hletter : letter.exit? = none) :
    Replies r letter r' [.notice (.install .failed packages none)]
  | installing (deeds : List FileDeed) (cell : CellId) (program : String) (args : List String)
    (packages : List String) (pid : Nat) (hletter : letter.exit? = none)
    (hbegun : Unstarted ((r.persist deeds).begun cell program args (.install packages) pid) r') :
    Replies r letter r'
      [.spawned r.supervisor.nextGeneration pid (r.runRequest cell program args)
        (.install packages),
      .notice (.install .installing packages none)]
  | finished (cell : CellId) (pid : Nat) (packages : List String) (info : ExitInfo)
    (hletter : letter = .exited cell pid (.install packages) info)
    (hlatest : r.IsLatest cell pid) :
    Replies r letter r' [.notice (.install info.status packages info.code)]

/-- The replies among what has been done. -/
def replies (r : Room) : List Effect :=
  r.effects.filter Effect.isReply

theorem Unreplied.replies (h : Unreplied r r') : r'.replies = r.replies := by
  obtain ⟨new, hnew, hnone⟩ := h.effects
  have hnew' : new.filter Effect.isReply = [] := by
    rw [List.filter_eq_nil_iff]
    intro e he
    rw [hnone e he]
    exact Bool.false_ne_true
  unfold Room.replies
  rw [hnew, List.filter_append, hnew', List.append_nil]

theorem replies_tell (r : Room) {e : Effect} (he : e.isReply = true) :
    (r.tell e).replies = r.replies ++ [e] := by
  change (r.effects ++ [e]).filter _ = _
  rw [List.filter_append, List.filter_cons_of_pos he]
  rfl

theorem replies_answer (r : Room) (request : RequestId) (answer : Answer) :
    (r.answer request answer).replies =
      r.replies ++ [.notice (noticeOf r.actor.session request answer)] :=
  replies_tell r (by cases answer <;> rfl)

theorem Replies.of_exit? {r r' : Room} {letter : Letter} (h : letter.exit? = none) :
    Replies r letter r' [] := by
  refine .nothing fun cell pid packages info heq => ?_
  rw [heq] at h
  cases h

theorem Replies.goesOn {letter : Letter} {replies : List Effect} {r'' : Room}
    (h : Replies r letter r' replies) (hrest : Unstarted r' r'') :
    Replies r letter r'' replies := by
  cases h with
  | nothing hletter => exact .nothing hletter
  | answered session request answer hletter => exact .answered session request answer hletter
  | unstarted packages hletter => exact .unstarted packages hletter
  | installing deeds cell program args packages pid hletter hbegun =>
      exact .installing deeds cell program args packages pid hletter (hbegun.trans hrest)
  | finished cell pid packages info hletter hlatest =>
      exact .finished cell pid packages info hletter hlatest

/-- What an actor replies when it does what a client asks for. -/
theorem perform_replies (r : Room) (sender : ConnectionId) (intent : Intent) :
    ∃ replies, Replies r (.intent sender intent) (r.perform intent).2 replies ∧
      (r.perform intent).2.replies = r.replies ++ replies := by
  have hsilent : ∀ r' : Room, Unreplied r r' →
      ∃ replies, Replies r (.intent sender intent) r' replies ∧
        r'.replies = r.replies ++ replies := fun r' h =>
    ⟨[], .of_exit? rfl, by rw [h.replies, List.append_nil]⟩
  rcases perform_cases r intent with hplain | ⟨packages, hinstall⟩ | ⟨navigation, query, rfl⟩
  · exact hsilent _ hplain.unreplied
  · obtain ⟨r₁, hplain, heq | heq | ⟨deeds, cell, program, args, pid, rfl, _, _, _, heq⟩⟩ :=
      install_cases r packages
    · rw [hinstall, heq]
      exact hsilent r₁ hplain.unreplied
    · rw [hinstall, heq]
      refine ⟨_, .unstarted packages rfl, ?_⟩
      rw [← hplain.unreplied.replies]
      exact replies_tell r₁ rfl
    · rw [hinstall, heq]
      let begun := (r.persist deeds).begun cell program args (.install packages) pid
      have hbegun : begun.replies = r.replies ++ [.spawned r.supervisor.nextGeneration pid
          (r.runRequest cell program args) (.install packages)] := by
        rw [← (Silent.persist r deeds).unreplied.replies]
        exact replies_tell _ rfl
      refine ⟨_, .installing deeds cell program args packages pid rfl
        ((begun_unstarted _ _ _ _ _ _).trans (.tell _ rfl)), ?_⟩
      refine (replies_tell (begun.setStatus cell .running) rfl).trans ?_
      rw [(Unreplied.setStatus begun cell .running).replies, hbegun, List.append_assoc]
      rfl
  · change ∃ replies, Replies r _ (r.navigate navigation query).2 replies ∧
      (r.navigate navigation query).2.replies = _
    obtain ⟨r₁, hplain, ⟨_, heq⟩ | ⟨_, ticket, heq⟩⟩ := navigate_cases r navigation query
    · rw [heq]
      refine ⟨_, .answered r₁.actor.session query.request (.nothing navigation) rfl, ?_⟩
      rw [← hplain.unreplied.replies]
      exact replies_answer r₁ _ _
    · rw [heq]
      refine ⟨[], .of_exit? rfl, ?_⟩
      rw [List.append_nil]
      exact hplain.unreplied.replies

/-- What an actor replies when it handles a letter. -/
theorem receive_replies (r : Room) (letter : Letter) :
    ∃ replies, Replies r letter (r.receive letter).2 replies ∧
      (r.receive letter).2.replies = r.replies ++ replies := by
  have hsilent : ∀ r' : Room, letter.exit? = none → Unreplied r r' →
      ∃ replies, Replies r letter r' replies ∧ r'.replies = r.replies ++ replies :=
    fun r' hletter h => ⟨[], .of_exit? hletter, by rw [h.replies, List.append_nil]⟩
  cases letter with
  | intent sender intent =>
      obtain ⟨replies, hreplies, heq⟩ := perform_replies r sender intent
      change ∃ replies, Replies r _ (r.serve sender intent) replies ∧
        (r.serve sender intent).replies = _
      rcases serve_eq r sender intent with hserve | ⟨refusal, hserve⟩
      · rw [hserve]
        exact ⟨replies, hreplies, heq⟩
      · rw [hserve]
        refine ⟨replies, hreplies.goesOn (.tell _ rfl), ?_⟩
        rw [(Unreplied.tell (r.perform intent).2 (.refusal sender refusal) rfl).replies, heq]
  | exited cell pid purpose info =>
      change ∃ replies, Replies r _ (r.exited cell pid purpose info) replies ∧
        (r.exited cell pid purpose info).replies = _
      rcases exited_cases r cell pid purpose info with ⟨hstale, heq⟩ | ⟨hlatest, heq⟩
      · rw [heq]
        refine ⟨[], .nothing fun cell' pid' packages info' hletter => ?_, ?_⟩
        · obtain ⟨rfl, rfl, -, -⟩ := Letter.exited.inj hletter
          exact hstale
        · rw [List.append_nil]
      · rw [heq]
        cases purpose with
        | cell =>
            refine ⟨[], .nothing nofun, ?_⟩
            rw [List.append_nil]
            exact (ended_unreplied r cell).replies
        | install packages =>
            refine ⟨_, .finished cell pid packages info rfl hlatest, ?_⟩
            dsimp only
            rw [(finishInstall_plain (r.ended cell) packages info).unreplied.replies,
              ← (ended_unreplied r cell).replies]
            exact replies_tell (r.ended cell) rfl
  | answered request answer =>
      exact ⟨_, .answered r.actor.session request answer rfl, replies_answer r request answer⟩
  | snapshot call => exact hsilent _ rfl (.tell r _ rfl)
  | close call => exact hsilent _ rfl ((teardown_plain r).unreplied.trans (.tell _ _ rfl))

/-! ## Installations -/

/-- What an actor that has done nothing yet tells of installations is told in replies. -/
theorem installs_eq (r : Room) : r.effects.filterMap Effect.install? =
    r.replies.filterMap Effect.install? :=
  Effect.filterMap_install? r.effects

/-- An installation that is started is announced, and nothing else is started. -/
theorem receive_installing {letter : Letter} {generation pid : Nat} {request : RunRequest}
    {packages : List String} (hfirst : r.effects = [])
    (hspawned : .spawned generation pid request (.install packages) ∈
      (r.receive letter).2.effects) :
    letter.exit? = none ∧
      (r.receive letter).2.effects.filterMap Effect.install? =
        [(.installing, packages, none)] ∧
      (r.receive letter).2.effects.filterMap Effect.start? =
        [⟨request.key.cell, pid, .install packages⟩] ∧
      (r.receive letter).2.actor.runs.find? request.key.cell = some pid := by
  have hmem : .spawned generation pid request (.install packages) ∈
      (r.receive letter).2.replies := List.mem_filter.mpr ⟨hspawned, rfl⟩
  obtain ⟨replies, hreplies, heq⟩ := receive_replies r letter
  have hempty : r.replies = [] := by
    unfold Room.replies
    rw [hfirst]
    rfl
  rw [hempty, List.nil_append] at heq
  rw [installs_eq, heq]
  rw [heq] at hmem
  cases hreplies with
  | nothing _ => cases hmem
  | answered session request' answer _ => simp at hmem
  | unstarted packages' _ => simp at hmem
  | finished cell pid' packages' info _ _ => simp at hmem
  | installing deeds cell program args packages' pid' hletter hbegun =>
      obtain ⟨rfl, rfl, rfl, hpurpose⟩ := by simpa using hmem
      obtain rfl := hpurpose
      refine ⟨hletter, rfl, ?_, ?_⟩
      · have hfiles : (r.persist deeds).effects = [.files deeds] := by
          change r.effects ++ [_] = _
          rw [hfirst, List.nil_append]
        rw [hbegun.starts]
        change ((r.persist deeds).effects ++ [_]).filterMap Effect.start? = _
        rw [hfiles]
        rfl
      · rw [hbegun.runs]
        exact (Table.find?_set _ _ _ _).trans (if_pos rfl)

/-- The exit of an installation is reported if and only if its process is taken for the latest
one of the cell. -/
theorem receive_finished {letter : Letter} {cell : CellId} {pid : Nat} {packages : List String}
    {info : ExitInfo} (hfirst : r.effects = [])
    (hletter : letter = .exited cell pid (.install packages) info) :
    r.IsLatest cell pid ∧ (r.receive letter).2.effects.filterMap Effect.install? =
        [(info.status, packages, info.code)] ∨
      ¬r.IsLatest cell pid ∧ (r.receive letter).2.effects.filterMap Effect.install? = [] := by
  obtain ⟨replies, hreplies, heq⟩ := receive_replies r letter
  have hempty : r.replies = [] := by
    unfold Room.replies
    rw [hfirst]
    rfl
  rw [hempty, List.nil_append] at heq
  rw [installs_eq, heq]
  have hexit : letter.exit? ≠ none := by
    rw [hletter]
    exact nofun
  cases hreplies with
  | nothing hdropped => exact Or.inr ⟨hdropped cell pid packages info hletter, rfl⟩
  | answered _ _ _ hnone => exact absurd hnone hexit
  | unstarted _ hnone => exact absurd hnone hexit
  | installing _ _ _ _ _ _ hnone _ => exact absurd hnone hexit
  | finished cell' pid' packages' info' hletter' hlatest =>
      obtain ⟨rfl, rfl, hpurpose, rfl⟩ := Letter.exited.inj (hletter'.symm.trans hletter)
      obtain rfl := Purpose.install.inj hpurpose
      exact Or.inl ⟨hlatest, rfl⟩

end Room

/-! ## Runs -/

namespace Site

variable {s : Site}

/-- Only the actor's own work handles letters. -/
theorem eq_work_of_due {e : Event} {letter : Letter} (h : s.due e = some letter) : e = .work := by
  cases e with
  | work => rfl
  | _ => cases h

/-- What working on a letter does. -/
theorem effects_work {letter : Letter} (hdue : s.due .work = some letter) :
    s.effects [.work] = (s.room.receive letter).2.effects ∧
      (s.step .work).actor = (s.room.receive letter).2.actor ∧
      ∃ rest, s.mailbox = letter :: rest := by
  rcases step_cases s .work with ⟨letter', rest, hdue', _, hmailbox, hstep⟩ | ⟨hnone, _⟩
  · obtain rfl := Option.some.inj (hdue.symm.trans hdue')
    exact ⟨effects_eq (congrArg log hstep), congrArg actor hstep, rest, hmailbox⟩
  · rw [hdue] at hnone
    cases hnone

/-- An installation is started when a letter is handled, and its process is alone if no exit
like its own was still to be handled. -/
theorem alone_of_installing (hs : s.Enrolls) (halive : s.work.alive = true)
    {generation pid : Nat} {request : RunRequest} {packages : List String}
    (hspawned : .spawned generation pid request (.install packages) ∈ s.effects [.work])
    (hclear : s.exits.filter (Watcher.mk request.key.cell pid (.install packages)).resembles =
      []) :
    (s.effects [.work]).filterMap Effect.install? = [(.installing, packages, none)] ∧
      s.work.Alone ⟨request.key.cell, pid, .install packages⟩ := by
  rcases step_cases s .work with ⟨letter, rest, hdue, _, _, _⟩ | ⟨_, haside⟩
  · obtain ⟨heffects, hactor, _⟩ := effects_work hdue
    have hexits := step_exits hs .work halive
    rw [heffects] at hspawned hexits ⊢
    obtain ⟨hletter, hinstalls, hstarts, hruns⟩ := Room.receive_installing rfl hspawned
    refine ⟨hinstalls, ⟨?_, ?_⟩⟩
    · change (s.step .work).actor.runs.find? _ = _
      rw [hactor]
      exact hruns
    · have hnone : (s.due .work).toList.filterMap Letter.exit? = [] := by
        rw [hdue]
        simp [hletter]
      rw [hnone, hstarts, List.append_nil] at hexits
      have hperm := hexits.filter
        (Watcher.mk request.key.cell pid (.install packages)).resembles
      rw [List.filter_append, hclear, List.nil_append,
        List.filter_cons_of_pos (Watcher.resembles_self _), List.filter_nil,
        List.perm_singleton] at hperm
      exact hperm
  · -- Without a letter there is no reply.
    obtain ⟨told, hlog, hnone⟩ := haside.log
    have heffects : s.effects [.work] = told := effects_eq hlog
    rw [heffects] at hspawned
    cases hnone _ hspawned

/-- When the exit of an installation that is alone is handled, its end is reported. -/
theorem Alone.reported (hs : s.Enrolls) {w : Watcher} (h : s.Alone w) {packages : List String}
    (hpurpose : w.purpose = .install packages) {letter : Letter}
    (hdue : s.due .work = some letter) (hletter : letter.exit? = some w) :
    ∃ info, letter = .exited w.cell w.pid (.install packages) info ∧
      (s.effects [.work]).filterMap Effect.install? = [(info.status, packages, info.code)] := by
  obtain ⟨heffects, _, rest, hmailbox⟩ := effects_work hdue
  obtain ⟨info, heq⟩ := Letter.exit?_eq_some hletter
  rw [hpurpose] at heq
  refine ⟨info, heq, ?_⟩
  rw [heffects]
  rcases Room.receive_finished (r := s.room) rfl heq with ⟨_, hreported⟩ | ⟨hstale, _⟩
  · exact hreported
  · exact absurd (h.isLatest hs hmailbox hletter) hstale

/-- The exit of an installation that is alone is handled at one point of a run, and reported
at this point. -/
theorem Alone.reported_once (hs : s.Enrolls) {w : Watcher} (h : s.Alone w)
    {packages : List String} (hpurpose : w.purpose = .install packages) {later : List Event}
    (halive : (s.run later).alive = true)
    (hstarts : ∀ w' ∈ (s.effects later).filterMap Effect.start?, w'.cell ≠ w.cell)
    (hhandled : ((s.handled later).filterMap Letter.exit?).filter w.resembles = [w]) :
    ∃ earlier rest info, later = earlier ++ .work :: rest ∧
      (s.run earlier).due .work = some (.exited w.cell w.pid (.install packages) info) ∧
      ((s.run earlier).effects [.work]).filterMap Effect.install? =
        [(info.status, packages, info.code)] ∧
      ((s.handled earlier).filterMap Letter.exit?).filter w.resembles = [] ∧
      (((s.run earlier).work.handled rest).filterMap Letter.exit?).filter w.resembles = [] := by
  have hmem : w ∈ (s.handled later).filterMap Letter.exit? := by
    refine (List.mem_filter (p := w.resembles)).mp ?_ |>.1
    rw [hhandled]
    exact List.mem_singleton_self w
  obtain ⟨letter, hletter, hexit⟩ := List.mem_filterMap.mp hmem
  obtain ⟨earlier, e, rest, rfl, hdue⟩ := handled_split hletter
  obtain rfl := eq_work_of_due hdue
  have hrun : s.run (earlier ++ .work :: rest) = (s.run earlier).run (.work :: rest) :=
    List.foldl_append
  rw [hrun] at halive
  -- It is handled here, hence neither before nor afterwards.
  have hothers : ((s.handled earlier).filterMap Letter.exit?).filter w.resembles = [] ∧
      (((s.run earlier).work.handled rest).filterMap Letter.exit?).filter w.resembles = [] := by
    rw [handled_append, handled, hdue, List.filterMap_append, List.filter_append,
      List.filterMap_append, Option.toList_some, List.filterMap_cons_some hexit,
      List.filterMap_nil, List.filter_append, List.filter_cons_of_pos w.resembles_self,
      List.append_eq_singleton_iff] at hhandled
    rcases hhandled with ⟨hearlier, hrest⟩ | ⟨_, hrest⟩
    · exact ⟨hearlier, List.append_right_eq_self.mp hrest⟩
    · cases hrest
  have halone : (s.run earlier).Alone w := by
    rw [effects_append, List.filterMap_append] at hstarts
    rcases h.run hs earlier (alive_of_run _ halive)
      (fun w' hw' => hstarts w' (List.mem_append_left _ hw')) with ⟨halone, _⟩ | hhandled'
    · exact halone
    · rw [hothers.1] at hhandled'
      cases hhandled'
  obtain ⟨info, heq, hreported⟩ := halone.reported
    (run_enrolls hs earlier (alive_of_run _ halive)) hpurpose hdue hexit
  exact ⟨earlier, rest, info, rfl, heq ▸ hdue, hreported, hothers.1, hothers.2⟩

/-- Open a session after any history of the supervisor, and let anything happen.  Let an
installation be started when no exit is still to be handled that looks like its own to the
actor, and let anything happen again but that another process is started for its cell.  As
long as the actor handles letters, the installation has been announced, and its exit is
still to be handled, or it was handled once, and then the end of the installation was
reported with its packages and its code. -/
theorem install_reported (facilities : Facilities) (spawner : Spawner) (disk : Disk)
    (capacity : Nat) (history : List Supervisor.Act) (session : Session)
    (before later : List Event) (generation pid : Nat) (request : RunRequest)
    (packages : List String) :
    let s := (opened facilities spawner disk
      (history.foldl Supervisor.act (.new capacity)) session).run before
    let run : Watcher := ⟨request.key.cell, pid, .install packages⟩
    .spawned generation pid request (.install packages) ∈ s.effects [.work] →
    s.exits.filter run.resembles = [] →
    (s.work.run later).alive = true →
    (∀ w ∈ (s.work.effects later).filterMap Effect.start?, w.cell ≠ run.cell) →
    (s.effects [.work]).filterMap Effect.install? = [(.installing, packages, none)] ∧
      (run ∈ (s.work.run later).exits ∧
          (∀ letter ∈ s.work.handled later, letter.exit? ≠ some run) ∨
        ∃ earlier rest info, later = earlier ++ .work :: rest ∧
          (s.work.run earlier).due .work =
            some (.exited run.cell pid (.install packages) info) ∧
          ((s.work.run earlier).effects [.work]).filterMap Effect.install? =
            [(info.status, packages, info.code)] ∧
          (∀ letter ∈ s.work.handled earlier, letter.exit? ≠ some run) ∧
          ∀ letter ∈ (s.work.run earlier).work.handled rest, letter.exit? ≠ some run) := by
  intro s run hspawned hclear halive hstarts
  have hsupervisor := Supervisor.coherent_foldl_act history
    (Supervisor.coherent_new capacity)
  have hbegun : s.work.alive = true := alive_of_run later halive
  have hs : s.Enrolls := run_enrolls (opened_enrolls facilities spawner disk hsupervisor session)
    before ((turn_step s .work).alive hbegun)
  have hs' : s.work.Enrolls := (turn_step s .work).enrolls hs hbegun
  obtain ⟨hannounced, halone⟩ := alone_of_installing hs hbegun hspawned hclear
  refine ⟨hannounced, ?_⟩
  have hunlike : ∀ {letters : List Letter},
      (letters.filterMap Letter.exit?).filter run.resembles = [] →
        ∀ letter ∈ letters, letter.exit? ≠ some run := by
    intro letters hnone letter hletter heq
    rw [List.filter_eq_nil_iff] at hnone
    exact hnone run (List.mem_filterMap.mpr ⟨letter, hletter, heq⟩) run.resembles_self
  rcases halone.run hs' later halive hstarts with ⟨hwaits, hhandled⟩ | hhandled
  · refine Or.inl ⟨?_, hunlike hhandled⟩
    have hmem : run ∈ (s.work.run later).exits.filter run.resembles := by
      rw [hwaits.exits]
      exact List.mem_singleton_self run
    exact (List.mem_filter.mp hmem).1
  · obtain ⟨earlier, rest, info, heq, hdue, hreported, hearlier, hrest⟩ :=
      halone.reported_once hs' rfl halive hstarts hhandled
    exact Or.inr ⟨earlier, rest, info, heq, hdue, hreported, hunlike hearlier, hunlike hrest⟩

/-- A session with a manifest in its directory, from which an installation is wanted. -/
def wanted : Site :=
  (opened ⟨.standard, .standard, []⟩ (fun _ _ => .ok 7)
    (Disk.empty.put ["book".toList] .directory) (.new 16)
    ⟨⟨"s"⟩, "/book", .javascript, [.manifest ⟨⟨"m"⟩, "", .idle⟩]⟩).run
    [.send ⟨0⟩ (.install ["zod"])]

/-- The process of a generation exits with code 3, and its key is freed. -/
def exiting (generation : Nat) : List Event :=
  [.process generation (.exit ⟨some 3⟩), .process generation .giveUp,
    .process generation .remove, .process generation .report]

/-- The installation fails, while a wish to execute a cell that is not there is refused. -/
theorem install_reported_failed :
    let run : Watcher := ⟨⟨"m"⟩, 7, .install ["zod"]⟩
    let later := exiting 1 ++ [.send ⟨0⟩ (.execute ⟨"x"⟩), .pass 1, .work, .work]
    .spawned 1 7 ⟨⟨⟨"s"⟩, ⟨"m"⟩⟩, "npm", ["install", "zod"], "/book", []⟩ (.install ["zod"]) ∈
        wanted.effects [.work] ∧
      wanted.exits.filter run.resembles = [] ∧
      (wanted.work.run later).alive = true ∧
      (∀ w ∈ (wanted.work.effects later).filterMap Effect.start?, w.cell ≠ run.cell) ∧
      (wanted.effects [.work]).filterMap Effect.install? = [(.installing, ["zod"], none)] ∧
      ∃ (earlier rest : List Event) (info : ExitInfo), later = earlier ++ .work :: rest ∧
        ((wanted.work.run earlier).effects [.work]).filterMap Effect.install? =
          [(info.status, ["zod"], info.code)] := by
  intro run later
  have hspawned : .spawned 1 7 ⟨⟨⟨"s"⟩, ⟨"m"⟩⟩, "npm", ["install", "zod"], "/book", []⟩
      (.install ["zod"]) ∈ wanted.effects [.work] := by decide +kernel
  have hclear : wanted.exits.filter run.resembles = [] := by decide +kernel
  have halive : (wanted.work.run later).alive = true := by decide +kernel
  have hstarts : ∀ w ∈ (wanted.work.effects later).filterMap Effect.start?,
      w.cell ≠ run.cell := by decide +kernel
  have hdone : run ∉ (wanted.work.run later).exits := by decide +kernel
  obtain ⟨hannounced, ⟨hwaits, _⟩ | ⟨earlier, rest, info, heq, _, hreported, _⟩⟩ :=
    install_reported ⟨.standard, .standard, []⟩ (fun _ _ => .ok 7)
      (Disk.empty.put ["book".toList] .directory) 16 []
      ⟨⟨"s"⟩, "/book", .javascript, [.manifest ⟨⟨"m"⟩, "", .idle⟩]⟩
      [.send ⟨0⟩ (.install ["zod"])] later 1 7 _ ["zod"] hspawned hclear halive hstarts
  · exact absurd hwaits hdone
  · exact ⟨hspawned, hclear, halive, hstarts, hannounced, earlier, rest, info, heq, hreported⟩

/-- The process of the installation exits, and another installation is wanted before the
letter with the exit comes.  Both are announced, both exits are handled, and the end of the
first installation is never reported. -/
theorem install_unreported :
    let events := [.work] ++ exiting 1 ++ [.respawn fun _ _ => .ok 8,
      .send ⟨0⟩ (.install ["vite"]), .pass 1, .work, .work] ++ exiting 2 ++ [.pass 2, .work]
    (wanted.run events).alive = true ∧ (wanted.run events).exits = [] ∧
      (wanted.handled events).filterMap Letter.exit? =
        [⟨⟨"m"⟩, 7, .install ["zod"]⟩, ⟨⟨"m"⟩, 8, .install ["vite"]⟩] ∧
      (wanted.run events).log.filterMap Effect.install? =
        [(.installing, ["zod"], none), (.installing, ["vite"], none),
          (.failed, ["vite"], some 3)] := by
  decide +kernel

end Site
end Notebook
