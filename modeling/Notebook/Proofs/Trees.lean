import Notebook.Proofs.Disk
import Notebook.Proofs.Paths
import Notebook.Session.Files
import Mathlib.Data.List.Induction

/-!
# Trees of files

On a disk as there are, everything lies in a directory and has a name that a file may have:
`Disk.Sound`.  Every deed keeps this.

A path may lead through two dots.  Where these are behind a directory that is there,
`Disk.Straight`, making all directories on the way adds nothing but directories at the beginnings
of the place that the path names.  Otherwise a directory would be made only to be left again.

* `Sound.run`: what a deed keeps.
* `Grows`: a disk with new directories on the way to a place.
* `makeDirectories_grows`: what making directories along a straight path comes to.
-/

set_option autoImplicit false

namespace Notebook

namespace Path

/-- The pieces of a text have no slash. -/
theorem not_mem_of_mem_pieces {path piece : List Char} (h : piece ∈ pieces path) : '/' ∉ piece := by
  induction path generalizing piece with
  | nil =>
      obtain rfl := List.mem_singleton.mp h
      exact List.not_mem_nil
  | cons c rest ih =>
      unfold pieces at h
      split at h
      · rcases List.mem_cons.mp h with rfl | h
        · exact List.not_mem_nil
        · exact ih h
      · next hc =>
          split at h
          · obtain rfl := List.mem_singleton.mp h
            exact fun hmem => hc (List.mem_singleton.mp hmem).symm
          · next first others hrest =>
              rcases List.mem_cons.mp h with rfl | h
              · intro hmem
                rcases List.mem_cons.mp hmem with heq | hmem
                · exact hc heq.symm
                · exact ih (hrest ▸ List.mem_cons_self) hmem
              · exact ih (hrest ▸ List.mem_cons_of_mem _ h)

/-- A piece stands for a name, for the directory itself or for the one above. -/
theorem component?_cases {atStart : Bool} {piece : List Char} {c : Component}
    (h : component? atStart piece = some c) (hslash : '/' ∉ piece) :
    c = .current ∨ c = .parent ∨ ∃ name, c = .name name ∧ IsName name := by
  unfold component? at h
  split at h
  · cases h
  · next hempty =>
      split at h
      · split at h
        · exact Or.inl (Option.some.inj h).symm
        · cases h
      · next hcurrent =>
          split at h
          · exact Or.inr (Or.inl (Option.some.inj h).symm)
          · next hparent =>
              exact Or.inr (Or.inr ⟨piece, (Option.some.inj h).symm,
                ⟨hempty, hslash, hcurrent, hparent⟩⟩)

/-- A path begins at the root or not at all there, and its names are names. -/
theorem components_cases (path : List Char) :
    ∃ cs, (components path = .root :: cs ∨ components path = cs) ∧
      ∀ c ∈ cs, c = .current ∨ c = .parent ∨ ∃ name, c = .name name ∧ IsName name := by
  have hpieces : ∀ {atStart} {others : List (List Char)}, (∀ piece ∈ others, '/' ∉ piece) →
      ∀ c ∈ others.filterMap (component? atStart),
        c = .current ∨ c = .parent ∨ ∃ name, c = .name name ∧ IsName name := by
    intro atStart others hothers c hc
    obtain ⟨piece, hpiece, hcomponent⟩ := List.mem_filterMap.mp hc
    exact component?_cases hcomponent (hothers piece hpiece)
  unfold components
  split
  · next rest =>
      exact ⟨_, Or.inl rfl, hpieces fun piece hpiece => not_mem_of_mem_pieces hpiece⟩
  · cases hsplit : pieces path with
    | nil => exact ⟨_, Or.inr rfl, nofun⟩
    | cons first others =>
        refine ⟨_, Or.inr rfl, fun c hc => ?_⟩
        rcases List.mem_append.mp hc with hc | hc
        · refine component?_cases (Option.mem_toList.mp hc) ?_
          exact not_mem_of_mem_pieces (hsplit ▸ List.mem_cons_self)
        · refine hpieces (fun piece hpiece => ?_) c hc
          exact not_mem_of_mem_pieces (hsplit ▸ List.mem_cons_of_mem _ hpiece)

theorem isName_of_mem_components {path name : List Char} (h : .name name ∈ components path) :
    IsName name := by
  obtain ⟨cs, hcs, hnames⟩ := components_cases path
  have hmem : .name name ∈ cs := by
    rcases hcs with hcs | hcs
    · rw [hcs] at h
      exact (List.mem_cons.mp h).resolve_left nofun
    · rwa [hcs] at h
  rcases hnames _ hmem with heq | heq | ⟨name', heq, hname⟩
  · cases heq
  · cases heq
  · exact Component.name.inj heq ▸ hname

end Path

namespace Disk

variable {d d' d₁ : Disk} {place next q : Place} {path : String}

/-! ## Sound disks -/

/-- A name that a file may have. -/
structure IsEntry (name : List Char) : Prop where
  isName : Path.IsName name
  short : nameSize name ≤ nameLimit
  noNull : '\x00' ∉ name

/-- Everything lies in a directory and has a name that a file may have. -/
structure Sound (d : Disk) : Prop where
  parent : ∀ place, d.node? place ≠ none → d.node? place.dropLast = some .directory
  entry : ∀ place name, d.node? (place ++ [name]) ≠ none → IsEntry name

theorem sound_empty : empty.Sound := by
  have hnone : ∀ place, empty.node? place ≠ none → place = [] := fun place hplace => by
    by_contra hne
    exact hplace (by rw [node?, if_neg hne]; rfl)
  refine ⟨fun place hplace => ?_, fun place name hplace => ?_⟩
  · rw [hnone place hplace]
    rfl
  · exact absurd (hnone _ hplace) (by simp)

namespace Sound

/-- Something may be stored under a name in a directory, if no directory gives way to a file. -/
theorem put (h : d.Sound) {name : List Char} {node : Node}
    (hplace : d.node? place = some .directory) (hname : IsEntry name)
    (hnode : d.node? (place ++ [name]) = some .directory → node = .directory) :
    (d.put (place ++ [name]) node).Sound := by
  have hne : place ++ [name] ≠ [] := by simp
  have hself : place ++ [name] ≠ place := fun heq => by simpa using congrArg List.length heq
  refine ⟨fun q hq => ?_, fun q name' hq => ?_⟩
  · rw [node?_put d hne] at hq ⊢
    by_cases hsame : place ++ [name] = q
    · subst hsame
      rw [List.dropLast_concat, if_neg hself]
      exact hplace
    · rw [if_neg hsame] at hq
      have hparent := h.parent q hq
      split
      · next heq => rw [hnode (heq ▸ hparent)]
      · exact hparent
  · rw [node?_put d hne] at hq
    by_cases hsame : place ++ [name] = q ++ [name']
    · obtain ⟨-, heq⟩ := List.append_inj' hsame rfl
      exact List.cons.inj heq |>.1 ▸ hname
    · rw [if_neg hsame] at hq
      exact h.entry q name' hq

/-- The way to a place where nothing is ends with a name. -/
theorem of_step (h : d.Sound) {c : Path.Component}
    (hc : ∀ name, c = .name name → Path.IsName name) (hstep : d.step place c = .ok next)
    (hnext : d.node? next = none) :
    ∃ name, next = place ++ [name] ∧ d.node? place = some .directory ∧ IsEntry name := by
  obtain ⟨hplace, rfl⟩ := of_step_eq_ok hstep
  cases c with
  | root => cases hnext
  | current =>
      rw [follow, hplace] at hnext
      cases hnext
  | parent =>
      rw [follow, h.parent place (hplace ▸ Option.some_ne_none _)] at hnext
      cases hnext
  | name name =>
      refine ⟨name, rfl, hplace, hc name rfl, ?_, ?_⟩
      · rw [step_name hplace] at hstep
        by_contra hlong
        rw [if_pos (not_le.mp hlong)] at hstep
        cases hstep
      · rw [step_name hplace] at hstep
        split at hstep
        · cases hstep
        · intro hnull
          rw [if_pos hnull] at hstep
          cases hstep

theorem makeStep (h : d.Sound) {c : Path.Component}
    (hc : ∀ name, c = .name name → Path.IsName name)
    (hmake : Disk.makeStep (d, place) c = .ok (d', next)) : d'.Sound := by
  obtain ⟨hstep, ⟨-, rfl⟩ | ⟨hnext, rfl⟩⟩ := makeStep_cases hmake
  · exact h
  · obtain ⟨name, rfl, hplace, hname⟩ := h.of_step hc hstep hnext
    exact h.put hplace hname fun _ => rfl

theorem foldlM_makeStep (h : d.Sound) {cs : List Path.Component}
    (hcs : ∀ name, .name name ∈ cs → Path.IsName name)
    (hmake : cs.foldlM Disk.makeStep (d, place) = .ok (d', next)) : d'.Sound := by
  induction cs generalizing d place with
  | nil =>
      obtain ⟨rfl, -⟩ := Prod.mk.inj (Except.ok.inj hmake)
      exact h
  | cons c rest ih =>
      obtain ⟨⟨d₁, place₁⟩, hfirst, hrest⟩ := foldlM_makeStep_cons.mp hmake
      have hd₁ := h.makeStep (fun name hc => hcs name (hc ▸ List.mem_cons_self)) hfirst
      exact ih hd₁ (fun name hmem => hcs name (List.mem_cons_of_mem _ hmem)) hrest

theorem makeDirectories (h : d.Sound) (hmake : d.makeDirectories [] path = .ok d') : d'.Sound := by
  unfold Disk.makeDirectories at hmake
  cases hfold : (Path.components path.toList).foldlM Disk.makeStep (d, []) with
  | error e =>
      rw [hfold] at hmake
      cases hmake
  | ok made =>
      rw [hfold] at hmake
      obtain rfl := Except.ok.inj hmake
      exact h.foldlM_makeStep (fun _ => Path.isName_of_mem_components) hfold

/-- What is not the root lies under a name in a directory. -/
theorem split (h : d.Sound) (hplace : d.node? place ≠ none) (hne : place ≠ []) :
    ∃ dir name, place = dir ++ [name] ∧ d.node? dir = some .directory ∧ IsEntry name := by
  obtain ⟨dir, name, rfl⟩ := List.eq_nil_or_concat' place |>.resolve_left hne
  have hparent := h.parent _ hplace
  rw [List.dropLast_concat] at hparent
  exact ⟨dir, name, rfl, hparent, h.entry dir name hplace⟩

/-- A path to a place where nothing is ends with a name in a directory. -/
theorem of_locate (h : d.Sound) (hlocate : d.locate [] path = .ok next)
    (hnext : d.node? next = none) :
    ∃ place name, next = place ++ [name] ∧ d.node? place = some .directory ∧ IsEntry name := by
  unfold locate at hlocate
  split at hlocate
  · cases hlocate
  · rcases List.eq_nil_or_concat' (Path.components path.toList) with hnil | ⟨before, c, hcs⟩
    · rw [hnil] at hlocate
      obtain rfl := Except.ok.inj hlocate
      cases hnext
    · rw [hcs, List.foldlM_append] at hlocate
      cases hbefore : before.foldlM d.step [] with
      | error e => simp [hbefore, bind, Except.bind] at hlocate
      | ok place =>
          rw [hbefore] at hlocate
          obtain ⟨_, hstep, hlast⟩ := foldlM_step_cons.mp hlocate
          obtain rfl := Except.ok.inj hlast
          have hc : ∀ name, c = .name name → Path.IsName name := fun name hc => by
            refine Path.isName_of_mem_components (?_ : _ ∈ Path.components path.toList)
            rw [hcs, hc]
            simp
          obtain ⟨name, hname⟩ := h.of_step hc hstep hnext
          exact ⟨place, name, hname⟩

theorem write (h : d.Sound) {data : ByteArray} (hwrite : d.write [] path data = .ok d') :
    d'.Sound := by
  obtain ⟨executable, rfl, hlocate, -, hnode⟩ := write_cases hwrite
  have hdirectory : d.node? (placeOf path) ≠ some .directory := by
    rcases hnode with hnode | ⟨old, hnode⟩ <;> rw [hnode] <;> nofun
  have hsplit : ∃ place name, placeOf path = place ++ [name] ∧
      d.node? place = some .directory ∧ IsEntry name := by
    rcases hnode with hnode | ⟨old, hnode⟩
    · exact h.of_locate hlocate hnode
    · exact h.split (hnode ▸ Option.some_ne_none _) (ne_nil_of_node? hdirectory)
  obtain ⟨place, name, hpath, hplace, hname⟩ := hsplit
  rw [hpath] at hdirectory ⊢
  exact h.put hplace hname fun hnode => absurd hnode hdirectory

theorem removeFile (h : d.Sound) (hremove : d.removeFile [] path = .ok d') : d'.Sound := by
  obtain ⟨htouches, hgone⟩ := removeFile_touches hremove
  have hkept : ∀ q, d'.node? q ≠ none → d.node? q ≠ none := fun q hq => by
    by_cases hsame : q = placeOf path
    · exact absurd (hsame ▸ hgone) hq
    · rwa [htouches.nodes q hsame] at hq
  exact ⟨fun q hq => htouches.directories _ (h.parent q (hkept q hq)),
    fun q name hq => h.entry q name (hkept _ hq)⟩

/-- Every deed keeps the disk sound. -/
theorem run (h : d.Sound) {deed : FileDeed} (hrun : deed.run d = .ok d') : d'.Sound := by
  cases deed with
  | makeDirectory path => exact h.makeDirectories hrun
  | write path text => exact h.write hrun
  | remove path =>
      simp only [FileDeed.run] at hrun
      split at hrun
      · obtain rfl := Except.ok.inj hrun
        exact h
      · exact h.removeFile hrun

/-- However far a list of deeds comes, the disk stays sound. -/
theorem runAll (h : d.Sound) (deeds : List FileDeed) : (FileDeed.runAll d deeds).2.Sound := by
  induction deeds generalizing d with
  | nil => exact h
  | cons deed rest ih =>
      rw [FileDeed.runAll]
      split
      · next d₁ hrun => exact ih (h.run hrun)
      · exact h

end Sound

/-! ## New directories -/

/-- Two dots among the components are behind a directory that is there. -/
def StraightFrom (d : Disk) (place : Place) (cs : List Path.Component) : Prop :=
  ∀ before after, cs = before ++ .parent :: after →
    ∃ dir, before.foldlM d.step place = .ok dir ∧ d.node? dir = some .directory

/-- Two dots in the path are behind a directory that is there. -/
def Straight (d : Disk) (path : String) : Prop :=
  d.StraightFrom [] (Path.components path.toList)

/-- A name behind the path changes nothing about this. -/
theorem Straight.append {dir : String} {name : List Char} (h : d.Straight dir)
    (hpath : Path.components path.toList = Path.components dir.toList ++ [.name name]) :
    d.Straight path := by
  intro before after hsplit
  rw [hpath] at hsplit
  rcases List.eq_nil_or_concat' after with rfl | ⟨after, c, rfl⟩
  · obtain ⟨-, heq⟩ := List.append_inj' hsplit rfl
    cases heq
  · rw [← List.cons_append, ← List.append_assoc] at hsplit
    exact h before after (List.append_inj' hsplit rfl).1

/-- There are new directories at beginnings of the place, and all else is as before. -/
def Grows (place : Place) (d d' : Disk) : Prop :=
  ∀ q, d'.node? q = d.node? q ∨
    d.node? q = none ∧ d'.node? q = some .directory ∧ q <+: place

theorem Grows.touches (h : Grows place d d') : Touches {q | d.node? q = none} d d' := by
  refine ⟨fun q hq => ?_, fun q hq => ?_⟩
  · exact (h q).resolve_right fun hnew => hq hnew.1
  · rcases h q with hsame | ⟨hnone, -⟩
    · exact hsame.trans hq
    · rw [hq] at hnone
      cases hnone

/-- A new directory on the way, and what comes behind it. -/
theorem Grows.put (hplace : d.node? place = none) (hbegins : place <+: next)
    (h : Grows next (d.put place .directory) d') : Grows next d d' := by
  have hne : place ≠ [] := ne_nil_of_node? (by rw [hplace]; nofun)
  intro q
  have hq := h q
  rw [node?_put d hne] at hq
  by_cases hsame : place = q
  · subst hsame
    rw [if_pos rfl] at hq
    rcases hq with hq | ⟨hnone, -⟩
    · exact Or.inr ⟨hplace, hq, hbegins⟩
    · cases hnone
  · rwa [if_neg hsame] at hq

/-- Going on with names, only directories on the way are made. -/
theorem grows_of_names {cs : List Path.Component} (hplace : d.node? place = some .directory)
    (hcs : ∀ c ∈ cs, c = .current ∨ ∃ name, c = .name name)
    (h : cs.foldlM makeStep (d, place) = .ok (d', next)) : Grows next d d' ∧ place <+: next := by
  induction cs generalizing d place with
  | nil =>
      obtain ⟨rfl, rfl⟩ := Prod.mk.inj (Except.ok.inj h)
      exact ⟨fun _ => Or.inl rfl, List.prefix_rfl⟩
  | cons c rest ih =>
      obtain ⟨⟨d₁, place₁⟩, hmake, hrest⟩ := foldlM_makeStep_cons.mp h
      have hrest' := fun c hc => hcs c (List.mem_cons_of_mem _ hc)
      obtain ⟨hstep, hcases⟩ := makeStep_cases hmake
      have hbegins : place <+: place₁ := by
        rw [(of_step_eq_ok hstep).2]
        rcases hcs c List.mem_cons_self with rfl | ⟨name, rfl⟩
        · exact List.prefix_rfl
        · exact List.prefix_append _ _
      rcases hcases with ⟨hnode, rfl⟩ | ⟨hnone, rfl⟩
      · obtain ⟨hgrows, hlater⟩ := ih hnode hrest' hrest
        exact ⟨hgrows, hbegins.trans hlater⟩
      · have hne : place₁ ≠ [] := ne_nil_of_node? (by rw [hnone]; nofun)
        obtain ⟨hgrows, hlater⟩ := ih (by rw [node?_put d hne, if_pos rfl]) hrest' hrest
        exact ⟨.put hnone hlater hgrows, hbegins.trans hlater⟩

/-- What lies somewhere has something at every beginning of its place. -/
theorem Sound.node?_of_begins (h : d.Sound) (hbegins : place <+: q) (hq : d.node? q ≠ none) :
    d.node? place ≠ none := by
  obtain ⟨behind, rfl⟩ := hbegins
  induction behind using List.reverseRecOn with
  | nil => rwa [List.append_nil] at hq
  | append_singleton names name ih =>
      rw [← List.append_assoc] at hq
      have hparent := h.parent _ hq
      rw [List.dropLast_concat] at hparent
      exact ih (hparent ▸ Option.some_ne_none _)

/-- Along a straight way, either all directories are there, or the last one is new. -/
theorem foldlM_makeStep_grows {cs : List Path.Component} (hsound : d.Sound)
    (hplace : d.node? place = some .directory) (hroot : .root ∉ cs.tail)
    (hstraight : d.StraightFrom place cs)
    (h : cs.foldlM makeStep (d, place) = .ok (d', next)) :
    Grows next d d' ∧
      (cs.foldlM d.step place = .ok next ∧ d.node? next = some .directory ∨
        d.node? next = none) := by
  induction cs generalizing place with
  | nil =>
      obtain ⟨rfl, rfl⟩ := Prod.mk.inj (Except.ok.inj h)
      exact ⟨fun _ => Or.inl rfl, Or.inl ⟨rfl, hplace⟩⟩
  | cons c rest ih =>
      obtain ⟨⟨d₁, place₁⟩, hmake, hrest⟩ := foldlM_makeStep_cons.mp h
      obtain ⟨hstep, ⟨hnode, rfl⟩ | ⟨hnone, rfl⟩⟩ := makeStep_cases hmake
      · have hlater : d₁.StraightFrom place₁ rest := fun before after hsplit => by
          obtain ⟨dir, hway, hdir⟩ := hstraight (c :: before) after (by rw [hsplit]; rfl)
          obtain ⟨place₂, hstep₂, hway⟩ := foldlM_step_cons.mp hway
          obtain rfl := Except.ok.inj (hstep.symm.trans hstep₂)
          exact ⟨dir, hway, hdir⟩
        obtain ⟨hgrows, hlast⟩ := ih hnode (fun hmem => hroot (List.mem_of_mem_tail hmem)) hlater
          hrest
        exact ⟨hgrows, hlast.imp_left fun hway =>
          ⟨foldlM_step_cons.mpr ⟨place₁, hstep, hway.1⟩, hway.2⟩⟩
      · -- behind a directory that has to be made, there are names alone
        have hnames : ∀ c ∈ rest, c = .current ∨ ∃ name, c = .name name := by
          intro c' hc'
          cases c' with
          | root => exact absurd hc' hroot
          | current => exact Or.inl rfl
          | name name => exact Or.inr ⟨name, rfl⟩
          | parent =>
              obtain ⟨before, after, rfl⟩ := List.append_of_mem hc'
              obtain ⟨dir, hway, hdir⟩ := hstraight (c :: before) after rfl
              obtain ⟨place₂, hstep₂, hway⟩ := foldlM_step_cons.mp hway
              obtain rfl := Except.ok.inj (hstep.symm.trans hstep₂)
              have hthere : d.node? place₁ = some .directory := by
                cases before with
                | nil => exact Except.ok.inj hway ▸ hdir
                | cons c₁ _ =>
                    obtain ⟨_, hstep₁, -⟩ := foldlM_step_cons.mp hway
                    exact (of_step_eq_ok hstep₁).1
              rw [hnone] at hthere
              cases hthere
        have hne : place₁ ≠ [] := ne_nil_of_node? (by rw [hnone]; nofun)
        obtain ⟨hgrows, hbegins⟩ :=
          grows_of_names (by rw [node?_put d hne, if_pos rfl]) hnames hrest
        refine ⟨.put hnone hbegins hgrows, Or.inr ?_⟩
        by_contra hnext
        exact hsound.node?_of_begins hbegins hnext hnone

/-- Making directories along a straight path adds nothing but directories on the way, and none if
there is one already where the path leads. -/
theorem makeDirectories_grows (hsound : d.Sound) (hstraight : d.Straight path)
    (h : d.makeDirectories [] path = .ok d') :
    Grows (placeOf path) d d' ∧ (d.Leads path ∨ d.node? (placeOf path) = none) := by
  have hroot : .root ∉ (Path.components path.toList).tail := by
    obtain ⟨cs, hcs, hnames⟩ := Path.components_cases path.toList
    have hmem : .root ∉ cs := fun hmem => by
      rcases hnames _ hmem with heq | heq | ⟨name, heq, -⟩ <;> cases heq
    rcases hcs with hcs | hcs
    · rwa [hcs]
    · rw [hcs]
      exact fun htail => hmem (List.mem_of_mem_tail htail)
  unfold makeDirectories at h
  cases hmake : (Path.components path.toList).foldlM makeStep (d, []) with
  | error e =>
      rw [hmake] at h
      cases h
  | ok made =>
      rw [hmake] at h
      obtain rfl := Except.ok.inj h
      have hplace : made.2 = placeOf path :=
        of_foldlM_step (of_foldlM_makeStep rfl hmake).2.1
      obtain ⟨hgrows, hlast⟩ := foldlM_makeStep_grows hsound rfl hroot hstraight hmake
      rw [hplace] at hgrows hlast
      exact ⟨hgrows, hlast⟩

end Disk
end Notebook
