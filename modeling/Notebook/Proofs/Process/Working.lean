import Notebook.Proofs.Process.Hosts

/-!
# What a host does by itself

In every round a host lets its machine go on and lets pumps and monitors work, and between
rounds somebody may listen.  All this is made of steps, in an order that the machine and the
clock determine, and so it is one of the histories of a host.

* `stepsTo_pump`, `stepsTo_monitor`: what one pump and one monitor do.
* `stepsTo_tick`, `stepsTo_workUntil`: a round, and rounds until enough is known.
* `Registered.stepsTo`: the books stay in order.
-/

set_option autoImplicit false

namespace Notebook
namespace Host

/-- The supervisor has gone on by steps of pumps, of monitors and of those who listen. -/
def StepsTo (h h' : Host) : Prop :=
  ∃ steps : List (Nat × Supervisor.Step),
    h'.supervisor = (h.after (steps.map fun s => .step s.1 s.2)).supervisor

/-- What steps do to the supervisor depends on nothing else. -/
theorem supervisor_after_steps (steps : List (Nat × Supervisor.Step)) {h h' : Host}
    (hsame : h'.supervisor = h.supervisor) :
    (h'.after (steps.map fun s => .step s.1 s.2)).supervisor =
      (h.after (steps.map fun s => .step s.1 s.2)).supervisor := by
  induction steps generalizing h h' with
  | nil => exact hsame
  | cons first rest ih => exact ih (congrArg (·.step first.1 first.2) hsame)

namespace StepsTo

variable {h h' h'' : Host}

theorem of_same (hsame : h'.supervisor = h.supervisor) : StepsTo h h' :=
  ⟨[], hsame⟩

theorem of_step (g : Nat) (what : Supervisor.Step)
    (hstep : h'.supervisor = h.supervisor.step g what) : StepsTo h h' :=
  ⟨[(g, what)], hstep⟩

theorem trans (hfirst : StepsTo h h') (hsecond : StepsTo h' h'') : StepsTo h h'' := by
  obtain ⟨steps, heq⟩ := hfirst
  obtain ⟨steps', heq'⟩ := hsecond
  refine ⟨steps ++ steps', ?_⟩
  rw [heq', supervisor_after_steps steps' heq, List.map_append]
  exact congrArg Host.supervisor List.foldl_append.symm

end StepsTo

/-! ## Pumps and monitors -/

/-- A worker takes a pump up, lets it take a step, and leaves it. -/
theorem stepsTo_attend (h : Host) (g : Nat) (stream : OutputStream) (what : Supervisor.Step) :
    StepsTo h (h.attend g stream what) :=
  ⟨[(g, .attend stream), (g, what), (g, .unattend stream)], rfl⟩

/-- A pump reads, if it is free, and then delivers, if there is room. -/
theorem stepsTo_pump (h : Host) (g : Nat) (stream : OutputStream) (pipe : Nat) :
    StepsTo h (h.pump g stream pipe).2 := by
  unfold pump
  split
  · exact .of_same rfl
  · split
    next moved h' hmoved =>
      have hread : StepsTo h h' := by
        split at hmoved
        · split at hmoved
          · obtain ⟨_, rfl⟩ := Prod.mk.inj hmoved
            exact .of_same rfl
          · next machine _ =>
              obtain ⟨_, rfl⟩ := Prod.mk.inj hmoved
              have hpipe : StepsTo h { h with machine := machine.letGo (.source pipe) } :=
                .of_same rfl
              exact hpipe.trans (stepsTo_attend _ g stream _)
          · next machine _ _ =>
              obtain ⟨_, rfl⟩ := Prod.mk.inj hmoved
              have hpipe : StepsTo h { h with machine } := .of_same rfl
              exact hpipe.trans (stepsTo_attend _ g stream _)
        · obtain ⟨_, rfl⟩ := Prod.mk.inj hmoved
          exact .of_same rfl
      refine hread.trans ?_
      split
      · split
        · split
          · exact stepsTo_attend h' g stream _
          · exact .of_same rfl
        · exact .of_same rfl
      · exact .of_same rfl

/-- A monitor does what is due in its phase. -/
theorem stepsTo_monitor (h : Host) (g : Nat) (w : Wire) : StepsTo h (h.monitor g w).2 := by
  unfold monitor
  split
  · exact .of_same rfl
  · split
    · split
      · next status _ => exact .of_step g (.exit (exitOf status)) rfl
      · exact .of_same rfl
    · split
      · exact .of_step g .drain rfl
      · split
        · exact .of_step g .giveUp rfl
        · exact .of_same rfl
    · exact .of_step g .remove rfl
    · split
      · exact .of_step g .report rfl
      · exact .of_same rfl
    · exact .of_same rfl

/-! ## Rounds -/

theorem stepsTo_serve (h : Host) : StepsTo h h.serve.2 := by
  unfold serve
  refine List.foldlRecOn (motive := fun known : Bool × Host => StepsTo h known.2)
    h.wires.entries _ (.of_same rfl) ?_
  intro known hknown wire _
  have hstdout := hknown.trans (stepsTo_pump _ wire.1 .stdout wire.2.stdout)
  have hstderr := hstdout.trans (stepsTo_pump _ wire.1 .stderr wire.2.stderr)
  exact hstderr.trans (stepsTo_monitor _ wire.1 wire.2)

/-- A round is made of steps. -/
theorem stepsTo_tick (h : Host) : StepsTo h h.tick.2 := by
  have hmachine : StepsTo h { h with machine := h.machine.round.2 } := .of_same rfl
  exact hmachine.trans (stepsTo_serve _)

theorem stepsTo_setClock (h : Host) (now : Nat) : StepsTo h (h.setClock now) :=
  .of_same rfl

/-- Listening takes the events that are there. -/
theorem stepsTo_hear (g : Nat) (k : Heard) (h : Host) : StepsTo h (hear g k h).2 := by
  unfold hear
  split
  · exact .of_same rfl
  · next r _ =>
      refine List.foldlRecOn (motive := fun h' : Host => StepsTo h h') r.queue _ (.of_same rfl) ?_
      exact fun h' hsteps _ _ => hsteps.trans (.of_step g .take rfl)

/-- Rounds are made of steps, if what is learned between them is. -/
theorem stepsTo_workUntil {σ : Type} {enough : σ → Host → Bool} {learn : σ → Host → σ × Host}
    (hlearn : ∀ known h, StepsTo h (learn known h).2) (h : Host) (fuel limit : Nat)
    (known : σ) : StepsTo h (h.workUntil fuel limit enough learn known).2 := by
  induction fuel generalizing h known with
  | zero => exact .of_same rfl
  | succ fuel ih =>
      unfold workUntil
      split
      · exact .of_same rfl
      · have hround : StepsTo h (learn known h.tick.2).2 := (stepsTo_tick h).trans (hlearn _ _)
        dsimp only
        split
        · split
          · exact hround
          · exact hround.trans (ih _ _)
        · split
          · next due _ =>
              split
              · exact (hround.trans (stepsTo_setClock _ due)).trans (ih _ _)
              · exact hround.trans (stepsTo_setClock _ limit)
          · exact hround.trans (stepsTo_setClock _ limit)

theorem stepsTo_listen (h : Host) (g : Nat) : StepsTo h (h.listen g).2 :=
  stepsTo_workUntil (stepsTo_hear g) h _ _ _

/-! ## The books -/

/-- No step starts a process. -/
theorem started_steps (steps : List (Nat × Supervisor.Step)) (h : Host) :
    h.started (steps.map fun s => .step s.1 s.2) = [] := by
  induction steps generalizing h with
  | nil => rfl
  | cons first rest ih => exact ih _

/-- Whatever a host does by itself, its books stay in order. -/
theorem Registered.stepsTo {h h' : Host} {runs : List (Nat × ProcessKey × Nat)}
    (hh : Registered h runs) (hsteps : StepsTo h h') : Registered h' runs := by
  obtain ⟨steps, heq⟩ := hsteps
  have hafter := hh.after (steps.map fun s => .step s.1 s.2)
  rw [started_steps, List.append_nil] at hafter
  exact ⟨heq ▸ hafter.coherent, heq ▸ hafter.single, hafter.generations, heq ▸ hafter.runs⟩

end Host
end Notebook
