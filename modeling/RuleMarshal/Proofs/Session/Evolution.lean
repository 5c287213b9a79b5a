import RuleMarshal.Proofs.Session.Dispatch
/-!
Runs of host programs evolve the state. Every operation that a step can call does
(`evolving_callReceiver`), hence every step and every body of a host function; by induction on how
deep calls nest, every world of some depth is orderly (`World.ofDepth_orderly`), and whole runs
evolve the state (`evolves_reports`).
-/

set_option autoImplicit false
set_option relaxedAutoImplicit false

namespace RuleMarshal

open Act

variable {world : World}

/-- Keeping to what an operation may do when it is free to do everything. -/
abbrev Act.Evolving (world : World) {α : Type} (act : Act α) : Prop :=
  act.Keeps (Evolves world.setup .acting) world

section

variable (hworld : world.Orderly)
include hworld

theorem evolving_callReceiver (receiver : Value) (method : Method) (b : Bound) :
    (callReceiver receiver method b).Evolving world :=
  (concludes_callReceiver hworld.governing receiver method b).keeps (fun _ _ ↦ id) fun _ _ _ ↦ id

/-- A step evolves the state. -/
theorem Step.evolving_run (step : Step) : step.run.Evolving world :=
  step.keeps_run Evolves.leavesHostFree (evolving_callReceiver hworld)

/-- A host function evolves the state. -/
theorem Callable.evolving_run (f : Callable) (args : List Value) : (f.run args).Evolving world :=
  f.keeps_run Evolves.leavesHostFree (evolving_callReceiver hworld) (fun _ ↦ keeps_note rfl)
    (fun _ _ ↦ keeps_note rfl) args

end

/-! ### Worlds and runs -/

theorem World.ofDepth_setup (types : TypeTable) (config : Config)
    (engine : Array Event → Command → Reply) (depth : Nat) :
    (World.ofDepth types config engine depth).setup = ⟨types, config, engine⟩ := by
  cases depth <;> rfl

/-- However deep calls may nest, host functions evolve the state. -/
theorem World.ofDepth_orderly (types : TypeTable) (config : Config)
    (engine : Array Event → Command → Reply) (depth : Nat) :
    (World.ofDepth types config engine depth).Orderly := by
  induction depth with
  | zero => exact ⟨fun _ _ s ↦ .refl _ s, fun _ _ s ↦ .refl _ s⟩
  | succ depth ih =>
    have hsetup := World.ofDepth_setup types config engine depth
    refine ⟨fun f args s ↦ ?_, fun v h s ↦ ?_⟩
    · have hrun := f.evolving_run ih args s
      rw [hsetup] at hrun
      exact hrun
    · have hrun := (ih.frame .asking).resolveArgument Evolves.leavesHostFree v h s
      rw [hsetup] at hrun
      exact hrun

/-- A run of a host program evolves the state. -/
theorem evolves_reports (hworld : world.Orderly) (steps : List Step) (s : State) :
    Evolves world.setup .acting s (reports world (steps.map Step.run) s).2 := by
  induction steps generalizing s with
  | nil => exact .refl _ s
  | cons step rest ih => exact .trans (step.evolving_run hworld s) (ih _)

end RuleMarshal
