import RuleMarshal.Proofs.Session.Refusal
/-!
Handles that outlive what they refer to. An instance or a fact is destroyed by an order to the
engine, and no order ends an epoch, so a handle that has destroyed what it refers to is still
current (`Handle.isCurrent_of_destroys`). As long as the data epoch lasts, all that its check does
is to ask the engine (`Handle.runIn_check_after_destroyed`), and the engine knows nothing but the
name or the index: when something else has taken that since, the handle passes for a handle on it
(`destroyed_instance_revived`, `modified_fact_revived`).
-/

set_option autoImplicit false
set_option relaxedAutoImplicit false

namespace RuleMarshal

open Act

namespace Handle

/-- What a handle on an instance or a fact does to destroy it; a fact that is modified gives way to
another. -/
inductive Destroys : Handle → Act Unit → Prop
  | delete (h : InstanceHandle) : Destroys (.inst h) h.delete
  | unmake (h : InstanceHandle) : Destroys (.inst h) h.unmake
  | modify (h : FactHandle) (changes : List (String × Value)) :
      Destroys (.fact h) (h.modify changes >>= fun _ ↦ pure ⟨⟩)

/-- What the engine is asked about the instance or fact that a handle refers to. -/
def presence? : Handle → Option Expression
  | .inst h => some (.instanceExists h.name)
  | .fact h => some (.factExists h.index)
  | .template _ | .defclass _ => none

variable {world : World} {s t u : State} {h : Handle} {act : Act Unit}

theorem Destroys.check_beginsWith (hdestroys : h.Destroys act) : h.check.BeginsWith world act := by
  cases hdestroys with
  | delete h => exact (BeginsWith.self h.check world).bind
  | unmake h => exact (BeginsWith.self h.check world).bind
  | modify h changes => exact (BeginsWith.self h.check world).bind.bind

/-- What a handle does to destroy what it refers to is to give orders. -/
theorem Destroys.keeps (hdestroys : h.Destroys act) (hworld : world.Orderly) :
    act.Keeps (Evolves world.setup .ordering) world := by
  have hcommanding := hworld.commanding (m := .ordering) (by decide)
  cases hdestroys with
  | delete h => exact Meets.iff_keeps.mp (h.meets_delete hcommanding)
  | unmake h => exact Meets.iff_keeps.mp (h.meets_unmake hcommanding)
  | modify h changes =>
    exact (Meets.iff_keeps.mp (h.meets_modify hcommanding changes)).bind fun _ ↦ .pure _

/-- A handle that could destroy what it refers to was current. -/
theorem Destroys.isCurrent_before (hdestroys : h.Destroys act)
    (hrun : act.runIn world s = (.ok ⟨⟩, t)) :
    h.isCurrent s = true := by
  rw [← Bool.not_eq_false]
  intro hstale
  have hcheck : h.check.runIn world s = (.error (.stale h.gone), s) :=
    runIn_check_of_notCurrent hstale
  have hfails := hdestroys.check_beginsWith s _ _ hcheck
  rw [hfails] at hrun
  cases hrun

/-- A handle that has destroyed what it refers to is current still, if the environment is open. -/
theorem isCurrent_of_destroys (hdestroys : h.Destroys act) (hworld : world.Orderly)
    (hrun : act.runIn world s = (.ok ⟨⟩, t)) (hopen : t.closed = false) : h.isCurrent t = true :=
  (isCurrent_of_orders ((hdestroys.keeps hworld).of_runIn hrun) hopen).trans
    (hdestroys.isCurrent_before hrun)

/-- A handle on an instance or a fact is current as long as the data epoch lasts and the environment
is open. -/
theorem isCurrent_of_dataEpoch_eq (hpresence : h.presence?.isSome) (hcurrent : h.isCurrent s = true)
    (hopen : t.closed = false) (hepoch : t.dataEpoch = s.dataEpoch) : h.isCurrent t = true := by
  cases h with
  | inst h => exact isCurrent_inst.mpr ⟨hopen, hepoch.trans (isCurrent_inst.mp hcurrent).2⟩
  | fact h => exact isCurrent_fact.mpr ⟨hopen, hepoch.trans (isCurrent_fact.mp hcurrent).2⟩
  | template h => cases hpresence
  | defclass h => cases hpresence

/-- All that the check of a current handle on an instance or a fact does is to ask the engine. -/
theorem runIn_check_of_current {question : Expression} (hpresence : h.presence? = some question)
    (hcurrent : h.isCurrent s = true) :
    h.check.runIn world s =
      Act.runIn (do if !(← evalTrue question) then throw (.stale h.gone)) world s := by
  cases h with
  | inst h =>
    cases hpresence
    change h.isCurrent s = true at hcurrent
    simp [check, gone, InstanceHandle.check, InstanceHandle.isAlive, runIn_bind, hcurrent]
  | fact h =>
    cases hpresence
    change h.isCurrent s = true at hcurrent
    simp [check, gone, FactHandle.check, FactHandle.isAlive, runIn_bind, hcurrent]
  | template h => cases hpresence
  | defclass h => cases hpresence

/-- Whatever a host program does once a handle has destroyed what it refers to, the check of the
handle does nothing but ask the engine for the name or the index, as long as the data epoch lasts
and the environment is open. -/
theorem runIn_check_after_destroyed (hdestroys : h.Destroys act) (hworld : world.Orderly)
    (hrun : act.runIn world s = (.ok ⟨⟩, t)) (steps : List Step)
    (hopen : (world.after steps t).closed = false)
    (hepoch : (world.after steps t).dataEpoch = t.dataEpoch) :
    ∃ question, h.presence? = some question ∧
      h.check.runIn world (world.after steps t) =
        Act.runIn (do if !(← evalTrue question) then throw (.stale h.gone))
          world (world.after steps t) := by
  have hle := (evolves_reports hworld steps t).le
  have hopened : t.closed = false := by
    rw [← Bool.not_eq_true]
    intro hclosed
    rw [show (world.after steps t).closed = true from hle.closed hclosed] at hopen
    cases hopen
  obtain ⟨question, hpresence⟩ : ∃ question, h.presence? = some question := by
    cases hdestroys <;> exact ⟨_, rfl⟩
  have hcurrent := isCurrent_of_dataEpoch_eq (Option.isSome_of_mem hpresence)
    (isCurrent_of_destroys hdestroys hworld hrun hopened) hopen hepoch
  exact ⟨question, hpresence, runIn_check_of_current hpresence hcurrent⟩

end Handle

/-! ### Something else of that name -/

/-- An engine that makes instances called `x` and has them when asked, and in which a fact that is
modified keeps its index. -/
def remakingEngine (_ : Array Event) : Command → Reply
  | .evaluate (.makeInstance ..) => { outcome := .ok (.instanceName "x") }
  | .evaluate (.modify index _) => { outcome := .ok (.fact index false) }
  | _ => { outcome := .ok (.symbol "TRUE") }

/-- An instance is deleted or unmade, and another one of its name is made. The old handle is equal
to the new one, says that it exists, and reads a slot of the new instance. -/
theorem destroyed_instance_revived :
    let world := World.ofDepth {} {} remakingEngine 1
    let h : InstanceHandle := ⟨"x", 0, 0⟩
    ∀ destroy, destroy = h.delete ∨ destroy = h.unmake →
      let destroyed := destroy.runIn world {}
      let remade := (ClassHandle.newInstance ⟨.plain "A", (0, 0), 0⟩ (.text "x") []).runIn
        world destroyed.2
      destroyed.1 = .ok ⟨⟩ ∧ ∃ g, remade.1 = .ok g ∧ h.same g = true ∧
        (h.isAlive.runIn world remade.2).1 = .ok true ∧
          ((h.slot (.text "n")).runIn world remade.2).1 = .ok (.symbol "TRUE") := by
  intro world h
  rintro destroy (rfl | rfl)
  · exact ⟨rfl, _, rfl, rfl, rfl, rfl⟩
  · exact ⟨rfl, _, rfl, rfl, rfl, rfl⟩

/-- A fact is modified and keeps its index. The old handle is equal to the new one and says that it
exists. -/
theorem modified_fact_revived :
    let world := World.ofDepth {} {} remakingEngine 1
    let h : FactHandle := ⟨1, 0, 0⟩
    let modified := (h.modify []).runIn world {}
    modified.1 = .ok ⟨1, 0, 1⟩ ∧ h.same ⟨1, 0, 1⟩ = true ∧
      (h.isAlive.runIn world modified.2).1 = .ok true :=
  ⟨rfl, rfl, rfl⟩

end RuleMarshal
