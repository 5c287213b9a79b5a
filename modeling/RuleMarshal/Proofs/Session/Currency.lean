import RuleMarshal.Proofs.Session.Evolution
/-!
Which handles are current. A handle is known in a state if it was handed out in one of the epochs up
to that state (`Handle.IsKnown`), as every handle is that an environment hands out. Since epochs
never fall, a known handle that is not current never becomes current again
(`Handle.notCurrent_of_le`). What the operations that end epochs do to handles follows from what
they do to the state: they give orders to the engine, which change no standing, and then move one
counter.
-/

set_option autoImplicit false
set_option relaxedAutoImplicit false

namespace RuleMarshal

open Act

/-! ### Handles -/

/-- A handle on an instance, a fact, a template or a class. -/
inductive Handle where
  | inst (h : InstanceHandle)
  | fact (h : FactHandle)
  | template (h : TemplateHandle)
  | defclass (h : ClassHandle)

namespace Handle

/-- Whether a handle may still refer to something. -/
def isCurrent (s : State) : Handle → Bool
  | .inst h => h.isCurrent s
  | .fact h => h.isCurrent s
  | .template h => h.isCurrent s
  | .defclass h => h.isCurrent s

/-- The template or class that a handle refers to; handles on instances and facts refer to none. -/
def construct? : Handle → Option (ConstructKind × String)
  | .inst _ | .fact _ => none
  | .template h => some (.template, h.name)
  | .defclass h => some (.defclass, h.name)

/-- Whether a handle was handed out in an epoch up to that of a state. -/
def IsKnown (s : State) : Handle → Prop
  | .inst h => h.epoch ≤ s.dataEpoch
  | .fact h => h.epoch ≤ s.dataEpoch
  | .template h => h.epoch.1 ≤ s.constructEpoch ∧ h.epoch.2 ≤ s.generation .template h.name
  | .defclass h => h.epoch.1 ≤ s.constructEpoch ∧ h.epoch.2 ≤ s.generation .defclass h.name

variable {s t : State} {h : Handle}

theorem IsKnown.mono (hknown : h.IsKnown s) (hst : s.Le t) : h.IsKnown t := by
  cases h with
  | inst h => exact Nat.le_trans hknown hst.dataEpoch
  | fact h => exact Nat.le_trans hknown hst.dataEpoch
  | template h =>
    exact ⟨Nat.le_trans hknown.1 hst.constructEpoch, Nat.le_trans hknown.2 (hst.generation _ _)⟩
  | defclass h =>
    exact ⟨Nat.le_trans hknown.1 hst.constructEpoch, Nat.le_trans hknown.2 (hst.generation _ _)⟩

theorem isCurrent_inst {h : InstanceHandle} :
    (inst h).isCurrent s = true ↔ s.closed = false ∧ s.dataEpoch = h.epoch := by
  simp [isCurrent, InstanceHandle.isCurrent]

theorem isCurrent_fact {h : FactHandle} :
    (fact h).isCurrent s = true ↔ s.closed = false ∧ s.dataEpoch = h.epoch := by
  simp [isCurrent, FactHandle.isCurrent]

theorem isCurrent_template {h : TemplateHandle} :
    (template h).isCurrent s = true ↔
      s.closed = false ∧ (s.constructEpoch, s.generation .template h.name) = h.epoch := by
  unfold isCurrent TemplateHandle.isCurrent
  rw [Bool.and_eq_true, Bool.not_eq_true', decide_eq_true_iff, State.constructEpochOf_eq]

theorem isCurrent_defclass {h : ClassHandle} :
    (defclass h).isCurrent s = true ↔
      s.closed = false ∧ (s.constructEpoch, s.generation .defclass h.name) = h.epoch := by
  unfold isCurrent ClassHandle.isCurrent
  rw [Bool.and_eq_true, Bool.not_eq_true', decide_eq_true_iff, State.constructEpochOf_eq]

theorem notCurrent_of_closed (hclosed : s.closed = true) : h.isCurrent s = false := by
  cases h <;> simp [isCurrent, InstanceHandle.isCurrent, FactHandle.isCurrent,
    TemplateHandle.isCurrent, ClassHandle.isCurrent, hclosed]

/-- Where counters have not fallen, a known handle that was not current is not current. -/
theorem notCurrent_of_le (hst : s.Le t) (hknown : h.IsKnown s) (hstale : h.isCurrent s = false) :
    h.isCurrent t = false := by
  refine Bool.eq_false_iff.mpr fun hcurrent ↦ Bool.false_ne_true (hstale.symm.trans ?_)
  have hopen : t.closed = false → s.closed = false := fun ht ↦
    Bool.eq_false_iff.mpr fun hs ↦ Bool.false_ne_true (ht.symm.trans (hst.closed hs))
  cases h with
  | inst h =>
    obtain ⟨ht, hepoch⟩ := isCurrent_inst.mp hcurrent
    exact isCurrent_inst.mpr ⟨hopen ht, Nat.le_antisymm (hepoch ▸ hst.dataEpoch) hknown⟩
  | fact h =>
    obtain ⟨ht, hepoch⟩ := isCurrent_fact.mp hcurrent
    exact isCurrent_fact.mpr ⟨hopen ht, Nat.le_antisymm (hepoch ▸ hst.dataEpoch) hknown⟩
  | template h =>
    obtain ⟨ht, hepoch⟩ := isCurrent_template.mp hcurrent
    refine isCurrent_template.mpr ⟨hopen ht, Prod.ext ?_ ?_⟩
    · exact Nat.le_antisymm (hepoch ▸ hst.constructEpoch) hknown.1
    · exact Nat.le_antisymm (hepoch ▸ hst.generation .template h.name) hknown.2
  | defclass h =>
    obtain ⟨ht, hepoch⟩ := isCurrent_defclass.mp hcurrent
    refine isCurrent_defclass.mpr ⟨hopen ht, Prod.ext ?_ ?_⟩
    · exact Nat.le_antisymm (hepoch ▸ hst.constructEpoch) hknown.1
    · exact Nat.le_antisymm (hepoch ▸ hst.generation .defclass h.name) hknown.2

/-- Where the standing is the same, so is what handles refer to. -/
theorem isCurrent_of_sameStanding (hst : s.SameStanding t) : h.isCurrent t = h.isCurrent s := by
  have hgeneration : ∀ kind name, t.generation kind name = s.generation kind name := by
    intro kind name
    unfold State.generation
    rw [hst.generations]
  rw [Bool.eq_iff_iff]
  cases h with
  | inst h => rw [isCurrent_inst, isCurrent_inst, hst.closed, hst.dataEpoch]
  | fact h => rw [isCurrent_fact, isCurrent_fact, hst.closed, hst.dataEpoch]
  | template h =>
    rw [isCurrent_template, isCurrent_template, hst.closed, hst.constructEpoch, hgeneration]
  | defclass h =>
    rw [isCurrent_defclass, isCurrent_defclass, hst.closed, hst.constructEpoch, hgeneration]

/-- When all instances and facts are gone, known handles on them are not current. -/
theorem notCurrent_of_dataEpoch_lt (hdata : h.construct? = none) (hknown : h.IsKnown s)
    (hmoved : s.dataEpoch < t.dataEpoch) : h.isCurrent t = false := by
  refine Bool.eq_false_iff.mpr fun hcurrent ↦ ?_
  cases h with
  | inst h =>
    have hepoch := (isCurrent_inst.mp hcurrent).2
    exact absurd (Nat.le_trans (Nat.le_of_eq hepoch) hknown) (Nat.not_le_of_lt hmoved)
  | fact h =>
    have hepoch := (isCurrent_fact.mp hcurrent).2
    exact absurd (Nat.le_trans (Nat.le_of_eq hepoch) hknown) (Nat.not_le_of_lt hmoved)
  | template h => simp [construct?] at hdata
  | defclass h => simp [construct?] at hdata

/-- When all constructs are gone, known handles on them are not current. -/
theorem notCurrent_of_constructEpoch_lt {kind : ConstructKind} {name : String}
    (hconstruct : h.construct? = some (kind, name)) (hknown : h.IsKnown s)
    (hmoved : s.constructEpoch < t.constructEpoch) : h.isCurrent t = false := by
  refine Bool.eq_false_iff.mpr fun hcurrent ↦ ?_
  cases h with
  | inst h => simp [construct?] at hconstruct
  | fact h => simp [construct?] at hconstruct
  | template h =>
    have hepoch := congrArg Prod.fst (isCurrent_template.mp hcurrent).2
    exact absurd (Nat.le_trans (Nat.le_of_eq hepoch) hknown.1) (Nat.not_le_of_lt hmoved)
  | defclass h =>
    have hepoch := congrArg Prod.fst (isCurrent_defclass.mp hcurrent).2
    exact absurd (Nat.le_trans (Nat.le_of_eq hepoch) hknown.1) (Nat.not_le_of_lt hmoved)

/-- When a template or class is gone, known handles on it are not current. -/
theorem notCurrent_of_generation_lt {kind : ConstructKind} {name : String}
    (hconstruct : h.construct? = some (kind, name)) (hknown : h.IsKnown s)
    (hmoved : s.generation kind name < t.generation kind name) : h.isCurrent t = false := by
  refine Bool.eq_false_iff.mpr fun hcurrent ↦ ?_
  cases h with
  | inst h => simp [construct?] at hconstruct
  | fact h => simp [construct?] at hconstruct
  | template h =>
    obtain ⟨rfl, rfl⟩ : .template = kind ∧ h.name = name := by simpa [construct?] using hconstruct
    have hepoch := congrArg Prod.snd (isCurrent_template.mp hcurrent).2
    exact absurd (Nat.le_trans (Nat.le_of_eq hepoch) hknown.2) (Nat.not_le_of_lt hmoved)
  | defclass h =>
    obtain ⟨rfl, rfl⟩ : .defclass = kind ∧ h.name = name := by simpa [construct?] using hconstruct
    have hepoch := congrArg Prod.snd (isCurrent_defclass.mp hcurrent).2
    exact absurd (Nat.le_trans (Nat.le_of_eq hepoch) hknown.2) (Nat.not_le_of_lt hmoved)

/-- The end of the data epoch does not touch handles on constructs. -/
theorem isCurrent_endData {kind : ConstructKind} {name : String}
    (hconstruct : h.construct? = some (kind, name)) :
    h.isCurrent { s with dataEpoch := s.dataEpoch + 1 } = h.isCurrent s := by
  cases h with
  | inst h => simp [construct?] at hconstruct
  | fact h => simp [construct?] at hconstruct
  | template h => rfl
  | defclass h => rfl

/-- Retiring a template or class does not touch handles on anything else. -/
theorem isCurrent_retire {kind : ConstructKind} {name : String}
    (hother : h.construct? ≠ some (kind, name)) :
    h.isCurrent (s.retire kind name) = h.isCurrent s := by
  cases h with
  | inst h => rfl
  | fact h => rfl
  | template h =>
    have hne : (.template, h.name) ≠ (kind, name) := fun heq ↦ hother (congrArg some heq)
    rw [Bool.eq_iff_iff, isCurrent_template, isCurrent_template, s.generation_retire_ne hne]
    rfl
  | defclass h =>
    have hne : (.defclass, h.name) ≠ (kind, name) := fun heq ↦ hother (congrArg some heq)
    rw [Bool.eq_iff_iff, isCurrent_defclass, isCurrent_defclass, s.generation_retire_ne hne]
    rfl

end Handle

/-! ### Handles that are handed out -/

section

variable {world : World} {s t : State}

theorem isKnown_of_instanceHandle {name : String} {h : InstanceHandle}
    (hrun : (instanceHandle name).runIn world s = (.ok h, t)) : (Handle.inst h).IsKnown t := by
  obtain ⟨serial, u, -, hrun⟩ := ok_of_bind hrun
  cases hrun
  exact Nat.le_refl _

theorem isKnown_of_factHandle {index : Int} {h : FactHandle}
    (hrun : (factHandle index).runIn world s = (.ok h, t)) : (Handle.fact h).IsKnown t := by
  obtain ⟨serial, u, -, hrun⟩ := ok_of_bind hrun
  cases hrun
  exact Nat.le_refl _

theorem isKnown_of_templateHandle {name : Value} {h : TemplateHandle}
    (hrun : (templateHandle name).runIn world s = (.ok h, t)) : (Handle.template h).IsKnown t := by
  obtain ⟨_, u, -, hrun⟩ := ok_of_bind hrun
  obtain ⟨_, _, hget, hrun⟩ := ok_of_bind hrun
  cases hget
  obtain ⟨text, v, htext, hrun⟩ := ok_of_bind hrun
  obtain rfl : u = v := (Keeps.symbolText (R := Eq) .template name).of_runIn htext
  cases hrun
  exact ⟨Nat.le_refl _, Nat.le_refl _⟩

theorem isKnown_of_classHandle {name : Value} {h : ClassHandle}
    (hrun : (classHandle name).runIn world s = (.ok h, t)) : (Handle.defclass h).IsKnown t := by
  obtain ⟨_, u, -, hrun⟩ := ok_of_bind hrun
  obtain ⟨_, _, hget, hrun⟩ := ok_of_bind hrun
  cases hget
  obtain ⟨text, v, htext, hrun⟩ := ok_of_bind hrun
  obtain rfl : u = v := (Keeps.symbolText (R := Eq) .defclass name).of_runIn htext
  cases hrun
  exact ⟨Nat.le_refl _, Nat.le_refl _⟩

end

/-! ### Operations that end epochs -/

section

variable {world : World} {s t : State}

variable (hworld : world.Orderly)
include hworld

/-- A reset that returns has given orders, and then ended the data epoch. -/
theorem Environment.ok_of_reset (hrun : reset.runIn world s = (.ok ⟨⟩, t)) :
    ∃ u, Evolves world.setup .ordering s u ∧ t = { u with dataEpoch := u.dataEpoch + 1 } := by
  have hrest := hworld.frameFromRest (m := .ordering) (by decide)
  obtain ⟨-, hdepth, hrun⟩ := ok_of_guardMutation hrun
  obtain ⟨_, u, hordered, hrun⟩ := ok_of_bind hrun
  cases hrun
  exact ⟨u, (hrest.checked (hrest.command trivial)).discard.of_runIn hordered hdepth, rfl⟩

/-- A clearing that returns has ended all epochs between two rounds of orders. -/
theorem Environment.ok_of_clear (hrun : clear.runIn world s = (.ok ⟨⟩, t)) :
    ∃ u, Evolves world.setup .ordering s u ∧
      Evolves world.setup .ordering
        { u with constructEpoch := u.constructEpoch + 1, dataEpoch := u.dataEpoch + 1 } t := by
  have hrest := hworld.frameFromRest (m := .ordering) (by decide)
  obtain ⟨-, hdepth, hrun⟩ := ok_of_guardMutation hrun
  obtain ⟨_, u, hordered, hrun⟩ := ok_of_bind hrun
  have hfirst := (hrest.command trivial).discard.of_runIn hordered hdepth
  obtain ⟨_, v, hends, hrun⟩ := ok_of_bind hrun
  cases hends
  have hrestored := (keeps_restore (m := .ordering) hworld (by decide)).of_runIn hrun
  exact ⟨u, hfirst, hrestored (hfirst.depth_eq.trans hdepth)⟩

omit hworld in
/-- What was ordered away and then retired was retired after orders alone. -/
theorem ok_of_retiring (hworld : world.Orderly) {check : Act Unit} {isAlive : Act Bool}
    (hcheck : check.Keeps (Evolves world.setup .ordering) world)
    (halive : isAlive.Keeps (Evolves world.setup .ordering) world) {operation : String}
    {e : Expression} {refusal : Error} {kind : ConstructKind} {name : String}
    (hrun : Act.runIn (do
      check
      guardMutation operation
      discard (eval e)
      if ← isAlive then throw refusal
      retire kind name) world s = (.ok ⟨⟩, t)) :
    ∃ u, Evolves world.setup .ordering s u ∧ t = u.retire kind name := by
  have hrest := hworld.frameFromRest (m := .ordering) (by decide)
  obtain ⟨_, u, hchecked, hrun⟩ := ok_of_bind hrun
  obtain ⟨-, hdepth, hrun⟩ := ok_of_guardMutation hrun
  obtain ⟨_, v, hordered, hrun⟩ := ok_of_bind hrun
  obtain ⟨alive, w, hasked, hrun⟩ := ok_of_bind hrun
  obtain ⟨-, hrun⟩ := ok_of_refuse hrun
  cases hrun
  have huv := (hrest.eval trivial).discard.of_runIn hordered hdepth
  exact ⟨w, .trans (hcheck.of_runIn hchecked) (.trans huv (halive.of_runIn hasked)), rfl⟩

theorem TemplateHandle.ok_of_undefine {h : TemplateHandle}
    (hrun : h.undefine.runIn world s = (.ok ⟨⟩, t)) :
    ∃ u, Evolves world.setup .ordering s u ∧ t = u.retire .template h.name :=
  ok_of_retiring hworld (Meets.iff_keeps.mp (h.meets_check (hworld.frame .ordering).inquiring))
    ((hworld.frame .ordering).keeps_templateAlive h) hrun

theorem ClassHandle.ok_of_undefine {h : ClassHandle}
    (hrun : h.undefine.runIn world s = (.ok ⟨⟩, t)) :
    ∃ u, Evolves world.setup .ordering s u ∧ t = u.retire .defclass h.name :=
  ok_of_retiring hworld (Meets.iff_keeps.mp (h.meets_check (hworld.frame .ordering).inquiring))
    (Meets.iff_keeps.mp (h.meets_isAlive (hworld.frame .ordering).inquiring)) hrun

end

/-! ### What ends and what does not -/

namespace Handle

variable {σ : Setup} {s u t : State} {h : Handle}

/-- Orders leave the currency of handles as it was, unless the environment is closed meanwhile. -/
theorem isCurrent_of_orders (hsu : Evolves σ .ordering s u) (hopen : u.closed = false) :
    h.isCurrent u = h.isCurrent s :=
  isCurrent_of_sameStanding (hsu.sameStanding (.inl (by decide)) hopen)

/-- The end of all epochs is the end of every known handle. -/
theorem notCurrent_of_endAll (hsu : s.Le u) (hconstructs : u.constructEpoch < t.constructEpoch)
    (hdata : u.dataEpoch < t.dataEpoch) (hknown : h.IsKnown s) : h.isCurrent t = false := by
  cases hkind : h.construct? with
  | none => exact notCurrent_of_dataEpoch_lt hkind (hknown.mono hsu) hdata
  | some construct =>
    exact notCurrent_of_constructEpoch_lt hkind (hknown.mono hsu) hconstructs

theorem notCurrent_of_retire (hsu : Evolves σ .ordering s u) {kind : ConstructKind}
    {name : String} (hconstruct : h.construct? = some (kind, name)) (hknown : h.IsKnown s) :
    h.isCurrent (u.retire kind name) = false :=
  notCurrent_of_generation_lt hconstruct (hknown.mono hsu.le)
    (Nat.lt_of_lt_of_eq (Nat.lt_succ_self _) (u.generation_retire_self kind name).symm)

theorem isCurrent_of_retire (hsu : Evolves σ .ordering s u) {kind : ConstructKind}
    {name : String} (hopen : (u.retire kind name).closed = false)
    (hother : h.construct? ≠ some (kind, name)) :
    h.isCurrent (u.retire kind name) = h.isCurrent s :=
  (isCurrent_retire hother).trans (isCurrent_of_orders hsu hopen)

end Handle

/-- The state that a host program leaves behind. -/
def World.after (world : World) (steps : List Step) (s : State) : State :=
  (reports world (steps.map Step.run) s).2

/-- The state that an operation leaves behind. -/
abbrev Act.leaves {α : Type} (act : Act α) (world : World) (s : State) : State :=
  (act.runIn world s).2

/-- A computation returns if its run ends with an answer. -/
def Act.Returns {α : Type} (act : Act α) (world : World) (s : State) : Prop :=
  ∃ a, (act.runIn world s).1 = .ok a

theorem Act.Returns.run {act : Act PUnit} {world : World} {s : State} (h : act.Returns world s) :
    act.runIn world s = (.ok ⟨⟩, act.leaves world s) :=
  h.elim fun _ hanswer ↦ Prod.ext hanswer rfl

/-- Epochs only end. Whatever a host program does and whatever the engine replies, a handle that was
handed out stays one, and once it is not current it never is again. A clearing that returns and
every closing end all handles that were handed out before; a reset that returns ends those on
instances and facts, and an undefinition that returns those on its construct. As long as no host
function closes the environment meanwhile, all other handles are as current as they were. -/
theorem epochs_only_end (types : TypeTable) (config : Config)
    (engine : Array Event → Command → Reply) (depth : Nat) :
    let world := World.ofDepth types config engine depth
    (∀ (h : Handle) (s : State) (steps : List Step), h.IsKnown s →
      h.IsKnown (world.after steps s) ∧
        (h.isCurrent s = false → h.isCurrent (world.after steps s) = false)) ∧
    (∀ s t,
      (∀ name h, (instanceHandle name).runIn world s = (.ok h, t) → (Handle.inst h).IsKnown t) ∧
      (∀ index h, (factHandle index).runIn world s = (.ok h, t) → (Handle.fact h).IsKnown t) ∧
      (∀ name h, (templateHandle name).runIn world s = (.ok h, t) →
        (Handle.template h).IsKnown t) ∧
      (∀ name h, (classHandle name).runIn world s = (.ok h, t) →
        (Handle.defclass h).IsKnown t)) ∧
    (∀ s, Environment.clear.Returns world s → ∀ h : Handle, h.IsKnown s →
      h.isCurrent (Environment.clear.leaves world s) = false) ∧
    (∀ s, ∀ h : Handle, h.isCurrent (Environment.close.leaves world s) = false) ∧
    (∀ s, Environment.reset.Returns world s →
      (∀ h : Handle, h.construct? = none → h.IsKnown s →
        h.isCurrent (Environment.reset.leaves world s) = false) ∧
      ((Environment.reset.leaves world s).closed = false → ∀ h : Handle, h.construct? ≠ none →
        h.isCurrent (Environment.reset.leaves world s) = h.isCurrent s)) ∧
    (∀ (c : TemplateHandle) (s : State), c.undefine.Returns world s →
      (∀ h : Handle, h.construct? = some (.template, c.name) → h.IsKnown s →
        h.isCurrent (c.undefine.leaves world s) = false) ∧
      ((c.undefine.leaves world s).closed = false → ∀ h : Handle,
        h.construct? ≠ some (.template, c.name) →
          h.isCurrent (c.undefine.leaves world s) = h.isCurrent s)) ∧
    (∀ (c : ClassHandle) (s : State), c.undefine.Returns world s →
      (∀ h : Handle, h.construct? = some (.defclass, c.name) → h.IsKnown s →
        h.isCurrent (c.undefine.leaves world s) = false) ∧
      ((c.undefine.leaves world s).closed = false → ∀ h : Handle,
        h.construct? ≠ some (.defclass, c.name) →
          h.isCurrent (c.undefine.leaves world s) = h.isCurrent s)) := by
  intro world
  have hworld : world.Orderly := World.ofDepth_orderly types config engine depth
  refine ⟨fun h s steps hknown ↦ ?_, fun s t ↦ ⟨fun _ _ ↦ isKnown_of_instanceHandle,
    fun _ _ ↦ isKnown_of_factHandle, fun _ _ ↦ isKnown_of_templateHandle,
    fun _ _ ↦ isKnown_of_classHandle⟩, fun s hreturns h hknown ↦ ?_, fun s h ↦ ?_,
    fun s hreturns ↦ ?_, fun c s hreturns ↦ ?_, fun c s hreturns ↦ ?_⟩
  · have hle := (evolves_reports hworld steps s).le
    exact ⟨hknown.mono hle, Handle.notCurrent_of_le hle hknown⟩
  · obtain ⟨u, hsu, hut⟩ := Environment.ok_of_clear hworld hreturns.run
    exact Handle.notCurrent_of_endAll hsu.le hut.le.constructEpoch hut.le.dataEpoch hknown
  · refine Handle.notCurrent_of_closed ?_
    rw [Act.leaves, Environment.runIn_close]
    cases hclosed : s.closed with
    | true => exact hclosed
    | false => rfl
  · obtain ⟨u, hsu, hut⟩ := Environment.ok_of_reset hworld hreturns.run
    rw [hut]
    refine ⟨fun h hdata hknown ↦ ?_, fun hopen h hconstruct ↦ ?_⟩
    · exact Handle.notCurrent_of_dataEpoch_lt hdata (hknown.mono hsu.le) (Nat.lt_succ_self _)
    · obtain ⟨construct, hsome⟩ := Option.ne_none_iff_exists'.mp hconstruct
      exact (Handle.isCurrent_endData hsome).trans (Handle.isCurrent_of_orders hsu hopen)
  · obtain ⟨u, hsu, hut⟩ := c.ok_of_undefine hworld hreturns.run
    rw [hut]
    exact ⟨fun h hsame hknown ↦ Handle.notCurrent_of_retire hsu hsame hknown,
      fun hopen h hother ↦ Handle.isCurrent_of_retire hsu hopen hother⟩
  · obtain ⟨u, hsu, hut⟩ := c.ok_of_undefine hworld hreturns.run
    rw [hut]
    exact ⟨fun h hsame hknown ↦ Handle.notCurrent_of_retire hsu hsame hknown,
      fun hopen h hother ↦ Handle.isCurrent_of_retire hsu hopen hother⟩

/-- A handle that is current at first, and is not after a reset that returns. -/
theorem epochs_only_end_with_reset :
    let world := World.ofDepth {} {} (scripted #[]) 1
    let h : Handle := .inst ⟨"a", 0, 1⟩
    Environment.reset.Returns world {} ∧ h.IsKnown {} ∧ h.isCurrent {} = true ∧
      h.isCurrent (Environment.reset.leaves world {}) = false :=
  have hreturns : Environment.reset.Returns (World.ofDepth {} {} (scripted #[]) 1) {} := ⟨⟨⟩, rfl⟩
  ⟨hreturns, Nat.le_refl 0, rfl, ((epochs_only_end {} {} (scripted #[]) 1).2.2.2.2.1 {} hreturns).1
    (.inst ⟨"a", 0, 1⟩) rfl (Nat.le_refl 0)⟩

end RuleMarshal
