import RuleMarshal.Proofs.Environment.Relay
import RuleMarshal.Proofs.Session.Evolution
/-!
What becomes of the engine's refusals. However deep calls may nest, the calls are over in the end
that began while a host function ran (`World.ofDepth_endsCalls`), so a refusal of an operation's own
command surfaces in the error that the operation ends with (`refusal_surfaces`). The exception are
the slots of a template, which the engine is asked for to find out whether the template exists: an
engine that refuses to name them has the template count as gone (`refused_slots_count_as_gone`).
-/

set_option autoImplicit false
set_option relaxedAutoImplicit false

namespace RuleMarshal

open Act

/-! ### Calls that nest -/

section

variable {world : World} (hworld : world.EndsCalls)
include hworld

theorem callsOver_callReceiver (receiver : Value) (method : Method) (b : Bound) :
    (callReceiver receiver method b).Keeps (CallsOver world.engine) world :=
  (concludes_callReceiver hworld.governing receiver method b).keeps
    (fun _ _ hrefusals ↦ hrefusals.callsOver) fun _ _ _ hrefusals ↦ hrefusals.callsOver

/-- After a step the calls are over that began in it. -/
theorem Step.callsOver_run (step : Step) : step.run.Keeps (CallsOver world.engine) world :=
  step.keeps_run CallsOver.leavesHostFree (callsOver_callReceiver hworld)

/-- After the body of a host function the calls are over that began in it. -/
theorem Callable.callsOver_run (f : Callable) (args : List Value) :
    (f.run args).Keeps (CallsOver world.engine) world :=
  f.keeps_run CallsOver.leavesHostFree (callsOver_callReceiver hworld)
    (fun _ ↦ CallsOver.keeps_note rfl rfl) (fun _ _ ↦ CallsOver.keeps_note rfl rfl) args

theorem callsOver_resolveArgument (v : EngineValue) (dest : Hint) :
    (resolveArgument v dest).Keeps (CallsOver world.engine) world :=
  (Concludes.of_meets (hworld.governing.resolveArgument v dest)).keeps
    (fun _ _ hrefusals ↦ hrefusals.callsOver) fun _ _ _ hrefusals ↦ hrefusals.callsOver

omit hworld in
theorem State.parksCall_initial : State.ParksCall {} := fun _ ↦ nofun

/-- After every step of a host program what is parked, if anything is, is a failed call. -/
theorem parksCall_reports (steps : List Step) {s : State} (hs : s.ParksCall) :
    (reports world (steps.map Step.run) s).2.ParksCall := by
  induction steps generalizing s with
  | nil => exact hs
  | cons step rest ih => exact ih ((step.callsOver_run hworld s).parks hs)

end

section

variable (types : TypeTable) (config : Config) (engine : Array Event → Command → Reply)

theorem World.ofDepth_engine (depth : Nat) :
    (World.ofDepth types config engine depth).engine = engine :=
  congrArg Setup.engine (World.ofDepth_setup types config engine depth)

/-- However deep calls may nest, a host function ends with no call under way that began in it. -/
theorem World.ofDepth_endsCalls (depth : Nat) :
    (World.ofDepth types config engine depth).EndsCalls := by
  induction depth with
  | zero =>
    exact ⟨fun _ _ s ↦ refl_of (CallsOver engine) s, fun _ _ s ↦ refl_of (CallsOver engine) s⟩
  | succ depth ih =>
    refine ⟨fun f args s ↦ ?_, fun v h s ↦ ?_⟩
    · have hrun := f.callsOver_run ih args s
      rwa [World.ofDepth_engine] at hrun
    · have hrun := callsOver_resolveArgument ih v h s
      rwa [World.ofDepth_engine] at hrun

end

/-! ### Requests -/

/-- What a host program asks for: an environment, or an operation of something. -/
inductive Request
  | start
  | call (receiver : Value) (method : Method) (b : Bound)

namespace Request

/-- What is done for a request. -/
def act : Request → Act Value
  | .start => done Environment.start
  | .call receiver method b => callReceiver receiver method b

/-- Whether a request may be answered by telling that something is not there. -/
def reportsAbsence : Request → Bool
  | .start => false
  | .call _ method _ => method.reportsAbsence

theorem concludes_act {C C₀ : Contract} {world : World} (hC : Governing C C₀ world) :
    ∀ r : Request, r.act.Concludes C world
  | .start => .of_meets (meets_done (Environment.meets_start hC.toCommanding))
  | .call receiver method b => concludes_callReceiver hC receiver method b

theorem meets_act {C C₀ : Contract} {world : World} (hC : Governing C C₀ world) {r : Request}
    (hr : r.reportsAbsence = false) : r.act.Meets C world := by
  cases r with
  | start => exact meets_done (Environment.meets_start hC.toCommanding)
  | call receiver method b => exact meets_callReceiver hC receiver hr b

end Request

/-- Where the engine refuses an own command of an operation, the operation fails with an error that
tells of it, or it reports the absence of a template whose slots the engine has refused to name.
What is parked in the end is a failed call if it was at first. -/
theorem refusal_surfaces (types : TypeTable) (config : Config)
    (engine : Array Event → Command → Reply) (depth : Nat) (r : Request) {s t : State}
    {answer : Except Error Value} (hs : s.ParksCall)
    (hrun : r.act.runIn (World.ofDepth types config engine depth) s = (answer, t)) :
    t.ParksCall ∧ ∀ c d, c.isWrapped = true → Refused engine s.past t.past c d →
      (∃ e, answer = .error e ∧ Surfaces c d e) ∨
        ((∃ v, answer = .ok v) ∧ r.reportsAbsence = true ∧
          ∃ name, c = .evaluate (.templateSlots name)) := by
  have hgoverning := (World.ofDepth_endsCalls types config engine depth).governing
  rw [World.ofDepth_engine] at hgoverning
  cases answer with
  | error e =>
    have hrefusals := (r.concludes_act hgoverning).failed hrun
    exact ⟨hrefusals.callsOver.parks hs, fun c d hc hrefused ↦
      .inl ⟨e, rfl, hrefusals.each hs c d hc hrefused⟩⟩
  | ok v =>
    have hrefusals := (r.concludes_act hgoverning).concluded hrun
    refine ⟨hrefusals.callsOver.parks hs, fun c d hc hrefused ↦ .inr ⟨⟨v, rfl⟩, ?_⟩⟩
    cases habsence : r.reportsAbsence with
    | true => exact ⟨rfl, hrefusals.each hs c d hc hrefused⟩
    | false =>
      have hnone := (Request.meets_act hgoverning habsence).answered hrun
      exact (hnone.each hs c d hc hrefused).elim

/-- A class listing that the engine refuses is an error with the engine's text. -/
theorem refusal_surfaces_of_listing :
    let engine : Array Event → Command → Reply := fun _ _ ↦ { outcome := .error "boom" }
    let listed :=
      (Request.call .environment .classes {}).act.runIn (World.ofDepth {} {} engine 1) {}
    Refused engine [] listed.2.past (.evaluate .classList) "boom" ∧
      ∃ e, listed.1 = .error e ∧ Surfaces (.evaluate .classList) "boom" e := by
  intro engine listed
  have hrefused : Refused engine [] listed.2.past (.evaluate .classList) "boom" :=
    ⟨[], List.nil_suffix, List.suffix_rfl, rfl, rfl⟩
  have hrun : (Request.call .environment .classes {}).act.runIn (World.ofDepth {} {} engine 1) {} =
      (listed.1, listed.2) := rfl
  have hsurfaces := (refusal_surfaces {} {} engine 1 _ State.parksCall_initial hrun).2 _ _
    rfl hrefused
  refine ⟨hrefused, hsurfaces.resolve_right ?_⟩
  rintro ⟨⟨v, hanswer⟩, -⟩
  cases hanswer

/-- An engine that lists no template and refuses everything else. -/
def refusingEngine (_ : Array Event) : Command → Reply
  | .evaluate (.isListedTemplate _) => { outcome := .ok (.symbol "FALSE") }
  | _ => { outcome := .error "boom" }

/-- The engine's text is lost where a template's slots are asked for to find out whether the
template exists: a template that the engine refuses to name the slots of counts as gone. -/
theorem refused_slots_count_as_gone :
    let asked :=
      (callReceiver (.templateHandle { text := .plain "x", epoch := (0, 0) }) .implied {}).runIn
        (World.ofDepth {} {} refusingEngine 1) {}
    Refused refusingEngine [] asked.2.past (.evaluate (.templateSlots "x")) "boom" ∧
      asked.1 = .error (.stale (.templateGone "x")) := by
  intro asked
  exact ⟨⟨[.command (.evaluate (.isListedTemplate "x"))], List.nil_suffix,
    List.suffix_rfl, rfl, rfl⟩, rfl⟩

end RuleMarshal
