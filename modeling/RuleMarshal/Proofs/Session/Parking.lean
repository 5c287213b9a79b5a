import RuleMarshal.Proofs.Session.Refusal
/-!
Who raises what is parked. An operation takes up whatever is parked when its command ends, with no
regard to the command that it was parked in, so an evaluation in which nothing is called raises what
is left from before (`eval_raises_parked`). Some operations send commands that no operation takes up
after them: what fails while the engine clears is raised by whatever asks next
(`failure_carried_past_clear`).

A failure is taken up before an operation does what it does after its command. A reset that raises
has ended no epoch, also where the engine has done all of it (`isCurrent_of_reset_raises`), so
handles on what is gone pass for current (`handle_outlives_failed_reset`).
-/

set_option autoImplicit false
set_option relaxedAutoImplicit false

namespace RuleMarshal

open Act

/-- An evaluation to which the engine replies without a call raises what was parked before it. -/
theorem eval_raises_parked {world : World} {s t : State} {e : Expression} {v : Native}
    {value : EngineValue} {failure : Error} (hopen : s.closed = false)
    (hreply : world.engine s.history (.evaluate e) = { outcome := .ok v })
    (hvalue : v.toEngine.runIn world { s with history := s.history.push (.command (.evaluate e)) } =
      (.ok value, t))
    (hparked : s.parked = some failure) :
    (eval e).runIn world s = (.error failure, { t with parked := none }) := by
  have hrun : (Channel.evaluate e).runIn world s = (.ok value, t) := by
    rw [Channel.runIn_evaluate hreply, if_neg (by simp [hopen]), hvalue]
  have hleft : t.parked = some failure := by
    have : IsPreorder State fun s t ↦ t.parked = s.parked :=
      { refl := fun _ ↦ rfl, trans := fun _ _ _ hst htu ↦ htu.trans hst }
    have hkeeps : v.toEngine.Keeps (fun s t ↦ t.parked = s.parked) world :=
      v.keeps_toEngine fun _ _ ↦ rfl
    exact (hkeeps.of_runIn hvalue).trans hparked
  unfold eval
  rw [runIn_checked_of_ends hrun nofun, hleft]
  rfl

/-! ### A failure while the engine clears -/

/-- An engine that calls a function while it clears, and makes no other call. -/
def clearingEngine (_ : Array Event) : Command → Reply
  | .clear => { calls := [⟨"boom", []⟩] }
  | .evaluate (.isFunction _) => { outcome := .ok (.symbol "TRUE") }
  | _ => { outcome := .ok (.int 1) }

/-- A function that the engine calls while it clears fails, and clearing ends well for all that. The
failure is left parked with no function running, and the next evaluation raises it, in which nothing
is called. -/
theorem failure_carried_past_clear :
    let world := World.ofDepth {} {} clearingEngine 2
    let begun := (Environment.register (.function raisingFunction) .none).runIn world {}
    let cleared := Environment.clear.runIn world begun.2
    let asked := (Environment.evaluate (.text "(+ 0 1)")).runIn world cleared.2
    cleared.1 = .ok () ∧ cleared.2.depth = 0 ∧
      (clearingEngine cleared.2.history (.evaluate (.written "(+ 0 1)"))).calls = [] ∧
      ∃ failure, cleared.2.parked = some failure ∧ asked.1 = .error failure := by
  intro world begun cleared asked
  have hasked : asked = (eval (.written "(+ 0 1)")).runIn world cleared.2 := by
    dsimp only [asked]
    unfold Environment.evaluate Environment.expression Environment.sent
    rw [runIn_bind, runIn_bind, runIn_bind, runIn_get]
    dsimp only
    rw [Heap.content_text]
    rfl
  refine ⟨rfl, rfl, rfl, _, rfl, ?_⟩
  rw [hasked, eval_raises_parked rfl rfl rfl rfl]

/-! ### A failure while the engine resets -/

/-- A reset that raises has given orders at most: the data epoch ends behind what can raise. -/
theorem Environment.evolves_of_reset_raises {world : World} {s t : State} {e : Error}
    (hworld : world.Orderly) (hrun : reset.runIn world s = (.error e, t)) :
    Evolves world.setup .ordering s t := by
  have hrest := hworld.frameFromRest (m := .ordering) (by decide)
  unfold reset at hrun
  rw [runIn_guardMutation_bind] at hrun
  split at hrun
  · cases hrun
    exact .refl _ s
  · split at hrun
    · cases hrun
      exact .refl _ s
    · rename_i hidle
      rw [runIn_bind] at hrun
      cases hordered : (discard (checked (Channel.command .reset))).runIn world s with
      | mk answer u =>
        rw [hordered] at hrun
        cases answer with
        | ok _ => cases hrun
        | error failure =>
          cases hrun
          exact (hrest.checked (hrest.command trivial)).discard.of_runIn hordered
            (Nat.eq_zero_of_not_pos hidle)

/-- Past a reset that raises, every handle is as current as it was, unless the environment was
closed meanwhile. -/
theorem isCurrent_of_reset_raises {world : World} {s t : State} {e : Error} (hworld : world.Orderly)
    (hrun : Environment.reset.runIn world s = (.error e, t)) (hopen : t.closed = false)
    (h : Handle) :
    h.isCurrent t = h.isCurrent s :=
  Handle.isCurrent_of_orders (Environment.evolves_of_reset_raises hworld hrun) hopen

/-- An engine that calls a function while it resets. -/
def resettingEngine (_ : Array Event) : Command → Reply
  | .reset => { calls := [⟨"boom", []⟩] }
  | _ => {}

/-- The engine resets, a function that it calls meanwhile fails, and the reset raises that failure.
A handle on an instance from before is still current. -/
theorem handle_outlives_failed_reset :
    let world := World.ofDepth {} {} resettingEngine 2
    let begun := ((Environment.register (.function raisingFunction) .none).runIn world {}).2
    let given := (instanceHandle "x").runIn world begun
    let after := Environment.reset.runIn world given.2
    ∃ h failure, given.1 = .ok h ∧ after.1 = .error (.call failure (some "boom")) ∧
      Event.command .reset ∈ after.2.history.toList ∧
      (resettingEngine given.2.history .reset).outcome = .ok .null ∧
      (Handle.inst h).isCurrent given.2 = true ∧ (Handle.inst h).isCurrent after.2 = true := by
  intro world begun given after
  have hworld : world.Orderly := World.ofDepth_orderly {} {} resettingEngine 2
  obtain ⟨failure, hraised⟩ : ∃ failure, after.1 = .error (.call failure (some "boom")) := ⟨_, rfl⟩
  have hsent : after.2.history[1]? = some (.command .reset) := rfl
  refine ⟨_, failure, rfl, hraised, ?_, rfl, rfl, ?_⟩
  · exact List.mem_of_getElem? (Array.getElem?_toList.trans hsent)
  · rw [isCurrent_of_reset_raises hworld (Prod.ext hraised rfl) rfl]
    rfl

end RuleMarshal
