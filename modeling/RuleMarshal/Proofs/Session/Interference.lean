import RuleMarshal.Proofs.Session.Currency
import RuleMarshal.Proofs.Session.Nesting
import RuleMarshal.Proofs.Synthesis.Classes
/-!
What a running host function can do to the environment that runs it. The guard of the operations
refuses most of it: no guarded command is sent, nothing is registered or undefined, and no epoch
ends, except that the environment may be closed (`Evolves.restrained`). So it is with every
operation at every point of a run at which a function is running, and with whole functions that are
called there (`Running.restrained`, `Running.restrained_call`).

Two operations are not guarded: a closing changes the standing of the environment, and a synthesis
defines classes. Where neither happens the environment is left alone (`Evolves.leavesAlone_iff`). A
function that the engine has called can do both (`running_function_interferes`).
-/

set_option autoImplicit false
set_option relaxedAutoImplicit false

namespace RuleMarshal

open Act

/-! ### Commands that are guarded -/

/-- The guarded command that an event is, if it is one. -/
def Event.guarded? : Event → Option Command
  | .command c => if c.isGuarded then some c else none
  | _ => none

/-- The guarded commands that were sent, in order. -/
def State.guarded (s : State) : List Command := s.history.toList.filterMap Event.guarded?

/-- An event that is no guarded command leaves them as they are. -/
theorem State.guarded_push {s : State} {e : Event} (he : e.guarded? = none) :
    { s with history := s.history.push e }.guarded = s.guarded := by
  simp [guarded, List.filterMap_append, he]

theorem Event.guarded?_of_not_isCommand {e : Event} (hevent : e.isCommand = false) :
    e.guarded? = none := by
  cases e <;> first | rfl | cases hevent

/-! ### Restraint -/

/-- An environment that was closed: both of its epochs have ended. -/
def State.shut (s : State) : State :=
  { s with closed := true, constructEpoch := s.constructEpoch + 1, dataEpoch := s.dataEpoch + 1 }

theorem State.SameStanding.shut {s t : State} (hst : s.SameStanding t) :
    s.shut.SameStanding t.shut :=
  ⟨rfl, congrArg Nat.succ hst.constructEpoch, congrArg Nat.succ hst.dataEpoch,
    hst.generations, hst.functions⟩

/-- What running functions do at most: the environment keeps its standing or is closed once, and no
guarded command is sent. -/
structure State.Restrained (s t : State) : Prop where
  standing : s.SameStanding t ∨ s.closed = false ∧ s.shut.SameStanding t
  guarded : t.guarded = s.guarded

namespace State.Restrained

variable {s t u : State}

theorem trans (hst : s.Restrained t) (htu : t.Restrained u) : s.Restrained u := by
  refine ⟨?_, htu.guarded.trans hst.guarded⟩
  obtain hsame | ⟨hopen, hshut⟩ := hst.standing
  · obtain hsame' | ⟨hopen, hshut⟩ := htu.standing
    · exact .inl (hsame.trans hsame')
    · exact .inr ⟨hsame.closed.symm.trans hopen, hsame.shut.trans hshut⟩
  · obtain hsame' | ⟨hopen', -⟩ := htu.standing
    · exact .inr ⟨hopen, hshut.trans hsame'⟩
    · -- what was closed is not closed again
      rw [hshut.closed] at hopen'
      cases hopen'

/-- An environment that is open as before, or closed as before, has kept its standing. -/
theorem sameStanding (hst : s.Restrained t) (hclosed : t.closed = s.closed) : s.SameStanding t := by
  obtain hsame | ⟨hopen, hshut⟩ := hst.standing
  · exact hsame
  · rw [hshut.closed, hopen] at hclosed
    cases hclosed

end State.Restrained

variable {σ : Setup} {m : Manner} {s t : State}

/-- While a host function runs, whatever happens is restrained. -/
theorem Evolves.restrained (hst : Evolves σ m s t) (hrunning : 0 < s.depth) : s.Restrained t := by
  induction hst with
  | trans hst _ hs ht => exact (hs hrunning).trans (ht (hst.depth_eq ▸ hrunning))
  | note m s e hevent =>
    exact ⟨.inl ⟨rfl, rfl, rfl, rfl, rfl⟩,
      State.guarded_push (Event.guarded?_of_not_isCommand hevent)⟩
  | send m s c hopen hguard =>
    have hfree : c.isGuarded = false :=
      Bool.eq_false_iff.mpr fun hguarded ↦ hrunning.ne' (hguard hguarded).2
    refine ⟨.inl ⟨rfl, rfl, rfl, rfl, rfl⟩, State.guarded_push (e := .command c) ?_⟩
    simp [Event.guarded?, hfree]
  | call m hrun ih =>
    -- a function that is called meanwhile runs above the one that runs already
    obtain ⟨hsame | ⟨hopen, hshut⟩, hguarded⟩ := ih (Nat.succ_pos _)
    · exact ⟨.inl ⟨hsame.closed, hsame.constructEpoch, hsame.dataEpoch, hsame.generations,
        hsame.functions⟩, hguarded⟩
    · exact ⟨.inr ⟨hopen, hshut.closed, hshut.constructEpoch, hshut.dataEpoch, hshut.generations,
        hshut.functions⟩, hguarded⟩
  | register s hrest => exact absurd hrest hrunning.ne'
  | endData s hrest => exact absurd hrest hrunning.ne'
  | endAll s hrest => exact absurd hrest hrunning.ne'
  | retire s hrest => exact absurd hrest hrunning.ne'
  | close s hopen => exact ⟨.inr ⟨hopen, .refl _⟩, rfl⟩
  | _ => exact ⟨.inl ⟨rfl, rfl, rfl, rfl, rfl⟩, rfl⟩

/-! ### Being left alone -/

/-- An environment that nothing was done to: it has kept its standing, no guarded command was sent,
and no construct was defined. -/
structure State.LeftAlone (s t : State) : Prop extends s.SameStanding t where
  guarded : t.guarded = s.guarded
  constructs : t.constructs = s.constructs

/-- A running function leaves the environment alone unless it closes it or defines classes. -/
theorem Evolves.leavesAlone_iff (hst : Evolves σ m s t) (hrunning : 0 < s.depth) :
    s.LeftAlone t ↔ t.closed = s.closed ∧ t.constructs = s.constructs := by
  have hrestrained := hst.restrained hrunning
  refine ⟨fun halone ↦ ⟨halone.closed, halone.constructs⟩, fun ⟨hclosed, hconstructs⟩ ↦ ?_⟩
  exact ⟨hrestrained.sameStanding hclosed, hrestrained.guarded, hconstructs⟩

section

variable {types : TypeTable} {config : Config} {engine : Array Event → Command → Reply}
variable {allowance running : Nat}

/-- Where functions are running, whatever is asked of an environment, of a handle or of anything
else is restrained, and it leaves the environment alone unless it closes it or defines classes. -/
theorem Running.restrained (hs : Running types config engine allowance running s)
    (hrunning : 0 < running) (receiver : Value) (method : Method) (b : Bound) :
    let after := (callReceiver receiver method b).leaves
      (World.ofDepth types config engine allowance) s
    s.Restrained after ∧
      (s.LeftAlone after ↔ after.closed = s.closed ∧ after.constructs = s.constructs) := by
  have hdepth : 0 < s.depth := by rwa [hs.depth_eq]
  have hworld := World.ofDepth_orderly types config engine allowance
  have hst := evolving_callReceiver hworld receiver method b s
  exact ⟨hst.restrained hdepth, hst.leavesAlone_iff hdepth⟩

/-- Where functions are running, a function that runs is restrained in all that it does. -/
theorem Running.restrained_call (hs : Running types config engine allowance running s)
    (hrunning : 0 < running) (f : Callable) (args : List Value) :
    s.Restrained ((f.run args).leaves (World.ofDepth types config engine allowance) s) := by
  have hdepth : 0 < s.depth := by rwa [hs.depth_eq]
  exact (f.evolving_run (World.ofDepth_orderly types config engine allowance) args
    s).restrained hdepth

end

/-! ### Interference -/

/-- A function that closes the environment. -/
def quitFunction : FunctionLiteral :=
  .mk (some "quit") [] none true (.mk none [.mk "close" [] [] none none] false .count)

/-- The registration of a function that closes the environment. -/
def quitRegistration : Registration where
  signature :=
    { text := .plain "quit", params := [], required := 0, variadic := none, returns := .any
      errorTerminal := false }
  function := .function quitFunction
  listedAs := .plain "quit"

/-- An environment that has the function registered. -/
def quittingState : State where
  functions := [("quit", quitRegistration)]
  bound := [("quit", quitRegistration)]

/-- A struct type without fields. -/
def leafTypes : TypeTable where
  types := [{ name := "Leaf", kind := .described, fields := [] }]

/-- An engine that has no classes. -/
def classlessEngine (_ : Array Event) (_ : Command) : Reply := { outcome := .ok (.symbol "FALSE") }

/-- The world in which a function is called by that engine, with calls nested to some depth. -/
def quittingWorld (depth : Nat) : World := .ofDepth leafTypes {} classlessEngine depth

theorem runIn_typeGiven_struct (world : World) (s : State) (struct : String) :
    (typeGiven (.hint (.struct struct))).runIn world s = (.ok (.struct struct), s) := by
  have hkey : (Value.hint (.struct struct)).countable world.types s.heap = .ok () := by
    simp [Value.countable, Value.countableWithin]
  unfold typeGiven requireKey
  rw [runIn_bind, runIn_bind, runIn_read]
  dsimp only
  rw [runIn_bind, runIn_get]
  dsimp only
  rw [hkey]
  rfl

/-- Running functions interfere. The engine has called the function, and the function closes the
environment that it runs in. Where it runs neither a closing nor a synthesis leaves the environment
alone, since a synthesis has the engine define a class. -/
theorem running_function_interferes :
    ∃ s, Running leafTypes {} classlessEngine 0 1 s ∧
      (quitRegistration.entry []).runIn (quittingWorld 1) quittingState = (.ok [], s) ∧
      s.closed = false ∧
        ((quitRegistration.function.run []).leaves (quittingWorld 0) s).closed = true ∧
      ¬s.LeftAlone ((callReceiver .environment .close {}).leaves (quittingWorld 0) s) ∧
      ¬s.LeftAlone ((callReceiver .environment .synthesize
        { values := [some (.hint (.struct "Leaf"))] }).leaves (quittingWorld 0) s) := by
  have hentry : (quitRegistration.entry []).runIn (quittingWorld 1) quittingState =
      (.ok [], { quittingState with depth := 1 }) := rfl
  have hsynthesis : (callReceiver .environment .synthesize
      { values := [some (.hint (.struct "Leaf"))] }).runIn (quittingWorld 0)
        { quittingState with depth := 1 } =
        Act.runIn (do return textList (← synthesize (.struct "Leaf"))) (quittingWorld 0)
          { quittingState with depth := 1 } := by
    show (typeGiven (.hint (.struct "Leaf")) >>= _).runIn _ _ = _
    rw [runIn_bind, runIn_typeGiven_struct]
  refine ⟨_, .called (.outside 1 rfl) hentry, hentry, rfl,
    by decide +kernel, fun halone ↦ ?_, fun halone ↦ ?_⟩
  · exact absurd halone.closed (by decide +kernel)
  · have hconstructs := congrArg List.length halone.constructs
    rw [Act.leaves, hsynthesis] at hconstructs
    exact absurd hconstructs (by decide +kernel)

end RuleMarshal
