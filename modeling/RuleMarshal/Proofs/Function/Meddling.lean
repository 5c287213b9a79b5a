import RuleMarshal.Proofs.Function.Call
/-!
Functions that extract while they are called. What such a function does is one extraction, of an
instance into what a variable holds, and the state that its call ends in is the one that the
extraction ended in, with the call noted (`runIn_serve_extracting`). The engine can call a function
while it is asked about something, so such a call can fall into the question whether an instance
exists (`InstanceHandle.runIn_check_of_serve`).
-/

set_option autoImplicit false
set_option relaxedAutoImplicit false

namespace RuleMarshal

open Act

/-- A function without parameters that extracts an instance into what a variable holds, and answers
zero. -/
def extractingFunction (name source held : String) : FunctionLiteral :=
  .mk (some name) [] none true
    (.mk none [.mk "extract" [.instanceHandle source, .var held none] [] none none] false .count)

/-- A function that extracts, as it is registered under its name. -/
def extractingRegistration (name source held : String) : Registration where
  signature :=
    { text := .plain name, params := [], required := 0, variadic := none, returns := .any,
      errorTerminal := false }
  function := .function (extractingFunction name source held)
  listedAs := .plain name

/-- The state in which the function that was called does what it does. -/
def State.entering (s : State) (name : String) (types : TypeTable) : State :=
  { s with
    depth := s.depth + 1
    history := s.history.push (.invoked (some name) ((Value.list []).view types s.heap)) }

/-- The state in which the call of a function ends that was called in a state and answered zero. -/
def State.leaving (t s : State) (name : String) : State :=
  { t with
    depth := t.depth - 1
    history := t.history.push (.returned name (.int 0))
    calls := s.calls.push (s.heap, t.heap) }

section

variable {world : World} {name source held : String} {s t : State} {o w : Value}

theorem get_bind_const {α : Type} (act : Act α) : ((get : Act State) >>= fun _ ↦ act) = act := rfl

theorem Step.run_extract (source held : String) :
    (Step.mk "extract" [.instanceHandle source, .var held none] [] none none).run =
      valueOf held none >>= fun o ↦ extract (.instanceHandle ⟨source, 0, 0⟩) o := by
  have hhandle : Literal.read (.instanceHandle source) = pure (.instanceHandle ⟨source, 0, 0⟩) := by
    rw [Literal.read, Literal.readWithin]
  have hvar : Literal.read (.var held none) = valueOf held none := by
    rw [Literal.read, Literal.readWithin]
  have hargs : [Literal.instanceHandle source, .var held none].mapM Literal.read =
      valueOf held none >>= fun o ↦ pure [Value.instanceHandle ⟨source, 0, 0⟩, o] := by
    simp only [List.mapM_cons, List.mapM_nil, hhandle, hvar, pure_bind, bind_assoc]
  have hword : Method.ofWord? "extract" = some .extract := by
    simp [Method.ofWord?, Method.words, List.lookup_cons]
  unfold Step.run
  dsimp only
  rw [hargs, bind_assoc]
  refine bind_congr fun o ↦ ?_
  have hcalled : callEnvironment .extract
      { values := [some (.instanceHandle ⟨source, 0, 0⟩), some o] } =
      extract (.instanceHandle ⟨source, 0, 0⟩) o := rfl
  rw [pure_bind, List.mapM_nil, pure_bind, bind_pure, hword, ← hcalled]
  exact get_bind_const _

/-- The function notes that it was called and extracts. -/
theorem Callable.runIn_extracting
    (ho : (valueOf held none).runIn world
      { s with
        history := s.history.push
          (.invoked (some name) ((Value.list []).view world.types s.heap)) } = (.ok o, t))
    {u : State} (hrun : (extract (.instanceHandle ⟨source, 0, 0⟩) o).runIn world t = (.ok w, u)) :
    ((Callable.function (extractingFunction name source held)).run []).runIn world s =
      (.ok (.int .unsized 0), u) := by
  have hbody : (extractingFunction name source held).body.run [] =
      (tryCatch
        (discard (Step.mk "extract" [.instanceHandle source, .var held none] [] none none).run)
        (fun e ↦ do
          note (.stepFailed e)
          throw e) >>= fun _ ↦ pure PUnit.unit) >>= fun _ ↦
            (pure (.int .unsized 0) : Act Value) := rfl
  have hstep : (discard (valueOf held none >>= fun o ↦ extract (.instanceHandle ⟨source, 0, 0⟩) o) :
      Act Unit).runIn world
        { s with
          history := s.history.push
            (.invoked (some name) ((Value.list []).view world.types s.heap)) } =
      (.ok ⟨⟩, u) := by
    show Act.runIn (_ >>= fun _ ↦ pure _) _ _ = _
    rw [runIn_bind, runIn_bind_of_ok ho, hrun]
    rfl
  unfold Callable.run
  dsimp only
  rw [hbody, Step.run_extract, runIn_bind_of_ok (runIn_read world s),
    runIn_bind_of_ok (runIn_get world s)]
  rw [runIn_bind_of_ok
    (t := { s with
            history := s.history.push
              (.invoked (some name) ((Value.list []).view world.types s.heap)) }) rfl]
  rw [runIn_bind, runIn_bind, runIn_tryCatch, hstep]
  rfl

theorem answered_extractingRegistration (types : TypeTable) (heap : Heap) :
    (extractingRegistration name source held).answered types heap (.int .unsized 0) =
      .ok (.int 0) := by
  have hcontent : heap.content (.int .unsized 0) = .int .unsized 0 := by
    simp [Heap.content, Value.settledWithin]
  unfold Registration.answered Signature.result
  rw [hcontent]
  unfold Signature.encodeReturned
  dsimp only [Signature.returnedValues, bind, Except.bind]
  rw [hcontent]
  rfl

/-- A call of the function by the engine comes to the extraction, between two events. -/
theorem runIn_serve_extracting {types : TypeTable} {config : Config}
    {engine : Array Event → Command → Reply} {depth : Nat}
    (hbound : s.bound.lookup name = some (extractingRegistration name source held))
    (ho : (valueOf held none).runIn (.ofDepth types config engine depth) (s.entering name types) =
      (.ok o, s.entering name types))
    (hrun : (extract (.instanceHandle ⟨source, 0, 0⟩) o).runIn (.ofDepth types config engine depth)
      (s.entering name types) = (.ok w, t)) :
    (Channel.serve ⟨name, []⟩).runIn (.ofDepth types config engine (depth + 1)) s =
      (.ok ⟨⟩, t.leaving s name) := by
  have htypes : (World.ofDepth types config engine depth).types = types := by cases depth <;> rfl
  have hentry : ((extractingRegistration name source held).entry []).runIn
      (.ofDepth types config engine (depth + 1)) s =
      (.ok [], { s with depth := s.depth + 1 }) := rfl
  have hinvoked : (World.ofDepth types config engine (depth + 1)).invoke
      (extractingRegistration name source held).function [] { s with depth := s.depth + 1 } =
      (.ok (.int .unsized 0), t) := by
    refine Callable.runIn_extracting (t := s.entering name types) (o := o) ?_ hrun
    rw [htypes]
    exact ho
  have hattempt : ((extractingRegistration name source held).attempt []).runIn
      (.ofDepth types config engine (depth + 1)) s =
        (.ok (.int 0), { t with depth := t.depth - 1 }) := by
    rw [Registration.runIn_attempt, runIn_bind_of_ok hentry, Registration.runIn_passage, hinvoked]
    dsimp only
    rw [answered_extractingRegistration]
  have hanswer : (Channel.answer ⟨name, []⟩).runIn (.ofDepth types config engine (depth + 1)) s =
      (.ok ⟨⟩, { t with
        depth := t.depth - 1, history := t.history.push (.returned name (.int 0)) }) := by
    unfold Channel.answer
    rw [runIn_bind_of_ok (runIn_get _ s)]
    dsimp only
    rw [hbound]
    dsimp only
    rw [runIn_tryCatch, runIn_bind_of_ok (Registration.runIn_call_of_ok hattempt)]
    rfl
  exact Channel.runIn_serve_of_answer hanswer

/-- The engine, asked whether an instance exists, calls a function before it says so. -/
theorem InstanceHandle.runIn_check_of_serve {h : InstanceHandle} {call : EngineCall}
    (hopen : s.closed = false) (hcurrent : h.isCurrent s = true)
    (hreply : world.engine s.history (.evaluate (.instanceExists h.name)) =
      { outcome := .ok (.symbol "TRUE"), calls := [call] })
    (hserve : (Channel.serve call).runIn world
      { s with history := s.history.push (.command (.evaluate (.instanceExists h.name))) } =
      (.ok ⟨⟩, t))
    (hparked : t.parked = none) : h.check.runIn world s = (.ok ⟨⟩, t) := by
  have hexchange : (Channel.exchange (.evaluate (.instanceExists h.name))).runIn world s =
      (.ok (.ok (.symbol "TRUE")), t) := by
    have hkept : (s.bound.filter fun p ↦ !([] : List String).contains p.1) = s.bound := by simp
    rw [Channel.runIn_exchange, hreply]
    dsimp only
    rw [hkept]
    show Act.runIn ((Channel.serve call >>= fun _ ↦ pure PUnit.unit) >>= fun _ ↦
      pure (Except.ok (Native.symbol "TRUE") : Except String Native)) world _ = _
    rw [bind_assoc, runIn_bind_of_ok hserve]
    rfl
  have hevaluate : (Channel.evaluate (.instanceExists h.name)).runIn world s =
      (.ok (.symbol "TRUE"), t) := by
    unfold Channel.evaluate
    rw [runIn_bind, Channel.runIn_send_of_exchange hopen hexchange]
    rfl
  have heval : (eval (.instanceExists h.name)).runIn world s = (.ok (.symbol "TRUE"), t) :=
    runIn_checked_of_unparked hevaluate nofun hparked
  unfold InstanceHandle.check InstanceHandle.isAlive
  rw [runIn_bind, runIn_bind_of_ok (runIn_get world s), if_pos hcurrent]
  unfold evalTrue
  rw [runIn_bind_of_ok heval]
  rfl

end

end RuleMarshal
