import RuleMarshal.Proofs.Function.Call
import RuleMarshal.Proofs.Session.Parking
/-!
Failures of calls surface from the operation whose command they happened in. The functions that the
engine calls while it works on a command may leave the environment alone, both when they run and
when their arguments are converted (`Registration.SelfContained`). What is parked when the command
ends is then the last failure among the ends of those calls
(`Channel.runIn_exchange_of_selfContained`), and the operation raises it in the place of the
engine's answer or refusal, with nothing left parked (`takesUpFailures_checked`).

Only an error of this library is parked. A function that returns what the host program itself cannot
convert, such as an integer beyond all floats where a float is declared, fails in its call and is
never heard of again (`failure_lost_beyond_floats`).
-/

set_option autoImplicit false
set_option relaxedAutoImplicit false

namespace RuleMarshal

open Act

/-! ### The last failure -/

/-- The error of this library that a call ended with, if an event is the end of such a call. -/
def Event.failure? : Event → Option Error
  | .failed _ e => if e.isOwn then some e else none
  | _ => none

/-- The error of the last call among some events that ended with an error of this library. -/
def lastFailure (events : List Event) : Option Error :=
  (events.filterMap Event.failure?).getLast?

theorem lastFailure_append (first second : List Event) :
    lastFailure (first ++ second) = (lastFailure second).or (lastFailure first) := by
  unfold lastFailure
  rw [List.filterMap_append, List.getLast?_append]

theorem lastFailure_singleton (e : Event) : lastFailure [e] = e.failure? := by
  unfold lastFailure
  cases hfailure : e.failure? <;> simp [hfailure]

/-- From one state to another some events were written, and what is parked is the last failure among
them, if there is one. The engine has the same functions bound. -/
structure Records (s : State) (events : List Event) (t : State) : Prop where
  bound : t.bound = s.bound
  history : t.history = s.history ++ events.toArray
  parked : t.parked = (lastFailure events).or s.parked

section

variable {s t u : State} {first second : List Event}

theorem Records.refl (s : State) : Records s [] s := ⟨rfl, by simp, rfl⟩

theorem Records.trans (hst : Records s first t) (htu : Records t second u) :
    Records s (first ++ second) u where
  bound := htu.bound.trans hst.bound
  history := by
    rw [htu.history, hst.history]
    simp [Array.append_assoc]
  parked := by rw [htu.parked, hst.parked, lastFailure_append, Option.or_assoc]

/-- An event behind which its failure is parked, if it is one. -/
theorem Records.push {e : Event} (hbound : t.bound = s.bound) (hhistory : t.history = s.history)
    (hparked : t.parked = e.failure?.or s.parked) :
    Records s [e] { t with history := t.history.push e } where
  bound := hbound
  history := by
    show t.history.push e = _
    rw [hhistory, Array.push_eq_append]
  parked := by
    rw [lastFailure_singleton]
    exact hparked

/-- The environment was left alone: what is parked and bound is as it was, and of what was written
nothing is the failure of a call. -/
def Apart (s t : State) : Prop :=
  ∃ notes, lastFailure notes = none ∧ Records s notes t

instance Apart.isPreorder : IsPreorder State Apart where
  refl s := ⟨[], rfl, .refl s⟩
  trans := by
    rintro s t u ⟨first, hfirst, hst⟩ ⟨second, hsecond, htu⟩
    refine ⟨first ++ second, ?_, hst.trans htu⟩
    rw [lastFailure_append, hfirst, hsecond]
    rfl

theorem Apart.parked_eq (hst : Apart s t) : t.parked = s.parked := by
  obtain ⟨notes, hnotes, hrecords⟩ := hst
  rw [hrecords.parked, hnotes, Option.none_or]

theorem Apart.aside (hbound : t.bound = s.bound) (hhistory : t.history = s.history)
    (hparked : t.parked = s.parked) : Apart s t :=
  ⟨[], rfl, hbound, by simp [hhistory], hparked⟩

end

/-! ### Calls that leave the environment alone -/

/-- A function that does not use the environment, neither to convert its arguments nor when it
runs. -/
structure Registration.SelfContained (world : World) (r : Registration) : Prop where
  entry : ∀ args, (r.entry args).Keeps Apart world
  run : ∀ values s, Apart s (world.invoke r.function values s).2

variable {world : World} {s t : State} {r : Registration}

theorem Registration.SelfContained.keeps_attempt (hr : r.SelfContained world) (args : List Native) :
    (r.attempt args).Keeps Apart world := by
  have hpassage : ∀ values, (r.passage values).Keeps Apart world := by
    intro values u
    have hrun := hr.run values u
    rw [runIn_passage]
    generalize world.invoke r.function values u = came at hrun
    obtain ⟨answer, v⟩ := came
    have hended : Apart v { v with depth := v.depth - 1 } := .aside rfl rfl rfl
    cases answer with
    | error e => exact trans_of Apart hrun hended
    | ok returned => exact trans_of Apart hrun hended
  intro s
  rw [r.runIn_attempt]
  exact (Keeps.bind (hr.entry args) hpassage) s

namespace Channel

/-- A call of a function that does not use the environment ends with what it leaves on record. -/
theorem runIn_answer_of_selfContained {c : EngineCall}
    (hcall : ∀ r, s.bound.lookup c.name = some r → r.SelfContained world) :
    ∃ events t, (answer c).runIn world s = (.ok ⟨⟩, t) ∧ Records s events t := by
  unfold answer
  rw [runIn_bind, runIn_get]
  dsimp only
  cases hbound : s.bound.lookup c.name with
  | none => exact ⟨_, _, rfl, Records.push rfl rfl rfl⟩
  | some r =>
    have hattempt := (hcall r hbound).keeps_attempt c.args s
    dsimp only
    rw [runIn_tryCatch, runIn_bind]
    cases hrun : (r.attempt c.args).runIn world s with
    | mk answer u =>
      rw [hrun] at hattempt
      obtain ⟨notes, hnotes, hrecords⟩ := hattempt
      cases answer with
      | ok v =>
        rw [Registration.runIn_call_of_ok hrun]
        exact ⟨_, _, rfl, hrecords.trans (Records.push rfl rfl rfl)⟩
      | error e =>
        cases he : e.isOwn with
        | true =>
          obtain ⟨failure, hfails⟩ := Registration.failsFrom_of_own hrun he
          rw [hfails]
          exact ⟨_, _, rfl, hrecords.trans (Records.push rfl rfl rfl)⟩
        | false =>
          rw [Registration.runIn_call_of_foreign hrun he]
          refine ⟨_, _, rfl, hrecords.trans (Records.push rfl rfl ?_)⟩
          simp [Event.failure?, he]

theorem runIn_serve_of_selfContained {c : EngineCall}
    (hcall : ∀ r, s.bound.lookup c.name = some r → r.SelfContained world) :
    ∃ events t, (serve c).runIn world s = (.ok ⟨⟩, t) ∧ Records s events t := by
  obtain ⟨events, t, hanswer, hrecords⟩ := runIn_answer_of_selfContained hcall
  exact ⟨events, _, runIn_serve_of_answer hanswer,
    hrecords.bound, hrecords.history, hrecords.parked⟩

theorem runIn_serveEach_of_selfContained (calls : List EngineCall)
    (hcalls : ∀ c ∈ calls, ∀ r, s.bound.lookup c.name = some r → r.SelfContained world) :
    ∃ events t, Act.runIn (calls.forM serve) world s = (.ok ⟨⟩, t) ∧ Records s events t := by
  induction calls generalizing s with
  | nil => exact ⟨[], s, rfl, .refl s⟩
  | cons c rest ih =>
    obtain ⟨first, u, hserved, hfirst⟩ := runIn_serve_of_selfContained (hcalls c List.mem_cons_self)
    have hrest : ∀ c ∈ rest, ∀ r, u.bound.lookup c.name = some r → r.SelfContained world := by
      rw [hfirst.bound]
      exact fun c hc ↦ hcalls c (List.mem_cons_of_mem _ hc)
    obtain ⟨others, t, hrun, hothers⟩ := ih hrest
    refine ⟨first ++ others, t, ?_, hfirst.trans hothers⟩
    show Act.runIn (serve c >>= fun _ ↦ rest.forM serve) world s = _
    rw [runIn_bind_of_ok hserved, hrun]

/-- Behind a command in which only functions ran that do not use the environment, the last failure
among the ends of their calls is parked. -/
theorem runIn_exchange_of_selfContained {c : Command} (hparked : s.parked = none)
    (hcalls : ∀ call ∈ (world.engine s.history c).calls, ∀ r, s.bound.lookup call.name = some r →
      r.SelfContained world) :
    ∃ events t, (exchange c).runIn world s = (.ok (world.engine s.history c).outcome, t) ∧
      t.history = s.history.push (.command c) ++ events.toArray ∧
        t.parked = lastFailure events := by
  have hkept : ∀ call ∈ (world.engine s.history c).calls, ∀ r,
      (s.bound.filter fun p ↦ !(world.engine s.history c).forgets.contains p.1).lookup call.name =
        some r → r.SelfContained world := by
    intro call hcall r hlookup
    rw [lookup_filter fun name ↦ !(world.engine s.history c).forgets.contains name] at hlookup
    split at hlookup
    · exact hcalls call hcall r hlookup
    · cases hlookup
  rw [runIn_exchange]
  obtain ⟨events, t, hrun, hrecords⟩ := runIn_serveEach_of_selfContained
    (s := { s with
      history := s.history.push (.command c)
      bound := s.bound.filter fun p ↦ !(world.engine s.history c).forgets.contains p.1 }) _ hkept
  refine ⟨events, t, ?_, hrecords.history, ?_⟩
  · rw [runIn_bind_of_ok hrun]
    rfl
  · rw [hrecords.parked]
    show (lastFailure events).or s.parked = lastFailure events
    rw [hparked, Option.or_none]

end Channel

/-! ### Operations -/

/-- An operation took up the failures of a command that it sent in a state: it ended with the last
failure among the calls that were served, and if there was none with the answer made of what the
engine replied, or with the engine's refusal. Nothing is left parked. -/
def TakesUpFailures (world : World) {α : Type} (c : Command) (refusal : Construction)
    (sent : Native) (finish : Native → Act α) (s : State) (ended : Except Error α × State) : Prop :=
  ∃ events found t, ended.1 = (lastFailure events).elim found .error ∧ ended.2.parked = none ∧
    t.history = s.history.push (.command c) ++ events.toArray ∧
    match (world.engine s.history c).outcome with
    | .ok v => ∃ a, ((finish v).runIn world t).1 = .ok a ∧ found = .ok a
    | .error diagnostic => found = .error (.construction refusal (some sent) diagnostic)

/-- An operation that sends a command, with nothing parked before it, and makes an answer of what
the engine replies takes up the failures of the functions that run meanwhile, if these do not use
the environment. -/
theorem takesUpFailures_checked {α : Type} {c : Command} {refusal : Construction} {sent : Native}
    {finish : Native → Act α} (hopen : s.closed = false) (hparked : s.parked = none)
    (hcalls : ∀ call ∈ (world.engine s.history c).calls, ∀ r,
      s.bound.lookup call.name = some r → r.SelfContained world)
    (hfinish : ∀ v, (world.engine s.history c).outcome = .ok v →
      (finish v).Keeps Apart world ∧ ∀ t, ∃ a u, (finish v).runIn world t = (.ok a, u)) :
    TakesUpFailures world c refusal sent finish s
      (Act.runIn (checked (Channel.send c refusal sent >>= finish)) world s) := by
  obtain ⟨events, t, hexchange, hhistory, hleft⟩ :=
    Channel.runIn_exchange_of_selfContained hparked hcalls
  have hsend : (Channel.send c refusal sent).runIn world s =
      ((world.engine s.history c).outcome.mapError (.construction refusal (some sent)), t) :=
    Channel.runIn_send_of_exchange hopen hexchange
  unfold TakesUpFailures
  cases houtcome : (world.engine s.history c).outcome with
  | error diagnostic =>
    have hrun : (Channel.send c refusal sent >>= finish).runIn world s =
        (.error (.construction refusal (some sent) diagnostic), t) := by
      rw [runIn_bind, hsend, houtcome]
      rfl
    refine ⟨events, .error (.construction refusal (some sent) diagnostic), t, ?_, ?_, hhistory, rfl⟩
    · rw [runIn_checked_of_ends hrun (by rintro _ ⟨rfl⟩; rfl), hleft]
    · rw [runIn_checked_of_ends hrun (by rintro _ ⟨rfl⟩; rfl)]
  | ok v =>
    obtain ⟨hkeeps, hanswers⟩ := hfinish v houtcome
    obtain ⟨a, u, hfinished⟩ := hanswers t
    have hrun : (Channel.send c refusal sent >>= finish).runIn world s = (.ok a, u) := by
      rw [runIn_bind, hsend, houtcome]
      exact hfinished
    refine ⟨events, .ok a, t, ?_, ?_, hhistory, a, by rw [hfinished], rfl⟩
    · rw [runIn_checked_of_ends hrun nofun, (hkeeps.of_runIn hfinished).parked_eq, hleft]
    · rw [runIn_checked_of_ends hrun nofun]

section

variable (hopen : s.closed = false) (hparked : s.parked = none)
include hopen hparked

/-- Evaluating, also to assert what is written in a text, takes up failures if the engine's value
translates. -/
theorem takesUpFailures_eval {e : Expression}
    (hcalls : ∀ call ∈ (world.engine s.history (.evaluate e)).calls, ∀ r,
      s.bound.lookup call.name = some r → r.SelfContained world)
    (htranslates : ∀ v, (world.engine s.history (.evaluate e)).outcome = .ok v → ∀ t, ∃ value u,
      v.toEngine.runIn world t = (.ok value, u)) :
    TakesUpFailures world (.evaluate e) .expression e.sent Native.toEngine s
      ((eval e).runIn world s) := by
  refine takesUpFailures_checked hopen hparked hcalls fun v hv ↦ ⟨?_, htranslates v hv⟩
  exact v.keeps_toEngine fun _ _ ↦ .aside rfl rfl rfl

/-- Defining a construct, loading constructs from a file and running the commands of a file take up
failures, and have nothing to answer. -/
theorem takesUpFailures_order {c : Command} {refusal : Construction} {sent : Native}
    (hcalls : ∀ call ∈ (world.engine s.history c).calls, ∀ r,
      s.bound.lookup call.name = some r → r.SelfContained world) :
    TakesUpFailures world c refusal sent (fun _ ↦ pure ⟨⟩) s
      (Act.runIn (checked (discard (Channel.send c refusal sent))) world s) := by
  have hsame : (discard (Channel.send c refusal sent) : Act PUnit) =
      Channel.send c refusal sent >>= fun _ ↦ pure ⟨⟩ :=
    (map_eq_pure_bind (Function.const Native PUnit.unit) (Channel.send c refusal sent)).trans rfl
  rw [hsame]
  exact takesUpFailures_checked hopen hparked hcalls fun _ _ ↦ ⟨.pure _, fun _ ↦ ⟨_, _, rfl⟩⟩

end

/-! ### A failure that is lost -/

/-- The signature of a function that takes nothing and is declared to return a float. -/
def floatSignature : Signature :=
  { text := .plain "big", params := [], required := 0, variadic := none, returns := .float
    errorTerminal := false, serial := 1 }

/-- An integer beyond all floats is no result of a function that is declared to return one, and what
is raised for it is no error of this library. -/
theorem result_of_beyond_floats {types : TypeTable} {heap : Heap} {n : Int}
    (hbeyond : Binary64.ofInt? n = none) :
    floatSignature.result types heap (heap.content (.int .unsized n)) =
      .error (.host .beyondFloats) := by
  have hcontent : heap.content (.int .unsized n) = .int .unsized n := by
    simp [Heap.content, Value.settledWithin]
  have hencode : Hint.float.encode (.int .unsized n) = .error (.host .beyondFloats) := by
    unfold Hint.encode Hint.encodeAtom
    dsimp only
    rw [hbeyond]
  have hencoded : floatSignature.encodeReturned heap [.int .unsized n] =
      .error (.host .beyondFloats) := by
    unfold Signature.encodeReturned
    dsimp only
    rw [hcontent]
    exact hencode
  rw [hcontent]
  unfold Signature.result
  dsimp only [Signature.returnedValues, bind, Except.bind]
  rw [hencoded]
  rfl

/-- An integer beyond all floats. -/
def vast : Int := .ofNat (Nat.pow 10 200 * Nat.pow 10 200)

/-- A function that is declared to return a float and returns an integer beyond all of them. -/
def vastFunction : FunctionLiteral :=
  .mk (some "big") [] (some .float) true (.mk none [] false (.value (.int .unsized vast)))

/-- The registration of that function. -/
def vastRegistration : Registration where
  signature := floatSignature
  function := .function vastFunction
  listedAs := .plain "big"

theorem vast_beyond_floats : Binary64.ofInt? vast = none := by decide +kernel

/-- The function writes that it was called, and returns what it returns. -/
theorem run_vastFunction (world : World) (args : List Value) (s : State) :
    ((Callable.function vastFunction).run args).runIn world s = (.ok (.int .unsized vast),
      { s with
        history := s.history.push
          (.invoked (some "big") ((Value.list args).view world.types s.heap)) }) := by
  have hread : Literal.read (.int .unsized vast) = pure (.int .unsized vast) := by
    unfold Literal.read Literal.readWithin
    rfl
  have hbody : vastFunction.body.run args = pure (.int .unsized vast) := by
    show (Body.runSteps false [] >>= fun _ ↦ Literal.read (.int .unsized vast)) = _
    rw [hread]
    rfl
  unfold Callable.run
  dsimp only
  rw [hbody]
  rfl

section

variable (engine : Array Event → Command → Reply) (depth : Nat) (s : State)

theorem vastRegistration_selfContained :
    vastRegistration.SelfContained (World.ofDepth {} {} engine (depth + 1)) where
  entry args := by
    refine Keeps.bind .read fun world ↦
      .bind (keeps_nativesToEngine (fun _ _ ↦ .aside rfl rfl rfl) args) ?_
    intro given
    refine .bind ?_ fun _ ↦ .bind (.modify fun _ ↦ .aside rfl rfl rfl) fun _ ↦ .pure _
    -- The function takes nothing, so there is nothing to convert.
    cases given with
    | nil => exact .pure _
    | cons v rest => exact .throw _
  run values s := by
    show Apart s (((Callable.function vastFunction).run values).runIn (World.ofDepth {} {}
      engine depth) s).2
    rw [run_vastFunction]
    exact ⟨_, by rw [lastFailure_singleton]; rfl, Records.push rfl rfl rfl⟩

/-- A call of the function fails with an error that is none of this library's, and parks nothing. -/
theorem call_vastRegistration :
    ∃ t, (vastRegistration.call []).runIn (World.ofDepth {} {} engine (depth + 1)) s =
      (.error (.host .beyondFloats), t) ∧ t.parked = s.parked := by
  have hentry : (vastRegistration.entry []).runIn (World.ofDepth {} {} engine (depth + 1)) s =
      (.ok [], { s with depth := s.depth + 1 }) := rfl
  have hfails : ((vastRegistration.attempt []).runIn (World.ofDepth {} {} engine (depth + 1)) s).1 =
      .error (.host .beyondFloats) := by
    have hinvoked : ∀ t, (World.ofDepth {} {} engine (depth + 1)).invoke
        vastRegistration.function [] t = _ :=
      run_vastFunction (World.ofDepth {} {} engine depth) []
    rw [Registration.runIn_attempt, runIn_bind_of_ok hentry, Registration.runIn_passage, hinvoked]
    unfold Registration.answered
    dsimp only
    rw [show vastRegistration.signature = floatSignature from rfl,
      result_of_beyond_floats vast_beyond_floats]
    rfl
  have hapart := (vastRegistration_selfContained engine depth).keeps_attempt [] s
  exact ⟨_, Registration.runIn_call_of_foreign (Prod.ext hfails rfl) rfl, hapart.parked_eq⟩

end

/-- An engine that calls a function while it evaluates, and has a value all the same. -/
def vastEngine (_ : Array Event) : Command → Reply
  | .evaluate _ => { calls := [⟨"big", []⟩], outcome := .ok (.int 1) }
  | _ => {}

/-- The call of the function fails while the engine evaluates, with nothing parked before; the
evaluation answers the engine's value for all that, and nothing is parked. -/
theorem failure_lost_beyond_floats :
    let world := World.ofDepth {} {} vastEngine 1
    let begun := ((Environment.register (.function vastFunction) .none).runIn world {}).2
    let asked := (Environment.evaluate (.text "(big)")).runIn world begun
    begun.parked = none ∧ .failed "big" (.host .beyondFloats) ∈ asked.2.history.toList ∧
      asked.1 = .ok (.integer 1 (by decide)) ∧ asked.2.parked = none := by
  intro world begun asked
  have hasked : asked = (eval (.written "(big)")).runIn world begun := by
    dsimp only [asked]
    unfold Environment.evaluate Environment.expression Environment.sent
    rw [runIn_bind, runIn_bind, runIn_bind, runIn_get]
    dsimp only
    rw [Heap.content_text]
    rfl
  let sent : State :=
    { begun with history := begun.history.push (.command (.evaluate (.written "(big)"))) }
  obtain ⟨t, hcall, hparked⟩ := call_vastRegistration vastEngine 0 sent
  let ended : State := { t with history := t.history.push (.failed "big" (.host .beyondFloats)) }
  have hended : (Channel.answer ⟨"big", []⟩).runIn world sent = (.ok ⟨⟩, ended) := by
    unfold Channel.answer
    rw [runIn_bind, runIn_get]
    dsimp only
    rw [show sent.bound.lookup "big" = some vastRegistration from rfl]
    dsimp only
    rw [runIn_tryCatch, runIn_bind, hcall]
    rfl
  let served : State := { ended with calls := sent.calls.push (sent.heap, ended.heap) }
  have hserved : (Channel.serve ⟨"big", []⟩).runIn world sent = (.ok ⟨⟩, served) :=
    Channel.runIn_serve_of_answer hended
  have hevaluated : (Channel.evaluate (.written "(big)")).runIn world begun =
      (.ok (.integer 1 (by decide)), served) := by
    have hexchanged : (Channel.exchange (.evaluate (.written "(big)"))).runIn world begun =
        (.ok (.ok (.int 1)), served) := by
      rw [Channel.runIn_exchange]
      show Act.runIn ((Channel.serve ⟨"big", []⟩ >>= fun _ ↦ pure PUnit.unit) >>= fun _ ↦
        pure (Except.ok (Native.int 1) : Except String Native)) world sent = _
      rw [bind_assoc, runIn_bind_of_ok hserved]
      rfl
    unfold Channel.evaluate
    rw [runIn_bind, Channel.runIn_send_of_exchange rfl hexchanged]
    rfl
  rw [hasked]
  unfold eval
  rw [runIn_checked_of_ends hevaluated nofun, show served.parked = none from hparked]
  refine ⟨rfl, ?_, rfl, rfl⟩
  simp [served, ended]

end RuleMarshal
