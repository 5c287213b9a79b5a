import RuleMarshal.Proofs.Session.Refusal
/-!
Calls within calls. A host function that the engine calls may send commands, and the engine may call
further functions while it works on them. At every point of such a run the environment has counted
as many running functions as there are (`Running.depth_eq`). While one runs, what would change the
engine or the environment is refused: after its guard alone, or after it has asked whether its
construct exists (`Asks`), so that it has changed nothing by itself.
-/

set_option autoImplicit false
set_option relaxedAutoImplicit false

namespace RuleMarshal

open Act

/-! ### Asking alone -/

/-- Whether an expression asks if something exists. -/
def Expression.asksExistence : Expression → Bool
  | .instanceExists _ | .factExists _ | .isListedTemplate _ | .templateSlots _ => true
  | .classQuery .isDefined _ => true
  | _ => false

/-- What a computation leads to that does nothing but ask whether things exist: the engine works on
each question in its own way, which may be to call host functions, and all else that changes is how
many handles were made and which failure is parked. -/
inductive Asks (world : World) : State → State → Prop
  | refl (s : State) : Asks world s s
  | trans {s t u : State} (hst : Asks world s t) (htu : Asks world t u) : Asks world s u
  | aside (s : State) (serial : Nat) (parked : Option Error) :
      Asks world s { s with serial, parked }
  | ask (s : State) (e : Expression) (hask : e.asksExistence = true) (hopen : s.closed = false) :
      Asks world s ((Channel.exchange (.evaluate e)).runIn world s).2

section

variable {world : World} {s t : State}

instance Asks.isPreorder : IsPreorder State (Asks world) where
  refl := .refl
  trans _ _ _ := .trans

theorem Expression.not_isGuarded_of_asksExistence {e : Expression} (hask : e.asksExistence = true) :
    e.isGuarded = false := by
  cases e with
  | undefine => cases hask
  | _ => first | rfl | cases hask

/-- What asks alone evolves the state as questions do. -/
theorem Asks.evolves (hworld : world.Orderly) (hst : Asks world s t) :
    Evolves world.setup .asking s t := by
  induction hst with
  | refl s => exact .refl _ s
  | trans _ _ hs ht => exact .trans hs ht
  | aside s serial parked =>
    exact .books _ s s.heap s.readings s.named s.labels parked s.visited serial s.calls
  | ask s e hask hopen =>
    have hfree : (Command.evaluate e).isGuarded = false :=
      Expression.not_isGuarded_of_asksExistence hask
    exact (hworld.frame .asking).exchange _ hfree s hopen

/-- Where the engine calls no function for an answer, asking changes the history alone, next to what
the engine has bound, the parked failure and the count of handles. -/
theorem Asks.untouched (hcalls : ∀ past e, (world.engine past (.evaluate e)).calls = [])
    (hst : Asks world s t) :
    t.heap = s.heap ∧ s.SameStanding t ∧ t.depth = s.depth ∧
      ∃ asked : List Expression, (∀ e ∈ asked, e.asksExistence = true) ∧
        t.history = s.history ++ (asked.map fun e ↦ Event.command (.evaluate e)).toArray := by
  induction hst with
  | refl s => exact ⟨rfl, .refl s, rfl, [], nofun, by simp⟩
  | trans _ _ hs ht =>
    obtain ⟨hheap, hstanding, hdepth, first, hfirst, hhistory⟩ := hs
    obtain ⟨hheap', hstanding', hdepth', second, hsecond, hhistory'⟩ := ht
    refine ⟨hheap'.trans hheap, hstanding.trans hstanding', hdepth'.trans hdepth, first ++ second,
      fun e he ↦ (List.mem_append.mp he).elim (hfirst e) (hsecond e), ?_⟩
    rw [hhistory', hhistory]
    simp [Array.append_assoc]
  | aside s serial parked => exact ⟨rfl, ⟨rfl, rfl, rfl, rfl, rfl⟩, rfl, [], nofun, by simp⟩
  | ask s e hask hopen =>
    rw [Channel.runIn_exchange, hcalls]
    exact ⟨rfl, ⟨rfl, rfl, rfl, rfl, rfl⟩, rfl, [e], by simpa using hask, by simp⟩

theorem Asks.keeps_evaluate {e : Expression} (hask : e.asksExistence = true) :
    (Channel.evaluate e).Keeps (Asks world) world := by
  refine .bind (.afterOpen fun s hopen ↦ ?_) fun v ↦
    v.keeps_toEngine fun s n ↦ .aside s n s.parked
  have hasked : Asks world s _ := .ask s e hask hopen
  rw [runIn_bind]
  cases hrun : (Channel.exchange (.evaluate e)).runIn world s with
  | mk answer after =>
    rw [hrun] at hasked
    cases answer with
    | error refusal => exact hasked
    | ok outcome => cases outcome <;> exact hasked

theorem Asks.keeps_eval {e : Expression} (hask : e.asksExistence = true) :
    (eval e).Keeps (Asks world) world := by
  intro s
  obtain ⟨parked, hrun⟩ : ∃ parked, ((Channel.evaluate e).checked.runIn world s).2 =
      { ((Channel.evaluate e).runIn world s).2 with parked := parked } := runIn_checked _
  unfold eval
  rw [hrun]
  exact .trans (keeps_evaluate hask s) (.aside _ _ parked)

theorem Asks.keeps_evalTrue {e : Expression} (hask : e.asksExistence = true) :
    (evalTrue e).Keeps (Asks world) world :=
  (keeps_eval hask).bind fun _ ↦ .pure _

theorem InstanceHandle.asks_check (h : InstanceHandle) : h.check.Keeps (Asks world) world :=
  .bind (.bind .get fun _ ↦ .ite (Asks.keeps_evalTrue rfl) (.pure _)) fun _ ↦
    .ite (.throw _) (.pure _)

theorem FactHandle.asks_check (h : FactHandle) : h.check.Keeps (Asks world) world :=
  .bind (.bind .get fun _ ↦ .ite (Asks.keeps_evalTrue rfl) (.pure _)) fun _ ↦
    .ite (.throw _) (.pure _)

theorem ClassHandle.asks_check (h : ClassHandle) : h.check.Keeps (Asks world) world :=
  .bind (.bind .get fun _ ↦ .ite (Asks.keeps_evalTrue rfl) (.pure _)) fun _ ↦
    .ite (.throw _) (.pure _)

theorem TemplateHandle.asks_check (h : TemplateHandle) : h.check.Keeps (Asks world) world := by
  refine .bind (.bind .get fun s ↦ .ite (.pure _) ?_) fun _ ↦ .ite (.throw _) (.pure _)
  refine (Asks.keeps_evalTrue rfl).bind fun listed ↦ .ite (.pure _) ?_
  exact .tryCatch ((Asks.keeps_eval rfl).bind fun _ ↦ .pure _) fun e ↦ .ite (.pure _) (.throw e)

end

/-! ### What is refused while a function runs -/

/-- A computation is refused while a function runs, having done nothing but ask. -/
def Act.RefusedInside (world : World) {α : Type} (act : Act α) : Prop :=
  ∀ s, 0 < s.depth → ∃ e t, act.runIn world s = (.error e, t) ∧ Asks world s t

namespace Act.RefusedInside

variable {world : World} {α β : Type}

theorem bind {act : Act α} {next : α → Act β} (hact : act.RefusedInside world) :
    (act >>= next).RefusedInside world := by
  intro s hdepth
  obtain ⟨e, t, hrun, hst⟩ := hact s hdepth
  exact ⟨e, t, by rw [runIn_bind, hrun], hst⟩

theorem guard {operation : String} {next : PUnit → Act α} :
    (guardMutation operation >>= next).RefusedInside world := by
  intro s hdepth
  rw [runIn_guardMutation_bind]
  by_cases hclosed : s.closed
  · rw [if_pos hclosed]
    exact ⟨_, s, rfl, .refl s⟩
  · rw [if_neg hclosed, if_pos hdepth]
    exact ⟨_, s, rfl, .refl s⟩

theorem throw (e : Error) : (throw e : Act α).RefusedInside world := fun s _ ↦ ⟨e, s, rfl, .refl s⟩

theorem ite {c : Prop} [Decidable c] {act other : Act α} (hact : act.RefusedInside world)
    (hother : other.RefusedInside world) : (if c then act else other).RefusedInside world := by
  split
  · exact hact
  · exact hother

/-- What is refused is refused behind questions, too. -/
theorem after (hworld : world.Orderly) {act : Act α} {next : α → Act β}
    (hact : act.Keeps (Asks world) world) (hnext : ∀ a, (next a).RefusedInside world) :
    (act >>= next).RefusedInside world := by
  intro s hdepth
  rw [runIn_bind]
  cases hrun : act.runIn world s with
  | mk answer t =>
    have hst := hact.of_runIn hrun
    cases answer with
    | error e => exact ⟨e, t, rfl, hst⟩
    | ok a =>
      have hinside : 0 < t.depth := by rwa [(hst.evolves hworld).depth_eq]
      obtain ⟨e, u, hrefused, htu⟩ := hnext a t hinside
      exact ⟨e, u, hrefused, hst.trans htu⟩

end Act.RefusedInside

/-- The operations that change the engine or the environment, by what they belong to. -/
def Value.mutations : Value → List Method
  | .environment =>
    [.build, .load, .batch, .reset, .run, .clear, .defineFunction, .insert, .makeInstance,
      .assertString, .assertCommand]
  | .instanceHandle _ => [.setSlot, .delete, .unmake]
  | .factHandle _ => [.retract, .modify]
  | .builder _ => [.assertFact]
  | .templateHandle _ => [.undefine]
  | .classHandle _ => [.newInstance, .undefine]
  | _ => []

section

variable {world : World} (hworld : world.Orderly)
include hworld

theorem refused_callEnvironment {method : Method} (hmethod : method ∈ Value.environment.mutations)
    (b : Bound) : (callEnvironment method b).RefusedInside world := by
  simp only [Value.mutations, List.mem_cons, List.not_mem_nil, or_false] at hmethod
  rcases hmethod with rfl | rfl | rfl | rfl | rfl | rfl | rfl | rfl | rfl | rfl | rfl
  · exact RefusedInside.guard.bind
  · exact .after hworld (.written _) fun _ ↦ RefusedInside.guard.bind
  · exact .after hworld (.written _) fun _ ↦ RefusedInside.guard.bind
  · exact RefusedInside.guard.bind
  · exact RefusedInside.guard.bind
  · exact RefusedInside.guard.bind
  · exact RefusedInside.guard.bind
  · exact RefusedInside.guard.bind
  · exact RefusedInside.guard.bind
  · exact RefusedInside.guard.bind
  · exact RefusedInside.guard.bind

theorem Builder.refused_assertFact (id : Nat) : (assertFact id).RefusedInside world := by
  have hread : (read id).Keeps (Asks world) world := by
    refine .bind .get fun s ↦ ?_
    split
    · exact .pure _
    · exact .throw _
  have hassert : ∀ e, (assertCommand e).RefusedInside world := fun e ↦ .guard
  refine .after hworld hread fun b ↦ .ite (RefusedInside.throw _).bind ?_
  refine .after hworld b.template.asks_check fun _ ↦ .after hworld hread fun b ↦ ?_
  exact .after hworld (.ofExcept _) fun e ↦ (hassert e).bind

theorem ClassHandle.refused_newInstance (h : ClassHandle) (name : Value)
    (slots : List (String × Value)) : (h.newInstance name slots).RefusedInside world := by
  have hcreate : ∀ given, Act.RefusedInside world (do
      createInstance (.makeInstance given h.name (← slotTerms slots)) : Act InstanceHandle) :=
    fun given ↦ .after hworld (.slotTerms slots) fun _ ↦ .guard
  refine .after hworld h.asks_check fun _ ↦ ?_
  dsimp only
  split
  · exact .after hworld (.pure _) hcreate
  · exact .after hworld (.map _ (.ofExcept _)) hcreate

/-- What would change the engine or the environment is refused while a function runs. -/
theorem refused_callReceiver {receiver : Value} {method : Method}
    (hmethod : method ∈ receiver.mutations) (b : Bound) :
    (callReceiver receiver method b).RefusedInside world := by
  cases receiver with
  | environment => exact refused_callEnvironment hworld hmethod b
  | instanceHandle h =>
    simp only [Value.mutations, List.mem_cons, List.not_mem_nil, or_false] at hmethod
    rcases hmethod with rfl | rfl | rfl <;>
      exact (RefusedInside.after hworld h.asks_check fun _ ↦ .guard).bind
  | factHandle h =>
    simp only [Value.mutations, List.mem_cons, List.not_mem_nil, or_false] at hmethod
    rcases hmethod with rfl | rfl <;>
      exact (RefusedInside.after hworld h.asks_check fun _ ↦ .guard).bind
  | builder id =>
    simp only [Value.mutations, List.mem_cons, List.not_mem_nil, or_false] at hmethod
    obtain rfl := hmethod
    exact (Builder.refused_assertFact hworld id).bind
  | templateHandle h =>
    simp only [Value.mutations, List.mem_cons, List.not_mem_nil, or_false] at hmethod
    obtain rfl := hmethod
    exact (RefusedInside.after hworld h.asks_check fun _ ↦ .guard).bind
  | classHandle h =>
    simp only [Value.mutations, List.mem_cons, List.not_mem_nil, or_false] at hmethod
    rcases hmethod with rfl | rfl
    · exact (h.refused_newInstance hworld _ _).bind
    · exact (RefusedInside.after hworld h.asks_check fun _ ↦ .guard).bind
  | _ => cases hmethod

end

/-! ### Points of a run -/

/-- What a call of a host function does before the function runs: the arguments are converted, and
the function is counted. -/
def Registration.entry (r : Registration) (args : List Native) : Act (List Value) := do
  let world ← read
  let values ← nativesToEngine args
  let resolve (v : EngineValue) (h : Hint) : Act Value := Act.ofRun fun _ s ↦ world.resolve v h s
  let converted ← r.signature.coerce (some resolve) values
  modify fun s ↦ { s with depth := s.depth + 1 }
  return converted

/-- What a call of a host function does from there: the function runs and is counted no longer, and
what it returned is converted. -/
def Registration.passage (r : Registration) (converted : List Value) : Act Native := do
  let running : Act Value := Act.ofRun fun world s ↦ world.invoke r.function converted s
  let returned ← tryCatch
    (Act.always running fun s ↦ { s with depth := s.depth - 1 })
    fun e ↦ throw (.call (.raised r.name e) (some r.name))
  let heap := (← get).heap
  let v ← MonadExcept.ofExcept (r.signature.result (← read).types heap (heap.content returned))
  MonadExcept.ofExcept v.toNative

/-- What follows a computation may be replaced by what runs alike. -/
theorem Act.runIn_bind_congr {world : World} {α β : Type} {act : Act α} {f g : α → Act β}
    (hfg : ∀ a t, (f a).runIn world t = (g a).runIn world t) (s : State) :
    (act >>= f).runIn world s = (act >>= g).runIn world s := by
  rw [runIn_bind, runIn_bind]
  split
  · exact hfg _ _
  · rfl

/-- A call is its entry and its passage one after the other. -/
theorem Registration.runIn_attempt (world : World) (r : Registration) (args : List Native)
    (s : State) :
    (r.attempt args).runIn world s = (r.entry args >>= r.passage).runIn world s := by
  unfold attempt entry passage
  simp only [bind_assoc, pure_bind]
  rw [runIn_bind_of_ok (runIn_read world s), runIn_bind_of_ok (runIn_read world s)]
  refine Act.runIn_bind_congr (fun values u ↦ ?_) s
  refine Act.runIn_bind_congr (fun converted v ↦ ?_) u
  refine Act.runIn_bind_congr (fun _ w ↦ ?_) v
  refine Act.runIn_bind_congr (fun returned x ↦ ?_) w
  refine Act.runIn_bind_congr (fun now y ↦ ?_) x
  rw [runIn_bind_of_ok (runIn_read world y)]

/-- A function that runs is counted once more than before its arguments were converted. -/
theorem Registration.depth_of_entry {world : World} (hworld : world.Orderly) {r : Registration}
    {args : List Native} {converted : List Value} {s t : State}
    (hrun : (r.entry args).runIn world s = (.ok converted, t)) : t.depth = s.depth + 1 := by
  obtain ⟨w, u, hread, hrun⟩ := ok_of_bind hrun
  cases hread
  obtain ⟨values, v, hvalues, hrun⟩ := ok_of_bind hrun
  obtain ⟨found, w, hfound, hrun⟩ := ok_of_bind hrun
  cases hrun
  have hconverted : Evolves world.setup .asking s v :=
    (keeps_nativesToEngine Evolves.serial args).of_runIn hvalues
  have hcoerced : Evolves world.setup .asking v w := by
    refine (r.signature.keeps_coerce ?_ values).of_runIn hfound
    rintro f ⟨rfl⟩ e h x
    exact hworld.resolve e h x
  change w.depth + 1 = s.depth + 1
  rw [hcoerced.depth_eq, hconverted.depth_eq]

section

variable (types : TypeTable) (config : Config) (engine : Array Event → Command → Reply)

/-- The points of a run of a host program, with how deep further calls may nest and how many
functions are running there. A function runs from where the engine called it and its arguments are
converted; apart from that, anything may have been done that operations do. -/
inductive Running : Nat → Nat → State → Prop
  | outside (allowance : Nat) {s : State} (hrest : s.depth = 0) : Running allowance 0 s
  | going {allowance running : Nat} {s t : State} (hs : Running allowance running s)
      (hst : Evolves ⟨types, config, engine⟩ .acting s t) : Running allowance running t
  | called {allowance running : Nat} {s t : State} {r : Registration} {args : List Native}
      {converted : List Value} (hs : Running (allowance + 1) running s)
      (hentry : (r.entry args).runIn (World.ofDepth types config engine (allowance + 1)) s =
        (.ok converted, t)) : Running allowance (running + 1) t

variable {types config engine}

/-- As many functions are counted as are running. -/
theorem Running.depth_eq {allowance running : Nat} {s : State}
    (hs : Running types config engine allowance running s) : s.depth = running := by
  induction hs with
  | outside allowance hrest => exact hrest
  | going _ hst ih => exact hst.depth_eq.trans ih
  | called _ hentry ih =>
    rw [Registration.depth_of_entry (World.ofDepth_orderly types config engine _) hentry, ih]

/-- A step of a function goes on at a point of the run with as many functions running. -/
theorem Running.step {allowance running : Nat} {s : State}
    (hs : Running types config engine allowance running s) (step : Step) :
    Running types config engine allowance running
      (step.run.runIn (World.ofDepth types config engine allowance) s).2 := by
  have hrun := step.evolving_run (World.ofDepth_orderly types config engine allowance) s
  rw [World.ofDepth_setup] at hrun
  exact hs.going hrun

/-- Each call that the engine makes for a command is served at a point of the run, with as many
functions running as where the command was sent. -/
theorem Running.served {allowance running : Nat} {s : State} {c : Command}
    (hs : Running types config engine allowance running s) (hopen : s.closed = false)
    (hguard : c.isGuarded = true → running = 0) (count : Nat) :
    Running types config engine allowance running
      (Act.runIn (((engine s.history c).calls.take count).forM Channel.serve)
        (World.ofDepth types config engine allowance)
        { s with
          history := s.history.push (.command c)
          bound := s.bound.filter fun p ↦ !(engine s.history c).forgets.contains p.1 }).2 := by
  have hworld := World.ofDepth_orderly types config engine allowance
  have hsent := hs.going (.send .acting s c hopen fun hc ↦
    ⟨by decide, hs.depth_eq.trans (hguard hc)⟩)
  have hcalls : Act.Keeps (Evolves ⟨types, config, engine⟩ .acting)
      (World.ofDepth types config engine allowance)
      (((engine s.history c).calls.take count).forM Channel.serve) := by
    refine .forM _ fun call _ ↦ ?_
    have hserve := Channel.keeps_serve (m := .acting) hworld call
    rwa [World.ofDepth_setup] at hserve
  exact hsent.going (hcalls _)

/-- While functions run, as many are counted, and what would change the engine or the environment is
refused. It has only asked whether its construct exists: it has not changed epochs, generations, the
registered functions or pending facts, and whatever the functions did that the engine called for an
answer, epochs, generations and registered functions are as they were while the environment is open.
When a call ends, with an answer or a failure, as many functions are counted as before. -/
theorem mutation_refused_while_running (types : TypeTable) (config : Config)
    (engine : Array Event → Command → Reply) (allowance : Nat) :
    let world := World.ofDepth types config engine allowance
    (∀ running s, Running types config engine allowance running s →
      s.depth = running ∧
      (0 < running → ∀ receiver method b, method ∈ receiver.mutations →
        ∃ e t, (callReceiver receiver method b).runIn world s = (.error e, t) ∧
          Asks world s t ∧ (t.closed = false → s.SameStanding t) ∧
          ((∀ past e, (engine past (.evaluate e)).calls = []) →
            t.heap = s.heap ∧ s.SameStanding t))) ∧
    (∀ r args s, (Registration.call r args |>.runIn world s).2.depth = s.depth) ∧
    (∀ c s, ((Channel.serve c).runIn world s).2.depth = s.depth) := by
  intro world
  have hworld : world.Orderly := World.ofDepth_orderly types config engine allowance
  have hengine : world.engine = engine :=
    congrArg Setup.engine (World.ofDepth_setup types config engine allowance)
  refine ⟨fun running s hs ↦ ⟨hs.depth_eq, fun hrunning receiver method b hmethod ↦ ?_⟩,
    fun r args s ↦ ?_, fun c s ↦ ?_⟩
  · have hdepth : 0 < s.depth := by rwa [hs.depth_eq]
    obtain ⟨e, t, hrun, hasks⟩ := refused_callReceiver hworld hmethod b s hdepth
    refine ⟨e, t, hrun, hasks, (hasks.evolves hworld).sameStanding (.inr hdepth), fun hcalls ↦ ?_⟩
    obtain ⟨hheap, hstanding, -⟩ := hasks.untouched (by rwa [hengine])
    exact ⟨hheap, hstanding⟩
  · exact (r.keeps_call (hworld.keptByCalls .acting) args s).depth_eq
  · exact (Channel.keeps_serve (m := .acting) hworld c s).depth_eq

/-- A reset is refused within a function that the engine has called. -/
theorem mutation_refused_while_running_once :
    let engine : Array Event → Command → Reply := fun _ _ ↦ {}
    let inside : State := { depth := 1 }
    ∃ e t, (callReceiver .environment .reset {}).runIn (World.ofDepth {} {} engine 0) inside =
        (.error e, t) ∧ t.heap.cells = inside.heap.cells ∧ inside.SameStanding t := by
  intro engine inside
  have hrunning : Running {} {} engine 0 1 inside := by
    have hentry : (raisingRegistration.entry []).runIn (World.ofDepth {} {} engine 1) {} =
        (.ok [], inside) := rfl
    exact .called (.outside 1 rfl) hentry
  obtain ⟨-, hrefused⟩ := (mutation_refused_while_running {} {} engine 0).1 1 inside hrunning
  obtain ⟨e, t, hrun, -, -, hcalm⟩ := hrefused Nat.one_pos .environment .reset {} (by decide)
  obtain ⟨hheap, hstanding⟩ := hcalm fun _ _ ↦ rfl
  exact ⟨e, t, hrun, congrArg Heap.cells hheap, hstanding⟩

end

end RuleMarshal
