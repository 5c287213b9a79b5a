import RuleMarshal.Host.Declaration
import RuleMarshal.Session.Dispatch
import RuleMarshal.Session.Making
/-!
Running the steps of a host program. Arguments are read first, then the receiver is looked up, and
the answer gets the name that the step asks for. A function that the engine calls runs its own
steps on the same environment; a world for calls nested to some depth is made from the world for
calls nested one less.
-/

set_option autoImplicit false
set_option relaxedAutoImplicit false

namespace RuleMarshal

open Act
open MonadExcept (ofExcept)

namespace Step

/-- The receiver of a step, which has to be something. -/
def receiverValue (name : String) (item : Option Int) : Act Value := do
  match (← get).heap.opened (← valueOf name item) with
  | .none => throw (.host (.unbound name))
  | v => return v

/-- Keywords as they reach an operation: one that is given twice has its first place and its last
value. -/
def mergeKeywords (keywords : List (String × Value)) : List (String × Value) :=
  keywords.foldl (fun merged p ↦ putNamed merged p.1 p.2) []

/-- Calls an operation of something after binding its arguments. -/
def call (receiver : Value) (word : String) (found : Option (Method × Access)) (args : List Value)
    (keywords : List (String × Value)) (perform : Method → Bound → Act Value) : Act Value := do
  match found with
  | none => noMethod receiver word
  | some (method, access) => do
    let bound ← ofExcept (access.bind (receiver.typeName ++ "." ++ word) args keywords)
    let heap := (← get).heap
    perform method (if method.keepsIdentity then bound else bound.settled heap)

/-- Runs a step. An object answers for its attributes as for properties. -/
def run : Step → Act Value
  | .mk word args keywords receiver store => do
    let args ← args.mapM Literal.read
    let keywords := mergeKeywords (← keywords.mapM fun p ↦ do return (p.1, ← p.2.read))
    let method := Method.ofWord? word
    let answer ← match receiver with
      | none => do
        let found := method.bind fun m ↦
          ((environmentAccess? m).or (questionAccess? m)).map fun access ↦ (m, access)
        call .environment word found args keywords callEnvironment
      | some (name, item) => do
        let v ← receiverValue name item
        let kept ← match v with
          | .object _ id => do pure (((← get).heap.attrs id).lookup word)
          | _ => pure none
        match kept with
        | some held => pure held
        | none => do
          let found := method.bind fun m ↦ (receiverAccess? v m).map fun access ↦ (m, access)
          call v word found args keywords (callReceiver v)
    match store with
    | none => return answer
    | some name =>
      remember name answer
      valueOf name none

end Step

namespace Body

/-- Runs the steps of a function. A failing one is noted, and ends the run unless failures are
swallowed. -/
def runSteps (swallow : Bool) (steps : List Step) : Act Unit :=
  steps.forM fun step ↦
    tryCatch (discard step.run) fun e ↦ do
      note (.stepFailed e)
      if !swallow then throw e

/-- What a function answers. -/
def answer (args : List Value) : Answer → Act Value
  | .argument i => ofExcept (itemAt "tuple" args i)
  | .arguments => return .list args
  | .count => return .int .unsized args.length
  | .value l => l.read

/-- Runs the body of a function on arguments. -/
def run (args : List Value) : Body → Act Value
  | .mk (some (kind, text)) _ _ _ => throw (.host (.raised kind text))
  | .mk none steps swallow ans => do
    runSteps swallow steps
    answer args ans

end Body

/-- Runs a host function on arguments. A call of a declared function is noted. -/
def Callable.run (f : Callable) (args : List Value) : Act Value :=
  match f with
  | .function f => do
    note (.invoked f.name ((Value.list args).view (← read).types (← get).heap))
    f.body.run args
  | .type h => h.make args
  | .other => throw (.host (.typing "what was registered cannot be called"))

/-- A world in which calls of host functions nest at most to the given depth. -/
def World.ofDepth (types : TypeTable) (config : Config) (engine : Array Event → Command → Reply) :
    Nat → World
  | 0 =>
    { types, config, engine
      invoke := fun _ _ s ↦ (.error (.host .recursion), s)
      resolve := fun _ _ s ↦ (.error (.host .recursion), s) }
  | depth + 1 =>
    let inside := World.ofDepth types config engine depth
    { types, config, engine
      invoke := fun f args s ↦ (f.run args).runIn inside s
      resolve := fun v h s ↦ (resolveArgument v h).runIn inside s }

/-! ### A scripted engine -/

/-- How many commands a history holds. -/
def commandCount (history : Array Event) : Nat := history.countP Event.isCommand

/-- Whether a command is one that the engine never refuses. -/
def Command.isNeverRefused : Command → Bool
  | .run _ | .reset | .clear => true
  | _ => false

/-- An engine that replies as a script has it, one reply after the other. Commands that it never
refuses have no value where the script has a refusal or has run out. -/
def scripted (script : Array Reply) (history : Array Event) (c : Command) : Reply :=
  let reply := (script[commandCount history]?).getD { outcome := .error "script exhausted" }
  match reply.outcome with
  | .error _ => if c.isNeverRefused then { reply with outcome := .ok .null } else reply
  | .ok _ => reply

/-! ### Sessions -/

/-- A host program whose struct types are declared: the types, and the state that declaring them
has led to. -/
structure Program where
  types : TypeTable
  state : State

/-- The program with the given struct types, if all of them can be declared. -/
def Program.ofTypes (types : List StructType) : Except Error Program :=
  match (TypeTable.declare types).runIn (World.ofDepth {} {} (scripted #[]) 0) {} with
  | (.ok table, state) => .ok ⟨table, state⟩
  | (.error e, _) => .error e

/-- What a step came to: what it answered, as a view, and what happened meanwhile. -/
structure Report where
  outcome : Except Error View
  events : List Event

/-- A session: how the environment started, the reports of the steps if it did, and how many
replies of the script were not used. -/
structure Transcript where
  start : Report
  steps : List Report
  unused : Nat

/-- Runs a computation and reports what it came to. -/
def report (world : World) (act : Act Value) (s : State) : Report × State :=
  let (outcome, after) := act.runIn world s
  ({ outcome := outcome.map fun v ↦ v.view world.types after.heap
     events := (after.history.extract s.history.size after.history.size).toList }, after)

/-- Runs computations one after the other and reports on each. -/
def reports (world : World) : List (Act Value) → State → List Report × State
  | [], s => ([], s)
  | act :: rest, s =>
    let (first, after) := report world act s
    let (others, last) := reports world rest after
    (first :: others, last)

/-- A session with a scripted engine under given settings. Each call nested inside another one
happens during a reply, so their depth is bounded by the number of replies. -/
def session (program : Program) (config : Act Config) (script : Array Reply) (steps : List Step) :
    Transcript :=
  let engine := scripted script
  let bare := World.ofDepth program.types {} engine 0
  let (settings, s) := config.runIn bare program.state
  match settings with
  | .error e => ⟨⟨.error e, []⟩, [], script.size⟩
  | .ok config =>
    let world := World.ofDepth program.types config engine (script.size + 1)
    let (start, s) := report world (do Environment.start; return .environment) s
    match start.outcome with
    | .error _ => ⟨start, [], script.size - commandCount s.history⟩
    | .ok _ =>
      let (steps, s) := reports world (steps.map Step.run) s
      ⟨start, steps, script.size - commandCount s.history⟩

end RuleMarshal
