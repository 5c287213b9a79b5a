import RuleMarshal.Environment.State
import RuleMarshal.Function.Convention
/-!
The channel to the engine. A command is sent when the environment is open; while the engine works
on it, it may call host functions, and what such a call raises stays parked until the operation
that sent the command takes it up. The engine's refusals become errors of this library.
-/

set_option autoImplicit false
set_option relaxedAutoImplicit false

namespace RuleMarshal

open MonadExcept (ofExcept)

/-! ### Handles -/

/-- The epoch of handles on templates and classes of a name. -/
def State.constructEpochOf (s : State) (kind : ConstructKind) (name : String) : Nat × Nat :=
  (s.constructEpoch, (s.generations.lookup (kind, name)).getD 0)

namespace Act

/-- A number for a new handle. -/
def nextSerial : Act Nat := modifyGet fun s ↦ (s.serial + 1, { s with serial := s.serial + 1 })

/-- A handle on the instance of a name, valid from now on. -/
def instanceHandle (name : String) : Act InstanceHandle := do
  let serial ← nextSerial
  return { name, epoch := (← get).dataEpoch, serial }

/-- A handle on the fact of an index, valid from now on. -/
def factHandle (index : Int) : Act FactHandle := do
  let serial ← nextSerial
  return { index, epoch := (← get).dataEpoch, serial }

end Act

/-! ### What the engine hands over -/

mutual

/-- The engine value of what the engine's binding hands over. -/
def Native.toEngine : Native → Act EngineValue
  | .null => return .nil
  | .bool b => return .ofBool b
  | .int n => ofExcept (EngineValue.ofInt n)
  | .float x => return .float x
  | .text s => return .string s
  | .symbol s => return .symbol s
  | .instanceName s => return .instanceName s
  | .list items => do return .multifield (← nativesToEngine items)
  | .inst name => do return .instanceAddress (← Act.instanceHandle name)
  | .fact index _ => do return .factAddress (← Act.factHandle index)
  | .external label => return .externalAddress label

/-- The engine values of a list. -/
def nativesToEngine : List Native → Act (List EngineValue)
  | [] => return []
  | v :: rest => do
    let first ← v.toEngine
    let others ← nativesToEngine rest
    return first :: others

end

/-! ### Calls by the engine -/

namespace Registration

/-- The name that the engine calls a function by. -/
def name (r : Registration) : String := r.signature.name

/-- Converts the arguments, runs the function and converts what it returned. -/
def attempt (r : Registration) (args : List Native) : Act Native := do
  let world ← read
  let values ← nativesToEngine args
  let resolve (v : EngineValue) (h : Hint) : Act Value := Act.ofRun fun _ s ↦ world.resolve v h s
  let converted ← r.signature.coerce (some resolve) values
  modify fun s ↦ { s with depth := s.depth + 1 }
  let running : Act Value := Act.ofRun fun world s ↦ world.invoke r.function converted s
  let returned ← tryCatch
    (Act.always running fun s ↦ { s with depth := s.depth - 1 })
    fun e ↦ throw (.call (.raised r.name e) (some r.name))
  let heap := (← get).heap
  let v ← ofExcept (r.signature.result world.types heap (heap.content returned))
  ofExcept v.toNative

/-- Runs a function for the engine. An error of this library is attributed to the function and
parked; every error goes to the engine. -/
def call (r : Registration) (args : List Native) : Act Native :=
  tryCatch (r.attempt args) fun e ↦ do
    if e.isOwn then
      let e := match e with
        | .call .. => e
        | e => .call (.carried e) (some r.name)
      modify fun s ↦ { s with parked := some e }
      throw e
    else throw e

end Registration

namespace Channel

/-- Answers a call of a host function by the engine: what it raises is not passed on. -/
def answer (c : EngineCall) : Act Unit := do
  match (← get).bound.lookup c.name with
  | none => Act.note (.unknownFunction c.name)
  | some r =>
    tryCatch
      (do
        let v ← r.call c.args
        Act.note (.returned c.name v))
      fun e ↦ Act.note (.failed c.name e)

/-- Serves a call of a host function by the engine, and keeps what the heap was before and after
it. -/
def serve (c : EngineCall) : Act Unit := do
  let before ← get
  answer c
  modify fun s ↦ { s with calls := before.calls.push (before.heap, s.heap) }

/-- Drops the functions that the engine lost. -/
def unbind (names : List String) : Act Unit :=
  modify fun s ↦ { s with bound := s.bound.filter fun p ↦ !names.contains p.1 }

/-- Sends a command, serves the calls that the engine makes, and hands over how it ended. -/
def exchange (c : Command) : Act (Except String Native) := do
  let world ← read
  let reply := world.engine (← get).history c
  Act.note (.command c)
  unbind reply.forgets
  reply.calls.forM serve
  return reply.outcome

/-- Refuses to go on when the environment is closed. -/
def requireOpen : Act Unit := do
  if (← get).closed then throw (.stale .closed)

/-- Sends a command whose refusal is an error with what was sent and the engine's text. -/
def send (c : Command) (refusal : Construction) (sent : Native) : Act Native := do
  requireOpen
  match ← exchange c with
  | .ok v => return v
  | .error diagnostic => throw (.construction refusal (some sent) diagnostic)

/-- Sends a command that the engine does not refuse; its own error passes through. -/
def command (c : Command) : Act Native := do
  requireOpen
  match ← exchange c with
  | .ok v => return v
  | .error diagnostic => throw (.engine diagnostic)

/-- Defines a construct. -/
def build (construct : Native) : Act Unit :=
  discard (send (.build construct) .construct construct)

/-- The value of an expression. -/
def evaluate (e : Expression) : Act EngineValue := do
  let v ← send (.evaluate e) .expression e.sent
  v.toEngine

/-- Whether the value of an expression counts as true. -/
def isTrue (e : Expression) : Act Bool := do return (← evaluate e).isTrue

/-- The names that the value of an expression lists. -/
def names (e : Expression) : Act (List String) := do return (← evaluate e).lexemes

/-- Loads constructs from a file. -/
def load (path : String) : Act Unit := discard (send (.load path) (.loading path) (.text path))

/-- Runs the commands of a file. -/
def batch (path : String) : Act Unit := discard (send (.batch path) (.batching path) (.text path))

/-- Makes a function known to the engine. -/
def bindFunction (name : String) (r : Registration) : Act Unit := do
  discard (send (.bindFunction name) (.function name) (.text name))
  modify fun s ↦ { s with bound := putNamed s.bound name r }

/-- Whether the engine knows a function of a name. -/
def isFunction (name : String) : Act Bool := isTrue (.isFunction name)

end Channel

/-! ### Operations and parked failures -/

namespace Act

/-- The parked failure, which is parked no longer. -/
def takeParked : Act (Option Error) :=
  modifyGet fun s ↦ (s.parked, { s with parked := none })

/-- Runs an engine command as an operation: a failure that was parked meanwhile takes the place
of the engine's refusal, and of an answer too. -/
def checked {α : Type} (act : Act α) : Act α := do
  let answer ← tryCatch act fun e ↦ do
    if e.isConstruction then
      match ← takeParked with
      | some parked => throw parked
      | none => throw e
    else throw e
  match ← takeParked with
  | some parked => throw parked
  | none => return answer

/-- The value of an expression, as an operation. -/
def eval (e : Expression) : Act EngineValue := checked (Channel.evaluate e)

/-- Whether the value of an expression counts as true, as an operation. -/
def evalTrue (e : Expression) : Act Bool := do return (← eval e).isTrue

/-- Refuses an operation that changes the engine when the environment is closed or a host
function is running. -/
def guardMutation (operation : String) : Act Unit := do
  Channel.requireOpen
  if 0 < (← get).depth then throw (.call (.reentered operation) none)

end Act

end RuleMarshal
