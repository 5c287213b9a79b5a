import RuleMarshal.Config
import RuleMarshal.Engine.Command
import RuleMarshal.Function.Signature
import RuleMarshal.Host.View
import RuleMarshal.Schema.Reflect
/-!
The state of an environment and of the host program that drives it, and the computations that
change it. The engine itself is outside: a world says what it replies to a command after what
happened before. Whatever happens is written into a history. A computation that fails keeps what
it has changed.
-/

set_option autoImplicit false
set_option relaxedAutoImplicit false

namespace RuleMarshal

/-- A host function that the engine can call, with its signature and the text that it is listed
by. -/
structure Registration where
  signature : Signature
  function : Callable
  listedAs : HostText

/-- Something that happened between an environment and its engine. -/
inductive Event where
  | command (c : Command)
  | invoked (name : Option String) (args : View)
  | stepFailed (e : Error)
  | returned (name : String) (v : Native)
  | failed (name : String) (e : Error)
  | unknownFunction (name : String)

/-- Whether an event is a command to the engine. -/
def Event.isCommand : Event → Bool
  | .command _ => true
  | _ => false

/-- Destinations that an extraction keeps apart: a struct type, mappings of anything, and each
place where a mapping of a declared type is made. -/
inductive Destination where
  | struct (name : String)
  | engineValue (kind : Option ValueKind)
  | mapping
  | mappingAt (place : Place)
  deriving DecidableEq, Repr

/-- The destination of a hint that objects can be built for. -/
def Hint.destination? : Hint → Option Destination
  | .struct name => some (.struct name)
  | .engineValue kind => some (.engineValue kind)
  | .mapping => some .mapping
  | .mappingOf place _ _ => some (.mappingAt place)
  | @Hint.generic place .mapping _ => some (.mappingAt place)
  | _ => Option.none

/-- What one extraction has built so far, by instance and destination. -/
abbrev Visited := List ((String × Destination) × Value)

/-- An environment and the host program around it. -/
structure State where
  heap : Heap := {}
  /-- How often declarations of struct types were read for an extraction. -/
  readings : Nat := 0
  /-- What the host program has given names to. -/
  named : List (String × Value) := []
  /-- Objects by the labels of the literals that made them. -/
  labels : List (String × Value) := []
  closed : Bool := false
  /-- How often all constructs were removed. -/
  constructEpoch : Nat := 0
  /-- How often all instances and facts were removed. -/
  dataEpoch : Nat := 0
  /-- How often a template or class of a name was undefined. -/
  generations : List ((ConstructKind × String) × Nat) := []
  /-- The functions that are registered, in order. -/
  functions : List (String × Registration) := []
  /-- The functions that the engine has bound. -/
  bound : List (String × Registration) := []
  /-- How many host functions are running. -/
  depth : Nat := 0
  /-- The last failure of a host function that no operation has taken up. -/
  parked : Option Error := none
  memo : Memo := {}
  visited : Visited := []
  /-- How many handles were made. -/
  serial : Nat := 0
  history : Array Event := #[]
  /-- The heaps before and after each call of a host function by the engine, calls inside a call
  apart. This is an auxiliary variable: nothing reads it, and it tells what functions did to the
  heap meanwhile. -/
  calls : Array (Heap × Heap) := #[]

/-- What an environment works with and does not change. -/
structure World where
  types : TypeTable := {}
  config : Config := {}
  /-- The engine's reply to a command after a history. -/
  engine : Array Event → Command → Reply
  /-- Runs a host function on arguments. -/
  invoke : Callable → List Value → State → Except Error Value × State
  /-- Builds what a plain conversion cannot: handles, structs and mappings. -/
  resolve : EngineValue → Hint → State → Except Error Value × State

/-- A computation on an environment. -/
abbrev Act (α : Type) := ReaderT World (ExceptT Error (StateM State)) α

namespace Act

/-- Runs a computation in a world from a state. -/
def runIn {α : Type} (act : Act α) (world : World) (s : State) : Except Error α × State :=
  act world s

/-- A computation given by what it does to the state. -/
def ofRun {α : Type} (run : World → State → Except Error α × State) : Act α := run

/-- A computation that always changes the state at its end, also when it fails. -/
def always {α : Type} (act : Act α) (change : State → State) : Act α :=
  ofRun fun world s ↦
    match act world s with
    | (answer, after) => (answer, change after)

/-- Writes an event into the history. -/
def note (e : Event) : Act Unit := modify fun s ↦ { s with history := s.history.push e }

/-- A new cell of the heap. -/
def alloc (cell : Cell) : Act Nat :=
  modifyGet fun s ↦
    let (heap, id) := s.heap.alloc cell
    (id, { s with heap })

/-- Another content for a cell of the heap. -/
def put (id : Nat) (cell : Cell) : Act Unit :=
  modify fun s ↦ { s with heap := s.heap.put id cell }

/-- How a value is shown. -/
def shown (v : Value) : Act String := do
  MonadExcept.ofExcept (v.shown (← read).types (← get).heap)

/-- The text of a value. -/
def written (v : Value) : Act String := do
  MonadExcept.ofExcept (v.written (← read).types (← get).heap)

end Act

end RuleMarshal
