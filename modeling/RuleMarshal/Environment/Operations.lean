import RuleMarshal.Environment.Insertion
import RuleMarshal.Environment.Extraction
import RuleMarshal.Handle.Template
/-!
The operations of an environment. Operations that change the engine are refused while a host
function runs. Removing all constructs, or all instances and facts, ends the epoch of the handles
on them; functions that are registered are made known to the engine again where it lost them.
-/

set_option autoImplicit false
set_option relaxedAutoImplicit false

namespace RuleMarshal

open Act
open MonadExcept (ofExcept)

namespace Environment

/-! ### Commands -/

/-- What goes to the engine as it is given: a text of any type as a text, other plain data as
such. -/
def sent? : Value → Option Native
  | .none => some .null
  | .bool b => some (.bool b)
  | .int _ n => some (.int n)
  | .float x => some (.float x)
  | .text s | .symbol s | .instanceName s => some (.text s)
  | .list items | .tuple items => .list <$> sentEach? items
  | _ => none
where
  /-- Some values as they go to the engine. -/
  sentEach? : List Value → Option (List Native)
    | [] => some []
    | v :: rest => do
      let first ← sent? v
      let others ← sentEach? rest
      return first :: others

/-- What goes to the engine as it is given; the engine takes nothing but plain data. -/
def sent (v : Value) : Act Native := do
  let v := (← get).heap.content v
  match sent? v with
  | some given => return given
  | none => throw (.host (.typing ("a " ++ v.typeName ++ " cannot be sent to the engine")))

/-- The expression that a value is. -/
def expression (v : Value) : Act Expression := do
  return match ← sent v with
    | .text s => .written s
    | given => .other given

/-- Defines a construct. -/
def build (construct : Value) : Act Unit := do
  guardMutation "build"
  checked (do Channel.build (← sent construct))

/-- The value of an expression. -/
def evaluate (v : Value) : Act EngineValue := do eval (← expression v)

/-- The value of an expression under a destination. -/
def extractFrom (v into : Value) : Act Value := do extract (.engine (← evaluate v)) into

/-- Loads constructs from a file. -/
def load (path : String) : Act Unit := do
  guardMutation "load"
  checked (Channel.load path)

/-- Runs the commands of a file. -/
def batch (path : String) : Act Unit := do
  guardMutation "batch_star"
  checked (Channel.batch path)

/-- Removes all instances and facts; the handles on them then refer to nothing. -/
def reset : Act Unit := do
  guardMutation "reset"
  discard (checked (Channel.command .reset))
  modify fun s ↦ { s with dataEpoch := s.dataEpoch + 1 }

/-- Lets the rules fire, at most the given number of times. -/
def run (limit : Value) : Act Native := do
  guardMutation "run"
  checked (do Channel.command (.run (← sent limit)))

/-- Makes the functions that the engine no longer knows known to it again. -/
def restore : Act Unit := do
  (← get).functions.forM fun p ↦ do
    if !(← Channel.isFunction p.1) then Channel.bindFunction p.1 p.2

/-- Ends the epochs of all handles. -/
def endEpochs : Act Unit :=
  modify fun s ↦
    { s with constructEpoch := s.constructEpoch + 1, dataEpoch := s.dataEpoch + 1 }

/-- Removes all constructs; all handles then refer to nothing. -/
def clear : Act Unit := do
  guardMutation "clear"
  discard (Channel.command .clear)
  endEpochs
  restore

/-- Gives the engine up. -/
def close : Act Unit := do
  if !(← get).closed then
    modify fun s ↦ { s with closed := true }
    endEpochs

/-- Loads the files that the settings name. -/
def start : Act Unit := do (← read).config.loadPaths.forM load

/-! ### Host functions -/

/-- Whether a value counts as given where a name is optional. -/
def isGiven (heap : Heap) : Value → Bool
  | .none | .bool false | .tuple [] | .list [] | .engine (.multifield []) => false
  | .stranger .bytes | .stranger .set | .stranger .complex => false
  | .int _ n => n ≠ 0
  | .float x => !x.numericEq .zero
  | .text s | .symbol s | .instanceName s => !s.isEmpty
  | .mapping id => !(heap.entries id).isEmpty
  | _ => true

/-- The name that a function is registered under: the given one, else its own. -/
def functionName (f : Callable) (name : Value) : Act HostText := do
  if isGiven (← get).heap name then
    let content ← ofExcept name.matchable
    let text := name.hostText?.getD (.plain content)
    if Text.SafeSymbol.accepts content then return text
    throw (.unsupported (.functionName text.shown))
  match f.name? with
  | none => throw (.unsupported (.functionName "None"))
  | some own =>
    if Text.SafeSymbol.accepts own then return .plain own
    throw (.unsupported (.functionName (Text.shown own)))

/-- Makes a host function callable by the engine, under its own name or another one. A function that
is registered again stays listed as it was. -/
def register (f : Callable) (name : Value) : Act Signature := do
  guardMutation "define_function"
  let text ← functionName f name
  let signature ← ofExcept (Signature.inspect (← read).types text f)
  let signature := { signature with serial := ← nextSerial }
  let before := (← get).functions.lookup text.content
  let registration : Registration :=
    { signature, function := f, listedAs := (before.map (·.listedAs)).getD text }
  Channel.bindFunction text.content registration
  modify fun s ↦ { s with functions := putNamed s.functions text.content registration }
  return signature

/-- The names of the registered functions, as they are listed. -/
def functionNames : Act (List HostText) := do
  return (← get).functions.map fun p ↦ p.2.listedAs

/-- The signature of a registered function. -/
def signature? (name : String) : Act (Option Signature) := do
  return ((← get).functions.lookup name).map (·.signature)

/-! ### Facts and instances -/

/-- The instance that a command makes. -/
def makeInstance (command : Value) : Act InstanceHandle := do
  guardMutation "make_instance"
  createInstance (← expression command)

/-- The fact that a command asserts. -/
def assertBy (command : Value) : Act FactHandle := do
  guardMutation "assert"
  assertCommand (← expression command)

/-- The fact that is written in a text. -/
def assertText (fact : Value) : Act FactHandle := do
  guardMutation "assert_string"
  match fact, fact.text? with
  | .stranger .bytes, _ =>
    throw (.host (.typing "a bytes-like object is required, not 'str'"))
  | fact, none => throw (.host (.noAttribute
      ("'" ++ fact.typeName ++ "' object has no attribute 'replace'")))
  | _, some text => do
    let v ← checked (Channel.evaluate (.assertText text))
    factIn v (.construction .assertion (some (.text text)) "")

/-- All instances. -/
def instances : Act (List InstanceHandle) := do instancesIn (← eval (.instancesOf "USER"))

/-- The instance of a name, if it exists. -/
def findInstance (name : String) : Act (Option InstanceHandle) := do
  let h ← instanceHandle name
  return if ← h.isAlive then some h else none

/-- All templates that the engine lists. -/
def templates : Act (List TemplateHandle) := do
  (← Channel.names .templateList).mapM fun name ↦ templateHandle (.text name)

/-- The template of a name, if it exists. -/
def findTemplate (name : Value) : Act (Option TemplateHandle) := do
  if !Text.SafeSymbol.accepts (← ofExcept name.matchable) then return none
  let h ← templateHandle name
  return if ← h.isAlive then some h else none

/-- All classes that the engine lists. -/
def classes : Act (List ClassHandle) := do classHandles (← Channel.names .classList)

/-- The class of a name, if it exists. -/
def findClass (name : Value) : Act (Option ClassHandle) := do
  if !Text.SafeSymbol.accepts (← ofExcept name.matchable) then return none
  let h ← classHandle name
  return if ← h.isAlive then some h else none

/-! ### Epochs -/

/-- Which epoch a handle belongs to. -/
inductive Epoch where
  | count (n : Nat)
  | construct (epoch : Nat × Nat)

/-- The epoch that a new handle like the given value would belong to. -/
def epochFor (v : Value) : Act Epoch := do
  let s ← get
  match v with
  | .instanceHandle _ | .factHandle _ => return .count s.dataEpoch
  | .templateHandle h => return .construct (s.constructEpochOf .template h.name)
  | .classHandle h => return .construct (s.constructEpochOf .defclass h.name)
  | _ => return .count s.constructEpoch

end Environment

end RuleMarshal
