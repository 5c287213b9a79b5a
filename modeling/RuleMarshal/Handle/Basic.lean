import RuleMarshal.Environment.Channel
/-!
What handles have in common. A handle names a construct and the epoch that it was handed out in;
it is current while the environment is open and that epoch lasts. Names come as values of the
host program and are refused where they are no symbols that the engine reads as one token.
-/

set_option autoImplicit false
set_option relaxedAutoImplicit false

namespace RuleMarshal

open MonadExcept (ofExcept)

/-! ### Currency -/

/-- Whether an instance handle may still refer to something. -/
def InstanceHandle.isCurrent (h : InstanceHandle) (s : State) : Bool :=
  !s.closed && s.dataEpoch = h.epoch

/-- Whether a fact handle may still refer to something. -/
def FactHandle.isCurrent (h : FactHandle) (s : State) : Bool :=
  !s.closed && s.dataEpoch = h.epoch

/-- Whether a template handle may still refer to something. -/
def TemplateHandle.isCurrent (h : TemplateHandle) (s : State) : Bool :=
  !s.closed && s.constructEpochOf .template h.name = h.epoch

/-- Whether a class handle may still refer to something. -/
def ClassHandle.isCurrent (h : ClassHandle) (s : State) : Bool :=
  !s.closed && s.constructEpochOf .defclass h.name = h.epoch

/-- The text of a value that is looked at for the characters of a symbol. -/
def Value.matchable (v : Value) : Except Error String :=
  match v, v.text? with
  | _, some s => .ok s
  | .stranger .bytes, _ =>
    .error (.host (.typing "cannot use a string pattern on a bytes-like object"))
  | v, _ => .error (.host (.typing
      ("expected string or bytes-like object, got '" ++ v.typeName ++ "'")))

namespace Act

/-! ### Names and values in engine text -/

/-- Refuses a value that nothing can be looked up under. -/
def requireKey (v : Value) : Act Unit := do
  ofExcept (v.countable (← read).types (← get).heap)

/-- A value as a symbol of the engine, with the type that it was given in. -/
def symbolText (role : NameRole) (v : Value) : Act HostText := do
  let refused : Act HostText := do throw (.unsupported (.engineSymbol role (← shown v)))
  match v.hostText? with
  | some t => if Text.SafeSymbol.accepts t.content then return t else refused
  | none => refused

/-- A value as a symbol of the engine. -/
def symbol (role : NameRole) (v : Value) : Act String := do return (← symbolText role v).content

/-- The engine value of a value by its type. -/
def encode (v : Value) : Act EngineValue := do ofExcept ((← get).heap.content v).toEngine

/-- A value written as engine text. -/
def term (v : Value) : Act Term := do ofExcept (← encode v).term

/-- Named values as slots with their texts. -/
def slotTerms : List (String × Value) → Act (List (String × Term))
  | [] => return []
  | (name, v) :: rest => do
    let slot ← symbol .slot (.text name)
    let t ← term v
    let others ← slotTerms rest
    return (slot, t) :: others

/-- The text of the content of a scalar; other values have no content. -/
def content (v : EngineValue) : Act String :=
  match v.content? with
  | some s => return s
  | none => throw (.host (.noAttribute
      ("'" ++ v.typeName ++ "' object has no attribute 'value'")))

/-! ### Handles on constructs -/

/-- A handle on the template of a name, valid from now on. -/
def templateHandle (name : Value) : Act TemplateHandle := do
  requireKey name
  let s ← get
  let text ← symbolText .template name
  return { text, epoch := s.constructEpochOf .template text.content, serial := ← nextSerial }

/-- A handle on the class of a name, valid from now on. -/
def classHandle (name : Value) : Act ClassHandle := do
  requireKey name
  let s ← get
  let text ← symbolText .defclass name
  return { text, epoch := s.constructEpochOf .defclass text.content, serial := ← nextSerial }

/-- Handles on the classes of some names. -/
def classHandles (names : List String) : Act (List ClassHandle) :=
  names.mapM fun name ↦ classHandle (.text name)

/-- Makes the handles on a template or class refer to nothing. -/
def retire (kind : ConstructKind) (name : String) : Act Unit :=
  modify fun s ↦
    let generation := (s.generations.lookup (kind, name)).getD 0 + 1
    { s with
      generations :=
        ((kind, name), generation) :: s.generations.filter fun p ↦ p.1 ≠ (kind, name) }

/-- The handles on instances in what the engine answered: addresses as they are, names as handles
from now on, and nothing for other values. -/
def instancesIn (v : EngineValue) : Act (List InstanceHandle) := do
  let items := match v with
    | .multifield items => items
    | v => [v]
  let found ← items.mapM fun
    | .instanceAddress h => return some h
    | .instanceName name => do return some (← instanceHandle name)
    | _ => return (none : Option InstanceHandle)
  return found.filterMap id

/-- The instance that an expression makes. -/
def createInstance (e : Expression) : Act InstanceHandle := do
  guardMutation "make_instance"
  match ← eval e with
  | .instanceName name => instanceHandle name
  | .instanceAddress h => return h
  | _ => throw (.construction .creation (some e.sent) "")

/-- The fact in what the engine answered to an order to assert one. -/
def factIn (v : EngineValue) (refusal : Error) : Act FactHandle :=
  match v with
  | .factAddress h => return h
  | _ => throw refusal

/-- The fact that an expression asserts. -/
def assertCommand (e : Expression) : Act FactHandle := do
  guardMutation "assert"
  factIn (← eval e) (.construction .assertion (some e.sent) "")

/-- All facts. -/
def facts : Act (List FactHandle) := do
  match ← eval .factList with
  | .multifield items => return items.filterMap fun
    | .factAddress h => some h
    | _ => none
  | _ => return []

end Act

end RuleMarshal
