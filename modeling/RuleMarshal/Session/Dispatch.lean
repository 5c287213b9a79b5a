import RuleMarshal.Environment.Operations
import RuleMarshal.Handle.Builder
import RuleMarshal.Host.Number
import RuleMarshal.Session.Binding
import RuleMarshal.Session.Method
/-!
Which operation a step calls. Operations of an environment and of each kind of handle, builder and
slot are found by their method; what an operation answers is a value of the host program. A method
that a receiver does not have is refused.
-/

set_option autoImplicit false
set_option relaxedAutoImplicit false

namespace RuleMarshal

open Act
open MonadExcept (ofExcept)

/-! ### Answers as values -/

/-- A new mapping from texts. -/
def newMapping (entries : List (String × Value)) : Act Value :=
  Value.mapping <$> alloc (.mapping (entries.map fun p ↦ (.text p.1, p.2)))

/-- A list of engine values. -/
def engineList (values : List EngineValue) : Value := .list (values.map .engine)

/-- A list of texts. -/
def textList (texts : List String) : Value := .list (texts.map .text)

/-- A tuple of texts. -/
def textTuple (texts : List String) : Value := .tuple (texts.map .text)

/-- What was found, or the absent value. -/
def orNone {α : Type} (wrap : α → Value) (found : Option α) : Value := (found.map wrap).getD .none

/-- The absent value after a computation without an answer. -/
def done (act : Act Unit) : Act Value := do
  act
  return .none

mutual

/-- What the engine's binding hands over, as it is. -/
def Native.toValue : Native → Value
  | .null => .none
  | .bool b => .bool b
  | .int n => .int .unsized n
  | .float x => .float x
  | .text s => .text s
  | .symbol s => .symbol s
  | .instanceName s => .instanceName s
  | .list items => .tuple (nativesToValues items)
  | .inst _ => .construct .inst
  | .fact _ ofTemplate => .construct (if ofTemplate then .templateFact else .orderedFact)
  | .external label => .external label

/-- What the engine's binding hands over in a list, as it is. -/
def nativesToValues : List Native → List Value
  | [] => []
  | v :: rest => v.toValue :: nativesToValues rest

end

/-- An epoch as a value. -/
def Environment.Epoch.toValue : Environment.Epoch → Value
  | .count n => .int .unsized n
  | .construct (epoch, generation) => .tuple [.int .unsized epoch, .int .unsized generation]

/-- Slots of an owner as values, each with a number of its own. -/
def slotValues {α : Type} (owner : α) (make : α → String → Nat → Value) (names : List String) :
    Act Value := do
  return .list (← names.mapM fun name ↦ do return make owner name (← nextSerial))

/-! ### Operations of an environment -/

/-- How an operation of an environment is asked for, if it is one. -/
def environmentAccess? : Method → Option Access
  | .closed => some .property
  | .reset | .clear | .close | .enter | .facts | .templates | .instances | .classes =>
    some (.call {})
  | .build => some (.call { names := ["construct"] })
  | .eval => some (.call { names := ["expression"] })
  | .extractEval => some (.call { names := ["expression", "into"], required := 1 })
  | .load | .batch => some (.call { names := ["path"] })
  | .run => some (.call { names := ["limit"], required := 0 })
  | .defineFunction => some (.call { names := ["func", "name"], required := 1 })
  | .insert => some (.call { names := ["value", "name"], required := 1 })
  | .extract => some (.call { names := ["source", "into"], required := 1 })
  | .makeInstance | .assertCommand => some (.call { names := ["command"] })
  | .assertString => some (.call { names := ["fact"] })
  | .findTemplate | .findInstance | .findClass | .instanceHandle | .templateHandle
  | .classHandle => some (.call { names := ["name"] })
  | .factHandle => some (.call { names := ["index"] })
  | .epochFor => some (.call { names := ["handle"] })
  | .guardMutation => some (.call { names := ["operation"] })
  | _ => none

/-- How many arguments a question to the session needs, if it is one. -/
def questionAccess? : Method → Option Access
  | .leave | .functionNames | .countDistinct => some (.question 0)
  | .synthesize | .verify | .reflect | .signature | .letValue | .shown | .sameEnvironment =>
    some (.question 1)
  | .eq | .identical => some (.question 2)
  | _ => none

/-- Whether the values of two arguments are equal. -/
def equalValues (v w : Value) : Act Bool := do
  ofExcept (v.equal (← read).types (← get).heap w)

/-- The refusal of an operation that a receiver does not have. -/
def noMethod {α : Type} (receiver : Value) (word : String) : Act α :=
  throw (.host (.noAttribute
    ("'" ++ receiver.typeName ++ "' object has no attribute '" ++ word ++ "'")))

/-- The type that a value is. A function has a name as types do, but is none. -/
def typeGiven (v : Value) : Act Hint := do
  requireKey v
  match v with
  | .hint h => return h
  | .function f =>
    match f.name with
    | none => noMethod v "__name__"
    | some name =>
      throw (.unsupported (if Text.SafeSymbol.accepts name then .notAStruct (Text.shown name)
        else .className name))
  | v => noMethod v "__name__"

/-- An operation of an environment, or the answer to a question. -/
def callEnvironment (method : Method) (b : Bound) : Act Value :=
  match method with
  | .build => done (Environment.build (b.get 0))
  | .eval => do return .engine (← Environment.evaluate (b.get 0))
  | .extractEval => Environment.extractFrom (b.get 0) ((b.get? 1).getD (.hint .any))
  | .load => do done (Environment.load (← written (b.get 0)))
  | .batch => do done (Environment.batch (← written (b.get 0)))
  | .reset => done Environment.reset
  | .run => do return (← Environment.run (b.get 0)).toValue
  | .clear => done Environment.clear
  | .close | .leave => done Environment.close
  | .closed => do return .bool (← get).closed
  | .enter => return .environment
  | .defineFunction => do
    return .signature (← Environment.register (Callable.ofValue (b.get 0)) (b.get 1))
  | .insert => do return .instanceHandle (← insert (b.get 0) (b.get 1))
  | .extract => extract (b.get 0) ((b.get? 1).getD (.hint .any))
  | .makeInstance => do return .instanceHandle (← Environment.makeInstance (b.get 0))
  | .assertString => do return .factHandle (← Environment.assertText (b.get 0))
  | .assertCommand => do return .factHandle (← Environment.assertBy (b.get 0))
  | .facts => do return .list ((← facts).map .factHandle)
  | .templates => do return .list ((← Environment.templates).map .templateHandle)
  | .findTemplate => do return orNone .templateHandle (← Environment.findTemplate (b.get 0))
  | .instances => do return .list ((← Environment.instances).map .instanceHandle)
  | .findInstance => do
    return orNone .instanceHandle (← Environment.findInstance (← written (b.get 0)))
  | .classes => do return .list ((← Environment.classes).map .classHandle)
  | .findClass => do return orNone .classHandle (← Environment.findClass (b.get 0))
  | .instanceHandle => do return .instanceHandle (← instanceHandle (← written (b.get 0)))
  | .factHandle => do
    let index ← ofExcept ((b.get 0).toInteger.mapError .host)
    return .factHandle (← factHandle index)
  | .templateHandle => do return .templateHandle (← templateHandle (b.get 0))
  | .classHandle => do return .classHandle (← classHandle (b.get 0))
  | .guardMutation => do done (guardMutation (← written (b.get 0)))
  | .synthesize => do return textList (← synthesize (← typeGiven (b.get 0)))
  | .verify => do done (verify (← schemaOf (← typeGiven (b.get 0))))
  | .reflect => do return .schema (← schemaOf (← typeGiven (b.get 0)))
  | .functionNames => do
    return .list ((← Environment.functionNames).map HostText.toValue)
  | .signature => do
    requireKey (b.get 0)
    match (b.get 0).text? with
    | some name => return orNone .signature (← Environment.signature? name)
    | none => return .none
  | .epochFor => do return (← Environment.epochFor (b.get 0)).toValue
  | .letValue => return b.get 0
  | .eq => do return .bool (← equalValues (b.get 0) (b.get 1))
  | .identical => return .bool ((b.get 0).identical (b.get 1))
  | .countDistinct => do
    let kept ← ofExcept (distinctValues (← read).types (← get).heap b.rest)
    return .int .unsized kept.length
  | .shown => do return .text (← shown (b.get 0))
  | .sameEnvironment =>
    match b.get 0 with
    | .instanceHandle _ | .factHandle _ | .templateHandle _ | .classHandle _ => return .bool true
    | v => noMethod v "environment"
  | method => noMethod .environment method.word

/-! ### Operations of handles, builders and slots -/

/-- How an operation of an instance is asked for, if it is one. -/
def instanceAccess? : Method → Option Access
  | .name | .ref | .instanceClass => some .property
  | .present | .slotNames | .slots | .delete | .unmake => some (.call {})
  | .slot => some (.call { names := ["name"] })
  | .setSlot => some (.call { names := ["name", "value"] })
  | .send => some (.call { names := ["message"], rest := true })
  | .extract => some (.call { names := ["into"], required := 0 })
  | _ => none

/-- How an operation of a fact is asked for, if it is one. -/
def factAccess? : Method → Option Access
  | .index | .template | .implied => some .property
  | .present | .slotNames | .values | .slots | .retract => some (.call {})
  | .slot => some (.call { names := ["name"] })
  | .modify => some (.call { anyKeyword := true })
  | .extract => some (.call { names := ["into"], required := 0 })
  | _ => none

/-- How an operation of a pending fact is asked for, if it is one. -/
def builderAccess? : Method → Option Access
  | .template | .asserted => some .property
  | .render | .assertFact => some (.call {})
  | .append => some (.call { names := ["value"] })
  | .extend => some (.call { names := ["values"] })
  | .set => some (.call { names := ["key", "value"] })
  | .update => some (.call { anyKeyword := true })
  | _ => none

/-- How an operation of a template is asked for, if it is one. -/
def templateAccess? : Method → Option Access
  | .name | .implied => some .property
  | .present | .slots | .facts | .newFact | .undefine => some (.call {})
  | _ => none

/-- How an operation of a class is asked for, if it is one. -/
def classAccess? : Method → Option Access
  | .name | .abstract | .reactive => some .property
  | .present | .superclasses | .subclasses | .slots | .instances | .undefine => some (.call {})
  | .newInstance => some (.call { names := ["name"], required := 0, anyKeyword := true })
  | _ => none

/-- How a property of a slot is asked for, if it is one. -/
def slotAccess? (ofClass : Bool) : Method → Option Access
  | .name | .multifield | .types | .defaultValue | .allowedValues | .range | .cardinality =>
    some .property
  | .allowedClasses | .writable => if ofClass then some .property else none
  | _ => none

/-- How an operation of what a variable holds is asked for, if it is one. -/
def receiverAccess? : Value → Method → Option Access
  | .instanceHandle _ => instanceAccess?
  | .factHandle _ => factAccess?
  | .builder _ => builderAccess?
  | .templateHandle _ => templateAccess?
  | .classHandle _ => classAccess?
  | .templateSlot .. => slotAccess? false
  | .classSlot .. => slotAccess? true
  | .environment => environmentAccess?
  | _ => fun _ ↦ none

/-- An operation of an instance. -/
def callInstance (h : InstanceHandle) (method : Method) (b : Bound) : Act Value :=
  match method with
  | .name => return .text h.name
  | .ref => return .text (renderInstanceName h.name)
  | .present => do return .bool (← h.isAlive)
  | .instanceClass => do return .classHandle (← h.instanceClass)
  | .slotNames => do return textList (← h.slotNames)
  | .slots => do newMapping ((← h.slots).map fun p ↦ (p.1, .engine p.2))
  | .slot => do return .engine (← h.slot (b.get 0))
  | .setSlot => done (h.setSlot (b.get 0) (b.get 1))
  | .send => do return .engine (← h.send (b.get 0) b.rest)
  | .delete => done h.delete
  | .unmake => done h.unmake
  | .extract => extract (.instanceHandle h) ((b.get? 0).getD (.hint .mapping))
  | method => noMethod (.instanceHandle h) method.word

/-- An operation of a fact. -/
def callFact (h : FactHandle) (method : Method) (b : Bound) : Act Value :=
  match method with
  | .index => return .int .unsized h.index
  | .present => do return .bool (← h.isAlive)
  | .template => do return .templateHandle (← h.template)
  | .implied => do return .bool (← h.isOrdered)
  | .slotNames => do return textList (← h.slotNames)
  | .slot => do return .engine (← h.slot (b.get 0))
  | .values => do return engineList (← h.values)
  | .slots => do
    match ← h.slots with
    | .ordered values => return engineList values
    | .slots values => newMapping (values.map fun p ↦ (p.1, .engine p.2))
  | .retract => done h.retract
  | .modify => do return .factHandle (← h.modify b.keywords)
  | .extract => extract (.factHandle h) ((b.get? 0).getD (.hint .any))
  | method => noMethod (.factHandle h) method.word

/-- An operation of a pending fact. -/
def callBuilder (id : Nat) (method : Method) (b : Bound) : Act Value :=
  let after (act : Act Unit) : Act Value := do
    act
    return .builder id
  match method with
  | .template => do return .templateHandle (← Builder.read id).template
  | .asserted => do return orNone .factHandle (← Builder.read id).asserted
  | .append => after (Builder.append id (b.get 0))
  | .extend => after (Builder.extend id (b.get 0))
  | .set => after (Builder.set id (b.get 0) (b.get 1))
  | .update => after (Builder.update id b.keywords)
  | .render => do return .text (← Builder.render id)
  | .assertFact => do return .factHandle (← Builder.assertFact id)
  | method => noMethod (.builder id) method.word

/-- An operation of a template. -/
def callTemplate (h : TemplateHandle) (method : Method) : Act Value :=
  match method with
  | .name => return h.text.toValue
  | .present => do return .bool (← h.isAlive)
  | .implied => do return .bool (← h.isOrdered)
  | .slots => do slotValues h .templateSlot (← h.slots)
  | .facts => do return .list ((← h.facts).map .factHandle)
  | .newFact => do return .builder (← Builder.ofTemplate h)
  | .undefine => done h.undefine
  | method => noMethod (.templateHandle h) method.word

/-- An operation of a class. -/
def callClass (h : ClassHandle) (method : Method) (b : Bound) : Act Value :=
  match method with
  | .name => return h.text.toValue
  | .present => do return .bool (← h.isAlive)
  | .abstract => do return .bool (← h.isAbstract)
  | .reactive => do return .bool (← h.isReactive)
  | .superclasses => do return .list ((← h.superclasses).map .classHandle)
  | .subclasses => do return .list ((← h.subclasses).map .classHandle)
  | .slots => do slotValues h .classSlot (← h.slots)
  | .instances => do return .list ((← h.instances).map .instanceHandle)
  | .newInstance => do return .instanceHandle (← h.newInstance (b.get 0) b.keywords)
  | .undefine => done h.undefine
  | method => noMethod (.classHandle h) method.word

/-- A property of a slot of a template. -/
def callTemplateSlot (owner : TemplateHandle) (name : String) (serial : Nat) (method : Method) :
    Act Value :=
  match method with
  | .name => return .text name
  | .multifield => do return .bool !(← owner.facet name .isMulti).isFalse
  | .types => do return textTuple (← owner.facet name .types).lexemes
  | .defaultValue => do return .engine (← owner.facet name .default)
  | .allowedValues => do return .engine (← owner.facet name .allowedValues)
  | .range => do return .engine (← owner.facet name .range)
  | .cardinality => do return .engine (← owner.facet name .cardinality)
  | method => noMethod (.templateSlot owner name serial) method.word

/-- A property of a slot of a class. -/
def callClassSlot (owner : ClassHandle) (name : String) (serial : Nat) (method : Method) :
    Act Value :=
  match method with
  | .name => return .text name
  | .multifield => do return .bool (← owner.isMulti name)
  | .types => do return textTuple (← owner.facet name .types).lexemes
  | .allowedClasses => do return textTuple (← owner.facet name .allowedClasses).lexemes
  | .defaultValue => do return .engine (← owner.facet name .default)
  | .allowedValues => do return .engine (← owner.facet name .allowedValues)
  | .range => do return .engine (← owner.facet name .range)
  | .cardinality => do return .engine (← owner.facet name .cardinality)
  | .writable => do return .bool (← owner.isWritable name)
  | method => noMethod (.classSlot owner name serial) method.word

/-- An operation of what a variable holds. -/
def callReceiver (receiver : Value) (method : Method) (b : Bound) : Act Value :=
  match receiver with
  | .instanceHandle h => callInstance h method b
  | .factHandle h => callFact h method b
  | .builder id => callBuilder id method b
  | .templateHandle h => callTemplate h method
  | .classHandle h => callClass h method b
  | .templateSlot owner name serial => callTemplateSlot owner name serial method
  | .classSlot owner name serial => callClassSlot owner name serial method
  | .environment => callEnvironment method b
  | v => noMethod v method.word

end RuleMarshal
