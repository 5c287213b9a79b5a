import RuleMarshal.Handle.Instance
import RuleMarshal.Handle.Fact
import RuleMarshal.Host.Read
/-!
Extraction: instances and facts of the engine as values of the host program. A destination is a
type, for which something new is built, or something that exists and is filled. An instance that
is met again under the same destination within one extraction is what was built for it before, so
cyclic instances come back as cyclic objects.
-/

set_option autoImplicit false
set_option relaxedAutoImplicit false

namespace RuleMarshal

open Act
open MonadExcept (ofExcept)

/-! ### Destinations -/

/-- Whether a hint is a mapping, a struct or a sequence; a tuple whose items have types of their
own is refused. -/
def Hint.isContainer (table : TypeTable) (h : Hint) : Except Error Bool :=
  if h.isMapping || table.isStruct h then .ok true
  else
    match h.items with
    | .none => .ok false
    | .each .. => .ok true
    | .ofOwnTypes => .error h.itemsRefused

/-- The item type of a sequence, and whether it is a tuple; a tuple whose items have types of
their own is refused. -/
def Hint.sequence? (h : Hint) : Except Error (Option (Bool × Hint)) :=
  match h.items with
  | .none => .ok Option.none
  | .each asTuple item => .ok (some (asTuple, item))
  | .ofOwnTypes => .error h.itemsRefused

/-- The type of a value that can be filled: a struct, a mapping or a list. -/
def Value.fillableType? (table : TypeTable) : Value → Option Hint
  | .mapping _ => some .mapping
  | .list _ => some .list
  | v => v.structType? table

/-- The destination that a value stands for: a type, or the type of what is to be filled. -/
def Value.splitDestination (table : TypeTable) (heap : Heap) (v : Value) :
    Except Error (Hint × Option Value) :=
  match heap.opened v with
  | .none => .ok (.none, Option.none)
  | .hint h => .ok (h, Option.none)
  | opened =>
    match opened.fillableType? table with
    | some h => .ok (h, some v)
    | Option.none => do
      throw (.unsupported (.extractionDestination (← v.shown table heap)))

/-! ### What is built -/

/-- A value that a field of a new object holds at first. -/
def Initial.value : Initial → Act Value
  | .shared v => return v
  | .anew built => built.read

/-- Hands supplied values to the fields of a model, one after the other: a field takes what is
supplied under its alias, else what is supplied under its name, and each is taken once. -/
def fillModel (object : Value) : List FieldDeclaration → List (String × Value) → Act Unit
  | [], _ => return ()
  | f :: rest, supplied => do
    let key := match f.serialization.filter fun key ↦ supplied.any (·.1 = key) with
      | some key => key
      | none => f.attr
    match supplied.lookup key with
    | some v => assign object f.attr v
    | none =>
      if let some initial := f.initial? .model then assign object f.attr (← initial.value)
    fillModel object rest (supplied.filter (·.1 ≠ key))

/-- A new object of a struct type whose fields hold their defaults or zero values. -/
def blank (dest : Hint) (fields : List Field) : Act Value := do
  let table := (← read).types
  let initial (f : Field) : Act Value := do (← ofExcept f.initial).value
  match dest with
  | .struct name =>
    match table.find? name with
    | some t =>
      if table.kindOf t = .model then
        let supplied ← fields.mapM fun f ↦ do return (f.attr, ← initial f)
        let object := Value.object name (← alloc (.object []))
        fillModel object (table.declaredFields t) supplied
        return object
      else filled name initial
    | none => filled name initial
  | h => filled h.shortName initial
where
  filled (name : String) (initial : Field → Act Value) : Act Value := do
    let object := Value.object name (← alloc (.object []))
    fields.forM fun f ↦ do assign object f.attr (← initial f)
    return object

/-- The attributes that engine values keep what they hold under. -/
def engineAttributes : List String := ["value", "items", "pointer"]

/-- An object whose attributes make up an engine value as that engine value; other objects stay. -/
def asEngineValue (object : Value) : Act Value := do
  match object with
  | .object struct id =>
    if ((← read).types.find? struct).isSome then return object
    let attrs := (← get).heap.attrs id
    let made := (ValueKind.ofTypeName? struct).bind fun kind ↦ EngineValue.ofAttributes? kind attrs
    return (made.map .engine).getD object
  | _ => return object

/-- Fills the attributes of what is to be filled. An engine value has no cell of its own: its
attributes are filled in one, and the value that they make up is the target from then on. -/
def filling (target : Value) (fill : Value → Act Unit) : Act Value := do
  match (← get).heap.opened target with
  | .engine v => do
    let attrs := engineAttributes.filterMap fun attr ↦ (v.attribute? attr).map fun w ↦ (attr, w)
    let object := Value.object v.typeName (← alloc (.object attrs))
    fill object
    let filled ← asEngineValue object
    match target with
    | .held id => do
      put id (.value filled)
      return target
    | _ => return filled
  | object => do
    fill object
    asEngineValue object

/-- The fields of a struct type as another reading of its declaration gives them. -/
def fieldsAnew (dest : Hint) : Act (List Field) := do
  let world ← read
  let fields ← ofExcept (world.types.fields world.config.tags dest)
  modify fun s ↦ { s with readings := s.readings + 1 }
  let number := (← get).readings
  return fields.map fun f ↦ { f with hint := f.hint.inReading number }

/-- What has been built for an instance under a destination. -/
def visitedFor (name : String) (dest : Hint) : Act (Option Value) := do
  let visited := (← get).visited
  return dest.destination?.bind fun d ↦ visited.lookup (name, d)

/-- Notes what is being built for an instance under a destination. -/
def visit (name : String) (dest : Hint) (v : Value) : Act Unit :=
  match dest.destination? with
  | some d => modify fun s ↦ { s with visited := ((name, d), v) :: s.visited }
  | none => return ()

/-- Runs a computation with nothing visited, and then goes back to what was visited before. -/
def freshly {α : Type} (act : Act α) : Act α := do
  let before := (← get).visited
  modify fun s ↦ { s with visited := [] }
  always act fun s ↦ { s with visited := before }

/-- Another value for a key of a mapping that is being filled. -/
def putKey (mapping : Value) (key : String) (v : Value) : Act Unit := do
  match mapping with
  | .mapping id => put id (.mapping (putEntry ((← get).heap.entries id) (.text key) v))
  | _ => return ()

/-- What is to be filled, or a new mapping. -/
def mappingTarget (target : Option Value) : Act Value :=
  match target with
  | some v => return v
  | none => Value.mapping <$> alloc (.mapping [])

section

variable (extract : EngineValue → Hint → Act Value)

/-- Fills a mapping with slots, one after the other. -/
def fillMapping (mapping : Value) (item : Hint) (slot : String → Act EngineValue)
    (names : List String) : Act Unit :=
  names.forM fun name ↦ do
    let v ← extract (← slot name) item
    putKey mapping name v

/-- Fills the fields of an object whose slots are among the given ones. -/
def fillFields (object : Value) (fields : List Field) (slot : String → Act EngineValue)
    (names : List String) : Act Unit :=
  fields.forM fun f ↦ do
    if names.contains f.engineName then
      let v ← extract (← slot f.engineName) f.hint
      assign object f.attr v

/-- An instance as a mapping or struct. -/
def extractInstance (h : InstanceHandle) (dest : Hint) (target : Option Value) : Act Value := do
  if let some v ← visitedFor h.name dest then return ← asEngineValue v
  let names ← h.slotNames
  let slot (name : String) : Act EngineValue := h.slot (.text name)
  let world ← read
  match dest.mappingValue? with
  | some item => do
    let mapping ← mappingTarget target
    visit h.name dest mapping
    fillMapping extract mapping item slot names
    return mapping
  | none => do
    if !world.types.isStruct dest then throw (.unsupported (.instanceDestination dest))
    let fields ← fieldsAnew dest
    let object ← match target with
      | some v => pure v
      | none => blank dest fields
    visit h.name dest object
    filling object fun object ↦ fillFields extract object fields slot names

/-- An ordered fact as a sequence, or as a mapping with the sequence under one key. -/
def extractOrdered (h : FactHandle) (dest : Hint) (target : Option Value) : Act Value := do
  let sequence ← ofExcept dest.sequence?
  if sequence.isNone && !dest.isMapping then throw (.mismatch (.orderedIntoStruct h.index))
  let values ← h.values
  match sequence with
  | none => do
    let mapping ← mappingTarget target
    let items ← values.mapM fun v ↦ extract v .any
    putKey mapping orderedSlot (.list items)
    return mapping
  | some (asTuple, item) => do
    let items ← values.mapM fun v ↦ extract v item
    match target with
    | some (.held id) => do
      put id (.value (.list (← holdEach items)))
      return .held id
    | some _ => return .list items
    | none => return if asTuple then .tuple items else .list items

/-- A fact with named slots as a mapping or struct. -/
def extractSlots (h : FactHandle) (dest : Hint) (target : Option Value) : Act Value := do
  if (← ofExcept dest.sequence?).isSome then throw (.mismatch (.templateIntoSequence h.index))
  let names ← h.slotNames
  let slot (name : String) : Act EngineValue := h.slot (.text name)
  let world ← read
  match dest.mappingValue? with
  | some item => do
    let mapping ← mappingTarget target
    fillMapping extract mapping item slot names
    return mapping
  | none => do
    if !world.types.isStruct dest then throw (.unsupported (.factDestination dest))
    let fields ← fieldsAnew dest
    let object ← match target with
      | some v => pure v
      | none => blank dest fields
    filling object fun object ↦ fillFields extract object fields slot names

/-- A fact as a value of a destination; a dynamic one is chosen by the kind of the fact. -/
def extractFact (h : FactHandle) (dest : Hint) (target : Option Value) : Act Value := do
  let dest ← if dest.isDynamic then
      if ← h.isOrdered then pure Hint.list else pure Hint.mapping
    else pure dest
  if ← h.isOrdered then extractOrdered extract h dest target
  else extractSlots extract h dest target

/-- The instance handle that a value gives. -/
def handleIn (v : EngineValue) : Act InstanceHandle :=
  match v with
  | .instanceAddress h => return h
  | .instanceName name => instanceHandle name
  | v => throw (.unsupported (.noConversion v.kind? "Instance"))

/-- What a plain conversion cannot build: handles, structs and mappings. -/
def resolveBy (v : EngineValue) (dest : Hint) : Act Value := do
  let refused : Act Value := throw (.unsupported (.noResolution v.kind? dest))
  match dest with
  | .instanceHandle => return .instanceHandle (← handleIn v)
  | .factHandle =>
    match v with
    | .factAddress h => return .factHandle h
    | v => throw (.unsupported (.noConversion v.kind? "Fact"))
  | dest => do
    let table := (← read).types
    if table.isStruct dest && v.isNil then return .none
    if ← ofExcept (dest.isContainer table) then
      match v with
      | .instanceName _ | .instanceAddress _ => do
        extractInstance extract (← handleIn v) dest none
      | .factAddress h => extractFact extract h dest none
      | _ => refused
    else refused

end

/-- The value of an engine value under a destination, with instances followed at most the given
number deep. -/
def extractWithin : Nat → EngineValue → Hint → Act Value
  | 0, _, _ => throw (.host .recursion)
  | depth + 1, v, into => do
    let byConversion : Act Value := into.decode (some (resolveBy (extractWithin depth))) v
    match v with
    | .factAddress h => do
      let dest := into.unwrapOptional.1
      if ← ofExcept (dest.isContainer (← read).types) then
        extractFact (extractWithin depth) h dest none
      else byConversion
    | _ => byConversion

/-- The value of an engine value under a destination, within the running extraction. -/
def extractValue (v : EngineValue) (into : Hint) : Act Value := extractWithin callLimit v into

/-- What a call of a host function cannot convert by itself. -/
def resolveArgument (v : EngineValue) (dest : Hint) : Act Value :=
  freshly (resolveBy extractValue v dest)

/-- A source as a value of a destination. -/
def extract (source into : Value) : Act Value := do
  let world ← read
  let heap := (← get).heap
  let (dest, target) ← ofExcept (into.splitDestination world.types heap)
  freshly do
    match heap.content source with
    | .instanceHandle h =>
      extractInstance extractValue h (if dest.isDynamic then .mapping else dest) target
    | .factHandle h => extractFact extractValue h dest target
    | .engine v => extractValue v dest
    | v => throw (.unsupported (.extractionSource v.typeName))

end RuleMarshal
