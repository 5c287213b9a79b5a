import RuleMarshal.Environment.Synthesis
import RuleMarshal.Handle.Instance
/-!
Insertion: objects of the host program as instances of the engine. Objects that a slot refers to
become instances of their own, before the instance that refers to them, and the slot holds their
names. An object that is reached more than once becomes a single instance.
-/

set_option autoImplicit false
set_option relaxedAutoImplicit false

namespace RuleMarshal

open Act
open MonadExcept (ofExcept)

/-- What one insertion has done so far. -/
structure Insertion where
  /-- What objects were named, by their cells; a name may turn out to be none. -/
  names : List (Nat × Except Error String) := []
  /-- The types whose classes were made ready. -/
  prepared : List Hint := []

/-- A computation of an insertion. -/
abbrev Inserting (α : Type) := StateT Insertion Act α

/-- Whether a value is of a struct type or of one that has it among its bases. -/
def Value.isOfType (table : TypeTable) (h : Hint) : Value → Bool
  | .object struct _ =>
    match h with
    | .struct ancestor => table.isKindOf struct ancestor
    | _ => false
  | .engine v =>
    match h with
    | .engineValue kind => v.kind? = kind
    | _ => false
  | _ => false

/-- An attribute of an object. -/
def attributeOf (object : Value) (attr : String) : Act Value := do
  let heap := (← get).heap
  let object := heap.opened object
  let found := match object with
    | .object _ id => (heap.attrs id).lookup attr
    | .engine v => v.attribute? attr
    | _ => none
  match found with
  | some v => return v
  | none => throw (.host (.noAttribute
      ("'" ++ object.typeName ++ "' object has no attribute '" ++ attr ++ "'")))

/-- Makes the class of a type ready, once within an insertion. -/
def prepare (h : Hint) : Inserting ClassSchema := do
  let schema ← schemaOf h
  if (← get).prepared.any h.same then return schema
  if (← read).config.autoSynthesize then discard (synthesize h)
  verify schema
  modify fun s ↦ { s with prepared := h :: s.prepared }
  return schema

/-- A name that the engine has not used yet. -/
def freshName : Act String := do
  match ← eval .freshName with
  | .symbol name => return name
  | v => throw (.unsupported (.generatedName v.kind?))

/-- The cell that tells an object apart from equal ones. -/
def Value.cell? : Value → Option Nat
  | .object _ id | .held id => some id
  | _ => Option.none

/-- The name that an object was given. -/
def nameGiven (object : Value) : Inserting (Option (Except Error String)) := do
  let names := (← get).names
  return object.cell?.bind fun id ↦ names.lookup id

/-- Gives a name to an object. -/
def giveName (object : Value) (name : Except Error String) : Inserting Unit :=
  match object.cell? with
  | some id => modify fun s ↦ { s with names := (id, name) :: s.names }
  | none => return ()

/-- Why an object is refused that another one refers to and that is of no struct type: the name of
its class is looked at first. -/
def Value.unfit (table : TypeTable) (object : Value) : Unsupported :=
  match table.className (.struct object.typeName) with
  | .ok name =>
    if Text.SafeSymbol.accepts name then .notAStruct (Text.shown object.typeName)
      else .className name
  | .error _ => .notAStruct (Text.shown object.typeName)

section

variable (insertNested : Value → Inserting String)

/-- The value of a slot that refers to an object. -/
def referenceTo (slot : SlotSchema) (expected : Hint) (object : Value) : Inserting EngineValue := do
  match (← getThe State).heap.opened object with
  | .none => return .nil
  | opened => do
    if !opened.isOfType (← read).types expected then
      throw (.mismatch (.structExpected slot.name expected.shortName opened.typeName))
    match ← nameGiven object with
    | some name => return .instanceName (← ofExcept name)
    | none => return .instanceName (← insertNested object)

/-- The value of a slot for the value of its field. -/
def slotValue (slot : SlotSchema) (v : Value) : Inserting EngineValue := do
  let heap := (← getThe State).heap
  match slot.reference with
  | none =>
    match slot.multi, heap.content v with
    | true, .none => return .multifield []
    | _, v => ofExcept (slot.hint.encode v)
  | some (expected, className) =>
    match slot.multi, heap.opened v with
    | true, .none => return .multifield []
    | true, .list items | true, .tuple items => do
      return .multifield (← items.mapM (referenceTo insertNested slot expected))
    | true, _ => throw (.mismatch (.sequenceExpected slot.name className))
    | false, _ => referenceTo insertNested slot expected v

/-- The slots of an instance with their values, in the order of the schema. -/
def overrides (object : Value) : List SlotSchema → Inserting (List (String × Term))
  | [] => return []
  | slot :: rest => do
    let v ← slotValue insertNested slot (← attributeOf object slot.attr)
    let t ← ofExcept v.term
    let others ← overrides object rest
    return (slot.name, t) :: others

end

/-- Inserts an object under a name, or under a fresh one where the absent value is given, with at
most the given number of insertions begun one inside the other. A value that is no name is refused
when the instance is made. -/
def insertWithin : Nat → Value → Hint → Value → Inserting InstanceHandle
  | 0, _, _, _ => throw (.host .recursion)
  | depth + 1, object, type, name => do
    let schema ← prepare type
    let name ← match name with
      | .none => Except.ok <$> freshName
      | v => pure v.matchable
    giveName object name
    let nested (v : Value) : Inserting String := do
      let opened := (← getThe State).heap.opened v
      let types := (← read).types
      match opened.structType? types with
      | some h => return (← insertWithin depth v h .none).name
      | none => throw (.unsupported (opened.unfit types))
    let slots ← overrides nested object schema.slots
    createInstance (.makeInstance (some (← ofExcept name)) schema.name slots)

/-- Inserts an object and everything that it refers to. -/
def insert (v name : Value) : Act InstanceHandle := do
  guardMutation "insert"
  let heap := (← get).heap
  let opened := heap.opened v
  match opened.structType? (← read).types with
  | none => throw (.unsupported (.insertion opened.typeName))
  | some h => (insertWithin callLimit v h (heap.content name)).run' {}

end RuleMarshal
