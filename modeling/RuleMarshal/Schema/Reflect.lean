import RuleMarshal.Schema.Basic
import RuleMarshal.Shape.Basic
import RuleMarshal.Text.SafeSymbol
/-!
Reflection: the schema of a struct type. A schema is built from the fields of its type alone;
reflecting a type also reflects the types that its schema refers to. What has been reflected is
remembered, and a type whose reflection fails is forgotten again, while the types that it
reached before stay remembered.
-/

set_option autoImplicit false
set_option relaxedAutoImplicit false

namespace RuleMarshal

/-! ### One slot, one schema -/

/-- What a slot for values of a hint holds, and the struct type that it refers to. -/
def slotKind? (table : TypeTable) : Hint → Option (SlotKind × Option Hint)
  | .any | .anyObject | .none => some (.any, none)
  | .bool => some (.boolean, none)
  | .symbol => some (.symbol, none)
  | .instanceName => some (.instanceName, none)
  | .int _ => some (.integer, none)
  | .float => some (.float, none)
  | .text => some (.string, none)
  | h =>
    if table.isStruct h then some (.classReference, some h)
    else if h.isUnion then some (.any, none)
    else none

/-- The slot of a field. -/
def reflectField (table : TypeTable) (owner : String) (f : Field) : Except Error SlotSchema := do
  let name := f.engineName
  if !Text.SafeSymbol.accepts name || name = "is-a" || name = "name" then
    throw (.unsupported (.slotName owner f.attr name))
  let (hint, optional) := f.hint.unwrapOptional
  let (hint, optional, multi) ←
    match hint.items with
    | .ofOwnTypes => throw hint.itemsRefused
    | .none => pure (hint, optional, false)
    | .each _ item =>
      let (inner, optional) := item.unwrapOptional
      match inner.items with
      | .none => pure (inner, optional, true)
      | .each .. => throw (.unsupported (.nestedSequence owner f.attr))
      | .ofOwnTypes => throw inner.itemsRefused
  match slotKind? table hint with
  | none => throw (.unsupported (.noSlotKind owner f.attr hint))
  | some (kind, referred) =>
    let reference ← referred.mapM fun h ↦ do return (h, ← table.className h)
    return { name, attr := f.attr, kind, multi, optional, hint := f.hint, reference }

/-- The slots of fields; no two of them may have one name. -/
def reflectFields (table : TypeTable) (owner : String) :
    List Field → List SlotSchema → Except Error (List SlotSchema)
  | [], slots => .ok slots
  | f :: rest, slots => do
    let slot ← reflectField table owner f
    if slots.any (·.name = slot.name) then throw (.unsupported (.slotTwice owner slot.name))
    reflectFields table owner rest (slots ++ [slot])

/-- The schema of a struct type, from its fields alone. -/
def buildSchema (table : TypeTable) (tags : Tags) (h : Hint) : Except Error ClassSchema := do
  let name ← table.className h
  if !Text.SafeSymbol.accepts name then throw (.unsupported (.className name))
  let fields ← table.fields tags h
  let slots ← reflectFields table h.shortName fields []
  return { name, hostType := h, slots }

/-! ### Reflection with a memory -/

/-- What has been reflected, and the types that are being reflected. -/
structure Memo where
  schemas : List (Hint × ClassSchema) := []
  inProgress : List Hint := []

namespace Memo

/-- The schema that is remembered for a type. -/
def find? (memo : Memo) (h : Hint) : Option ClassSchema :=
  (memo.schemas.find? fun p ↦ p.1.same h).map (·.2)

/-- Whether a type is being reflected. -/
def isInProgress (memo : Memo) (h : Hint) : Bool := memo.inProgress.any h.same

/-- Remembers the schema of a type. -/
def remember (memo : Memo) (h : Hint) (schema : ClassSchema) : Memo :=
  { memo with schemas := (h, schema) :: memo.schemas }

/-- Forgets the schema of a type. -/
def forget (memo : Memo) (h : Hint) : Memo :=
  { memo with schemas := memo.schemas.filter fun p ↦ !p.1.same h }

/-- Marks a type as being reflected. -/
def start (memo : Memo) (h : Hint) : Memo := { memo with inProgress := h :: memo.inProgress }

/-- Takes the mark off a type. -/
def finish (memo : Memo) (h : Hint) : Memo :=
  { memo with inProgress := memo.inProgress.filter fun g ↦ !g.same h }

end Memo

/-- A computation that changes what is remembered, also when it fails. -/
abbrev Reflecting (α : Type) := ExceptT Error (StateM Memo) α

/-- The schema of a type, with at most the given number of types being reflected one inside the
other. -/
def reflectWithin (table : TypeTable) (tags : Tags) : Nat → Hint → Reflecting ClassSchema
  | 0, _ => throw (.host .recursion)
  | depth + 1, h => do
    match (← get).find? h with
    | some schema => return schema
    | none =>
      if (← get).isInProgress h then throw (.unsupported (.reflectionInProgress h.shortName))
      modify (·.start h)
      tryCatch
        (do
          let schema ← show Reflecting ClassSchema from
            match buildSchema table tags h with
            | .ok schema => pure schema
            | .error e => throw e
          modify (·.remember h schema)
          schema.references.forM fun nested ↦ do
            let memo ← get
            if (memo.find? nested).isNone && !memo.isInProgress nested then
              discard (reflectWithin table tags depth nested)
          modify (·.finish h)
          return schema)
        fun e ↦ do
          modify fun memo ↦ (memo.forget h).finish h
          throw e

/-- The schema of a type. Types being reflected one inside the other are distinct, so their
number is bounded by that of all struct types. -/
def reflect (table : TypeTable) (tags : Tags) (h : Hint) : Reflecting ClassSchema :=
  reflectWithin table tags (table.types.length + 11) h

end RuleMarshal
