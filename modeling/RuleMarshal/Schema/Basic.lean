import RuleMarshal.Hint.Basic
/-!
Schemas: what the engine is told about a struct type. A class schema lists slots in order; a slot
holds one value or several, of one kind, and a slot that refers to objects names their class.
-/

set_option autoImplicit false
set_option relaxedAutoImplicit false

namespace RuleMarshal

/-- What a slot holds. -/
inductive SlotKind where
  | integer | float | string | symbol | instanceName | boolean | any | classReference
  deriving DecidableEq, Repr

/-- The word for what a slot holds. -/
def SlotKind.word : SlotKind → String
  | .integer => "INTEGER"
  | .float => "FLOAT"
  | .string => "STRING"
  | .symbol => "SYMBOL"
  | .instanceName => "INSTANCE-NAME"
  | .boolean => "BOOLEAN"
  | .any => "ANY"
  | .classReference => "CLASS-REFERENCE"

/-- A slot of a class. -/
structure SlotSchema where
  /-- The engine's name of the slot. -/
  name : String
  /-- The attribute that the slot is read from and written to. -/
  attr : String
  kind : SlotKind
  /-- Whether the slot holds any number of values. -/
  multi : Bool
  /-- Whether a value may be absent. -/
  optional : Bool
  /-- The declared type of the field. -/
  hint : Hint
  /-- The struct type that the slot refers to, and the engine's name for its class. -/
  reference : Option (Hint × String)

/-- The slots of a class in order. -/
structure ClassSchema where
  name : String
  hostType : Hint
  slots : List SlotSchema

namespace ClassSchema

/-- The slot of a name. -/
def slot? (schema : ClassSchema) (name : String) : Option SlotSchema :=
  schema.slots.find? (·.name = name)

/-- The struct types that the slots refer to, each once, in order. -/
def references (schema : ClassSchema) : List Hint :=
  Hint.distinct (schema.slots.filterMap fun s ↦ s.reference.map (·.1))

end ClassSchema

end RuleMarshal
