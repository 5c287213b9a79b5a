import RuleMarshal.Schema.Basic
/-!
Class definitions for the engine. A slot states the types that it takes and, where it refers to
objects, the class that they have to be of; a slot that may be absent also takes the symbol of
absence and has it as its default.
-/

set_option autoImplicit false
set_option relaxedAutoImplicit false

namespace RuleMarshal

namespace SlotSchema

/-- Whether the values of a slot may be the symbol of absence. -/
def nullable (slot : SlotSchema) : Bool :=
  slot.optional || (slot.kind = .classReference && !slot.multi)

/-- The facets that say what a slot takes. -/
def typeFacets (slot : SlotSchema) (constrainClass : Bool) : List String :=
  match slot.kind with
  | .classReference =>
    (if slot.nullable then ["(type INSTANCE-NAME SYMBOL)", "(allowed-symbols nil)"]
      else ["(type INSTANCE-NAME)"]) ++
    match slot.reference with
    | some (_, name) =>
      if constrainClass && !name.isEmpty then ["(allowed-classes " ++ name ++ ")"] else []
    | none => []
  | .boolean =>
    ["(type SYMBOL)",
      if slot.nullable then "(allowed-symbols TRUE FALSE nil)"
      else "(allowed-symbols TRUE FALSE)"] ++
    if !slot.multi && !slot.nullable then ["(default FALSE)"] else []
  | .symbol => ["(type SYMBOL)"]
  | .any => []
  | kind =>
    if slot.nullable then ["(type " ++ kind.word ++ " SYMBOL)", "(allowed-symbols nil)"]
    else ["(type " ++ kind.word ++ ")"]

/-- All facets of a slot in order. -/
def facets (slot : SlotSchema) (constrainClass : Bool) : List String :=
  slot.typeFacets constrainClass ++
    (if slot.nullable && !slot.multi then ["(default nil)"] else []) ++
    ["(create-accessor read-write)"]

/-- The definition of a slot. -/
def render (slot : SlotSchema) (constrainClass : Bool := true) : String :=
  "(" ++ (if slot.multi then "multislot" else "slot") ++ " " ++ slot.name ++ " " ++
    " ".intercalate (slot.facets constrainClass) ++ ")"

/-- Whether a slot names the class that it refers to, given the classes not yet defined. -/
def constrained (slot : SlotSchema) (pending : List String) : Bool :=
  match slot.reference with
  | some (_, name) => !pending.contains name
  | none => true

end SlotSchema

/-- The definition of a class. Slots that refer to a class not yet defined do not name it. -/
def ClassSchema.render (schema : ClassSchema) (superclass patternMatch : String)
    (pending : List String) : String :=
  "\n".intercalate
    (["(defclass " ++ schema.name, "  (is-a " ++ superclass ++ ")", "  (role concrete)",
        "  (pattern-match " ++ patternMatch ++ ")"] ++
      schema.slots.map fun slot ↦ "  " ++ slot.render (slot.constrained pending)) ++ ")"

end RuleMarshal
