import RuleMarshal.Handle.Template
/-!
Pending facts. A builder collects values by position or by slot, as its template has it, until it
publishes them as one fact; after that it cannot be edited.
-/

set_option autoImplicit false
set_option relaxedAutoImplicit false

namespace RuleMarshal

open MonadExcept (ofExcept)

open Act

namespace Builder

/-- A pending fact of a template, without values. -/
def ofTemplate (h : TemplateHandle) : Act Nat := do
  h.check
  let ordered ← h.isOrdered
  alloc (.builder { template := h, ordered })

/-- Whether values may be given to a builder by position, or by slot. -/
def editable (b : Builder) (ordered : Bool) : Except Error Unit :=
  if b.asserted.isSome then .error (.stale .assertedEdited)
  else if ordered ≠ b.ordered then
    .error (.mismatch (.wrongFactKind b.template.name b.ordered))
  else .ok ()

/-- Another value at a position, counted from the end if it is negative. -/
def putAt (b : Builder) (position : Int) (v : EngineValue) : Except Error Builder :=
  let i := if position < 0 then position + b.values.length else position
  if 0 ≤ i ∧ i < b.values.length then
    .ok { b with values := b.values.set i.toNat v }
  else .error (.host (.index "list assignment index out of range"))

/-- The content of a builder with its texts. -/
def content (b : Builder) : Except Error FactContent :=
  if b.ordered then do return .ordered (← b.values.mapM EngineValue.term)
  else do
    return .slots (← b.slots.mapM fun p ↦ do return (p.1, ← p.2.term))

/-- The order to assert what a builder holds. -/
def expression (b : Builder) : Except Error Expression := do
  return .assertFact b.template.name (← b.content)

/-! ### Builders in the heap -/

/-- The builder in a cell. -/
def read (id : Nat) : Act Builder := do
  match (← get).heap.builder? id with
  | some b => return b
  | none => throw (.host (.typing "not a pending fact"))

/-- Another content for the builder in a cell. -/
def write (id : Nat) (b : Builder) : Act Unit := put id (.builder b)

/-- Adds a value behind the others. -/
def append (id : Nat) (v : Value) : Act Unit := do
  ofExcept ((← read id).editable true)
  let value ← encode v
  let b ← read id
  write id { b with values := b.values ++ [value] }

/-- Adds values one after the other; those in front of one that is refused stay. -/
def extend (id : Nat) (values : Value) : Act Unit := do
  ofExcept ((← read id).editable true)
  let items ← ofExcept (values.iterated (← get).heap)
  items.forM fun v ↦ do
    let value ← encode v
    let b ← read id
    write id { b with values := b.values ++ [value] }

/-- Another value at a position or for a slot. -/
def set (id : Nat) (key v : Value) : Act Unit := do
  let b ← read id
  if b.ordered then
    ofExcept (b.editable true)
    match key.integer? with
    | none => throw (.mismatch .orderedByPosition)
    | some position =>
      let value ← encode v
      write id (← ofExcept ((← read id).putAt position value))
  else
    ofExcept (b.editable false)
    let value ← encode v
    let slot ← symbol .slot (.text (← written key))
    let b ← read id
    write id { b with slots := putNamed b.slots slot value }

/-- Other values for slots, one after the other. -/
def update (id : Nat) (slots : List (String × Value)) : Act Unit :=
  slots.forM fun p ↦ set id (.text p.1) p.2

/-- The text of the order to assert what a builder holds. -/
def render (id : Nat) : Act String := do
  return (← ofExcept (← read id).expression).text

/-- Publishes what a builder holds as a fact, once. -/
def assertFact (id : Nat) : Act FactHandle := do
  let b ← read id
  if b.asserted.isSome then throw (.stale .asserted)
  b.template.check
  let fact ← assertCommand (← ofExcept (← read id).expression)
  let b ← read id
  write id { b with asserted := some fact }
  return fact

end Builder

end RuleMarshal
