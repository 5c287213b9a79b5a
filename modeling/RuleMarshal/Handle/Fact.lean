import RuleMarshal.Handle.Basic
/-!
What can be asked of a fact and done to it. An ordered fact has a single slot, named for its
template being implied, which holds the values by position.
-/

set_option autoImplicit false
set_option relaxedAutoImplicit false

namespace RuleMarshal

open Act

/-- The name of the only slot of an ordered fact. -/
def orderedSlot : String := "implied"

namespace FactHandle

/-- Whether the fact exists. The engine is asked only if the handle is current. -/
def isAlive (h : FactHandle) : Act Bool := do
  if h.isCurrent (← get) then evalTrue (.factExists h.index) else return false

/-- Refuses to go on with a fact that does not exist. -/
def check (h : FactHandle) : Act Unit := do
  if !(← h.isAlive) then throw (.stale (.factGone h.index))

/-- The template of the fact. -/
def template (h : FactHandle) : Act TemplateHandle := do
  h.check
  templateHandle (.text (← content (← eval (.factRelation h.index))))

/-- The names of the slots. -/
def slotNames (h : FactHandle) : Act (List String) := do
  h.check
  return (← eval (.factSlotNames h.index)).lexemes

/-- Whether the fact is ordered. -/
def isOrdered (h : FactHandle) : Act Bool := do return (← h.slotNames) = [orderedSlot]

/-- The value of a slot. -/
def slot (h : FactHandle) (name : Value) : Act EngineValue := do
  h.check
  eval (.factSlot h.index (← symbol .slot name))

/-- The values of an ordered fact by position. -/
def values (h : FactHandle) : Act (List EngineValue) := do
  if !(← h.isOrdered) then throw (.mismatch (.notOrdered h.index))
  match ← h.slot (.text orderedSlot) with
  | .multifield items => return items
  | v => return [v]

/-- What a fact holds. -/
inductive Content where
  | ordered (values : List EngineValue)
  | slots (values : List (String × EngineValue))

/-- The values of all slots by name, or by position for an ordered fact. -/
def slots (h : FactHandle) : Act Content := do
  let names ← h.slotNames
  if names = [orderedSlot] then return .ordered (← h.values)
  let named ← names.foldlM (fun read name ↦ do
    return putNamed read name (← h.slot (.text name))) []
  return .slots named

/-- Removes the fact. -/
def retract (h : FactHandle) : Act Unit := do
  h.check
  guardMutation "retract"
  discard (eval (.retract h.index))

/-- The fact that takes the place of this one, with other values in some slots. -/
def modify (h : FactHandle) (changes : List (String × Value)) : Act FactHandle := do
  h.check
  guardMutation "modify"
  if ← h.isOrdered then throw (.mismatch .orderedModified)
  let terms ← slotTerms changes
  factIn (← eval (.modify h.index terms)) (.construction (.modification h.index) none "")

end FactHandle

end RuleMarshal
