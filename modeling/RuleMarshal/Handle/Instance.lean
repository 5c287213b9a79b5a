import RuleMarshal.Handle.Basic
/-!
What can be asked of an instance and done to it. Every operation first makes sure that the handle
is current and that the engine still knows the instance.
-/

set_option autoImplicit false
set_option relaxedAutoImplicit false

namespace RuleMarshal.InstanceHandle

open Act

/-- Whether the instance exists. The engine is asked only if the handle is current. -/
def isAlive (h : InstanceHandle) : Act Bool := do
  if h.isCurrent (← get) then evalTrue (.instanceExists h.name) else return false

/-- Refuses to go on with an instance that does not exist. -/
def check (h : InstanceHandle) : Act Unit := do
  if !(← h.isAlive) then throw (.stale (.instanceGone h.name))

/-- The class of the instance. -/
def instanceClass (h : InstanceHandle) : Act ClassHandle := do
  h.check
  classHandle (.text (← content (← eval (.classOf h.name))))

/-- The names of the slots, inherited ones too. -/
def slotNames (h : InstanceHandle) : Act (List String) := do
  h.check
  let className ← content (← eval (.classOf h.name))
  return (← eval (.classSlots className)).lexemes

/-- The value of a slot. -/
def slot (h : InstanceHandle) (name : Value) : Act EngineValue := do
  h.check
  eval (.readSlot h.name (← symbol .slot name))

/-- The values of all slots by name. -/
def slots (h : InstanceHandle) : Act (List (String × EngineValue)) := do
  (← h.slotNames).foldlM (fun read name ↦ do
    return putNamed read name (← h.slot (.text name))) []

/-- Another value for a slot. -/
def setSlot (h : InstanceHandle) (name v : Value) : Act Unit := do
  h.check
  guardMutation "set_slot"
  let slot ← symbol .slot name
  discard (eval (.writeSlot h.name slot (← term v)))

/-- The answer to a message. -/
def send (h : InstanceHandle) (message : Value) (args : List Value) : Act EngineValue := do
  h.check
  let terms ← args.mapM term
  eval (.send h.name (← symbol .message message) terms)

/-- Asks the instance to delete itself. -/
def delete (h : InstanceHandle) : Act Unit := do
  h.check
  guardMutation "delete"
  if !(← evalTrue (.deleteInstance h.name)) then
    throw (.construction (.deletion h.name) none "")

/-- Removes the instance without asking it. -/
def unmake (h : InstanceHandle) : Act Unit := do
  h.check
  guardMutation "unmake"
  if !(← evalTrue (.unmakeInstance h.name)) then
    throw (.construction (.unmaking h.name) none "")

end RuleMarshal.InstanceHandle
