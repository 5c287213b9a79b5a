import RuleMarshal.Handle.Basic
/-!
What can be asked of a class and of its slots, and how instances of it are made.
-/

set_option autoImplicit false
set_option relaxedAutoImplicit false

namespace RuleMarshal

open Act
open MonadExcept (ofExcept)

/-- Whether the facets that the engine lists for a slot begin as those of a slot with any number
of values. -/
def listsMulti (facets : List String) : Bool := facets.head? = some "MLT"

namespace ClassHandle

/-- Whether the class exists. The engine is asked only if the handle is current. -/
def isAlive (h : ClassHandle) : Act Bool := do
  if h.isCurrent (← get) then evalTrue (.classQuery .isDefined h.name) else return false

/-- Refuses to go on with a class that does not exist. -/
def check (h : ClassHandle) : Act Unit := do
  if !(← h.isAlive) then throw (.stale (.classGone h.name))

/-- Whether the class has no direct instances. -/
def isAbstract (h : ClassHandle) : Act Bool := do
  h.check
  evalTrue (.classQuery .isAbstract h.name)

/-- Whether instances of the class take part in pattern matching. -/
def isReactive (h : ClassHandle) : Act Bool := do
  h.check
  evalTrue (.classQuery .isReactive h.name)

/-- The classes that the class inherits from directly. -/
def superclasses (h : ClassHandle) : Act (List ClassHandle) := do
  h.check
  classHandles (← eval (.classQuery .superclasses h.name)).lexemes

/-- The classes that inherit from the class directly. -/
def subclasses (h : ClassHandle) : Act (List ClassHandle) := do
  h.check
  classHandles (← eval (.classQuery .subclasses h.name)).lexemes

/-- The names of the slots, inherited ones too. -/
def slots (h : ClassHandle) : Act (List String) := do
  h.check
  return (← eval (.classSlots h.name)).lexemes

/-- The instances of the class. -/
def instances (h : ClassHandle) : Act (List InstanceHandle) := do
  h.check
  instancesIn (← eval (.instancesOf h.name))

/-- A new instance, of the given name if there is one, with values for some slots. -/
def newInstance (h : ClassHandle) (name : Value) (slots : List (String × Value)) :
    Act InstanceHandle := do
  h.check
  let name ← match name with
    | .none => pure none
    | v => some <$> ofExcept v.matchable
  createInstance (.makeInstance name h.name (← slotTerms slots))

/-- Removes the class; the handles on it then refer to nothing. -/
def undefine (h : ClassHandle) : Act Unit := do
  h.check
  guardMutation "undefine"
  discard (eval (.undefine true h.name))
  if ← h.isAlive then throw (.construction (.undefinition .defclass h.name) none "")
  retire .defclass h.name

/-- A facet of a slot of the class. -/
def facet (h : ClassHandle) (slot : String) (f : ClassFacet) : Act EngineValue := do
  h.check
  eval (.classFacet f h.name slot)

/-- Whether a slot of the class holds any number of values. -/
def isMulti (h : ClassHandle) (slot : String) : Act Bool := do
  return listsMulti (← h.facet slot .all).lexemes

/-- Whether a slot of the class can be written. The class itself is not asked for first. -/
def isWritable (h : ClassHandle) (slot : String) : Act Bool :=
  evalTrue (.classFacet .isWritable h.name slot)

end ClassHandle

end RuleMarshal
