import RuleMarshal.Handle.Fact
/-!
What can be asked of a template and of its slots. The engine does not list the templates that
ordered facts bring with them, so a template that is not listed is asked for its slots.
-/

set_option autoImplicit false
set_option relaxedAutoImplicit false

namespace RuleMarshal

open Act

namespace TemplateHandle

/-- Whether the template exists. The engine is asked only if the handle is current. -/
def isAlive (h : TemplateHandle) : Act Bool := do
  if !h.isCurrent (← get) then return false
  if ← evalTrue (.isListedTemplate h.name) then return true
  tryCatch (do return !(← eval (.templateSlots h.name)).isFalse) fun e ↦
    if e.isConstruction then return false else throw e

/-- Refuses to go on with a template that does not exist. -/
def check (h : TemplateHandle) : Act Unit := do
  if !(← h.isAlive) then throw (.stale (.templateGone h.name))

/-- The names that the engine lists for the slots. -/
def slotLexemes (h : TemplateHandle) : Act (List String) := do
  return (← eval (.templateSlots h.name)).lexemes

/-- Whether facts of the template are ordered. -/
def isOrdered (h : TemplateHandle) : Act Bool := do
  h.check
  return (← h.slotLexemes) = [orderedSlot]

/-- The names of the slots; the template of ordered facts has none. -/
def slots (h : TemplateHandle) : Act (List String) := do
  if ← h.isOrdered then return []
  h.slotLexemes

/-- The facts of the template. -/
def facts (h : TemplateHandle) : Act (List FactHandle) := do
  h.check
  (← Act.facts).filterM fun fact ↦ do return (← fact.template).name = h.name

/-- Removes the template; the handles on it then refer to nothing. -/
def undefine (h : TemplateHandle) : Act Unit := do
  h.check
  guardMutation "undefine"
  discard (eval (.undefine false h.name))
  if ← h.isAlive then throw (.construction (.undefinition .template h.name) none "")
  retire .template h.name

/-- A facet of a slot of the template. -/
def facet (h : TemplateHandle) (slot : String) (f : TemplateFacet) : Act EngineValue := do
  h.check
  eval (.templateFacet f h.name slot)

end TemplateHandle

end RuleMarshal
