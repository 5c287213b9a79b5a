import RuleMarshal.Environment.Channel
import RuleMarshal.Schema.Defclass
import RuleMarshal.Handle.Class
/-!
Synthesis: classes of the engine for struct types. The classes that a class refers to are defined
first; one whose definition is still under way is referred to without being named. Classes that
exist already are trusted, and can be checked for fitting a schema.
-/

set_option autoImplicit false
set_option relaxedAutoImplicit false

namespace RuleMarshal

open Act

/-- The schema of a type, remembered by the environment. -/
def schemaOf (h : Hint) : Act ClassSchema :=
  ofRun fun world s ↦
    match (reflect world.types world.config.tags h).run s.memo with
    | (answer, memo) => (answer, { s with memo })

/-- Whether the engine has a class of a name. -/
def classIsDefined (name : String) : Act Bool := Channel.isTrue (.classQuery .isDefined name)

/-- What one synthesis has done so far. -/
structure Synthesis where
  /-- The classes whose definition was begun. -/
  visiting : List String := []
  /-- The definitions that were sent, in order. -/
  emitted : List String := []

/-- A computation of a synthesis. -/
abbrev Synthesizing (α : Type) := StateT Synthesis Act α

/-- Defines the class of a schema unless it was begun or exists, with at most the given number of
definitions begun one inside the other. -/
def synthesizeWithin : Nat → ClassSchema → Synthesizing Unit
  | 0, _ => throw (.host .recursion)
  | depth + 1, schema => do
    if (← get).visiting.contains schema.name then return ()
    if ← classIsDefined schema.name then return ()
    modify fun s ↦ { s with visiting := schema.name :: s.visiting }
    let forward ← schema.references.foldlM (fun forward nested ↦ do
      let nestedSchema ← schemaOf nested
      if (← get).visiting.contains nestedSchema.name then
        return nestedSchema.name :: forward
      else
        synthesizeWithin depth nestedSchema
        return forward) []
    let config := (← read).config
    let text := schema.render config.superclass.content config.patternMatch.content forward
    Channel.build (.text text)
    modify fun s ↦ { s with emitted := s.emitted ++ [text] }

/-- Defines the class of a type and every class that it refers to; the definitions that were sent.
Classes begun one inside the other belong to different types. -/
def synthesize (h : Hint) : Act (List String) := do
  let schema ← schemaOf h
  let types := (← read).types.types.length
  let ((), done) ← (synthesizeWithin (types + 12) schema).run {}
  return done.emitted

/-- Checks that one slot of the engine's class fits the schema. -/
def verifySlot (className : String) (present : List String) (slot : SlotSchema) : Act Unit := do
  if !present.contains slot.name then throw (.mismatch (.slotMissing className slot.name))
  let facets ← Channel.names (.classFacet .all className slot.name)
  if listsMulti facets ≠ slot.multi then
    throw (.mismatch (.cardinality className slot.name slot.multi))

/-- Checks that the engine's class can hold the values of a schema. -/
def verify (schema : ClassSchema) : Act Unit := do
  if !(← classIsDefined schema.name) then throw (.mismatch (.classMissing schema.name))
  let present ← Channel.names (.classSlots schema.name)
  schema.slots.forM (verifySlot schema.name present)

end RuleMarshal
