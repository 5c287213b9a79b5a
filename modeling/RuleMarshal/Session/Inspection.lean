import RuleMarshal.Environment.Extraction
import RuleMarshal.Environment.Synthesis
import RuleMarshal.Session.Run
/-!
Looking at struct types and schemas without an engine: what a struct type shows of its fields and
what an object without values looks like, the schemas of several types from one memory, the world
in which such questions are asked, and which struct types are described from outside.
-/

set_option autoImplicit false
set_option relaxedAutoImplicit false

namespace RuleMarshal

open Act
open MonadExcept (ofExcept)

/-- A world without replies, for questions that no engine is needed for. -/
def World.idle (types : TypeTable) (tags : Tags) : World :=
  World.ofDepth types
    { bindingTag := .plain tags.binding, serializationTag := .plain tags.serialization }
    (scripted #[]) 0

/-- The answer of a computation that a program does first, without an engine. -/
def Program.ask {α : Type} (program : Program) (tags : Tags) (act : Act α) : Except Error α :=
  (act.runIn (World.idle program.types tags) program.state).1

/-- A value as it is at the end of a computation. -/
def viewed (act : Act Value) : Act View := do
  let v ← act
  return v.view (← read).types (← get).heap

/-- What a struct type shows. -/
structure ShapeReport where
  /-- The fields in order, and what each holds at first. -/
  fields : List (Field × View)
  className : String
  /-- An object whose fields hold what they hold at first. -/
  blank : View

/-- What a struct type shows of itself. -/
def inspectShape (h : Hint) : Act ShapeReport := do
  let world ← read
  let fields ← ofExcept (world.types.fields world.config.tags h)
  let shown ← fields.mapM fun f ↦ do
    return (f, ← viewed do (← ofExcept f.initial).value)
  let className ← ofExcept (world.types.className h)
  return { fields := shown, className, blank := ← viewed (blank h fields) }

/-- The outcome of a computation, which does not end the one around it. -/
def Act.outcome {α : Type} (act : Act α) : Act (Except Error α) :=
  ofRun fun world s ↦
    match act world s with
    | (answer, after) => (.ok answer, after)

/-- The schemas of types, one after the other, all remembered in one memory. -/
def schemasOf (hints : List Hint) : Act (List (Except Error ClassSchema)) :=
  hints.mapM fun h ↦ Act.outcome (schemaOf h)

/-- What is registered to describe struct types from outside: a description of the type of a name,
or a value that describes none. -/
inductive Descriptor where
  | ofType (name : String)
  | other (v : Value)

namespace TypeTable

/-- The struct types where one of them is of another family. -/
def withKind (table : TypeTable) (name : String) (kind : StructKind) : TypeTable :=
  { types := table.types.map fun t ↦ if t.name = name then { t with kind } else t }

/-- The struct types with one of them described from outside. What describes none is refused. -/
def describe (table : TypeTable) : Descriptor → Except Error TypeTable
  | .ofType name => .ok (table.withKind name .described)
  | .other _ => .error (.unsupported .notAShape)

/-- The struct types without the description of one of them. -/
def undescribe (table : TypeTable) (name : String) : TypeTable := table.withKind name .plain

/-- A type of another family is found under its name. -/
theorem find?_withKind {table : TypeTable} {name : String} {kind : StructKind} {t : StructType}
    (hfound : table.find? name = some t) :
    (table.withKind name kind).find? name = some { t with kind } := by
  have hname : t.name = name := by simpa using List.find?_some hfound
  unfold find? withKind at *
  rw [List.find?_map]
  have hsame : ((fun t : StructType ↦ decide (t.name = name)) ∘
      fun t ↦ if t.name = name then { t with kind } else t) = fun t ↦ decide (t.name = name) := by
    funext other
    dsimp only [Function.comp]
    split <;> rfl
  rw [hsame, hfound, Option.map_some, if_pos hname]

/-- A type that is declared is a struct type once it is described. -/
theorem isStruct_describe {table described : TypeTable} {name : String} {t : StructType}
    (hfound : table.find? name = some t)
    (hdescribed : table.describe (.ofType name) = .ok described) :
    described.isStruct (.struct name) = true := by
  cases hdescribed
  have hnow : (table.withKind name .described).find? name = some { t with kind := .described } :=
    find?_withKind hfound
  have hlineage : ∃ bases, (table.withKind name .described).lineage { t with kind := .described } =
      { t with kind := .described } :: bases := by
    obtain ⟨steps, hsteps⟩ : ∃ steps, (table.withKind name .described).types.length = steps + 1 :=
      Nat.exists_eq_succ_of_ne_zero fun hnone ↦ by
        rw [find?, List.length_eq_zero_iff.mp hnone] at hnow
        cases hnow
    rw [lineage, hsteps]
    exact ⟨_, rfl⟩
  obtain ⟨bases, hlineage⟩ := hlineage
  simp [isStruct, hnow, kindOf, hlineage]

/-- The first struct type that is described from outside. -/
def firstDescribed? (table : TypeTable) : Option String :=
  (table.types.find? fun t ↦ t.kind = .described).map (·.name)

end TypeTable

end RuleMarshal
