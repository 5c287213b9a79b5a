import RuleMarshal.Host.Read
/-!
Declaring the struct types of a host program. Types are declared one after the other, and the
defaults of a type's fields are read when it is declared, while only the types before it exist. A
default is read once for all objects: one with an identity of its own is a single thing that the
objects share.
-/

set_option autoImplicit false
set_option relaxedAutoImplicit false

namespace RuleMarshal

open Act

/-- A field with its default read, if it has one. -/
def FieldDeclaration.settled (f : FieldDeclaration) : Act FieldDeclaration := do
  match f.written with
  | some written => return { f with default := some (← hold (← written.read)) }
  | none => return f

namespace TypeTable

/-- Declares types behind those that are declared already. -/
def declareEach : List StructType → List StructType → Act TypeTable
  | done, [] => return ⟨done⟩
  | done, t :: rest => do
    let before : TypeTable := ⟨done⟩
    let fields ← withReader (fun world ↦ { world with types := before })
      (t.fields.mapM FieldDeclaration.settled)
    let t := { t with fields }
    let table : TypeTable := ⟨done ++ t :: rest⟩
    if let some fault := table.refusal? t then throw (.host fault)
    declareEach (done ++ [t]) rest

/-- The table of some types, declared in their order. -/
def declare (types : List StructType) : Act TypeTable := declareEach [] types

end TypeTable

end RuleMarshal
