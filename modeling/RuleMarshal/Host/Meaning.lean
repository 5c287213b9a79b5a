import RuleMarshal.Annotation.Meaning
import RuleMarshal.Host.Value
/-!
Literals as written types see their values, where the value of a field is used by its name. What
written types have no values for keeps the name of its type only.
-/

set_option autoImplicit false
set_option relaxedAutoImplicit false

namespace RuleMarshal

open Annotation (Meaning)

/-- A value of which only the type is known. -/
def Annotation.Meaning.ofType (typeName : String) : Meaning :=
  .hint (.datum { typeName, shown := "<" ++ typeName ++ " object>" })

/-- The name of the type of a literal's value where written types know no more of the value. -/
def Literal.opaqueType : Literal → String
  | .object struct _ _ => struct
  | .exception kind _ => kind.name
  | .external label => (Value.external label).typeName
  | .stranger kind => (Value.stranger kind).typeName
  | .function f => (Value.function f).typeName
  | _ => "object"

mutual

/-- The value of a literal as written types see it. -/
def Literal.meaning : Literal → Meaning
  | .none => .absent
  | .bool b => .truth b
  | .int _ n => .integer n
  | .float x => .float x
  | .text s | .symbol s | .instanceName s => .text s
  | .list items => .list (Literal.meaningEach items)
  | .tuple items => .tuple (Literal.meaningEach items)
  | .mapping entries => .mapping (Literal.meaningEntries entries)
  | .hint .none => .absent
  | .hint (.forward written) => .text written
  | .hint h => .hint h
  | l => .ofType l.opaqueType

/-- The values of literals as written types see them. -/
def Literal.meaningEach : List Literal → List Meaning
  | [] => []
  | v :: rest => Literal.meaning v :: Literal.meaningEach rest

/-- The values of entries as written types see them. -/
def Literal.meaningEntries : List (Literal × Literal) → List (Meaning × Meaning)
  | [] => []
  | (k, v) :: rest => (Literal.meaning k, Literal.meaning v) :: Literal.meaningEntries rest

end

end RuleMarshal
