import RuleMarshal.Annotation.Syntax
import RuleMarshal.Hint.Name
import RuleMarshal.Host.Fault
/-!
Unions as they are written. A word takes any members, and texts among them become references, which
have to be readable. Bars stand between types alone; the absent value may be one side of a bar but
not both. Unions of the same members by a word are one type wherever they are written, and so are
the mappings in them.
-/

set_option autoImplicit false
set_option relaxedAutoImplicit false

namespace RuleMarshal

/-- The term of a text that stands for a type; a text that is empty, or no expression, is
refused. -/
def readReference (written : String) : Except HostFault Annotation.Term :=
  if written.isEmpty then .error (.index "string index out of range")
  else
    match Annotation.read? written with
    | some t => .ok t
    | none =>
      .error (.expression ("Forward reference must be an expression -- got " ++ Text.shown written))

namespace Hint

/-- Hints with their mappings in places of the union by a word of some members. -/
def sharePlaces (members hints : List Hint) : List Hint :=
  let text := ", ".intercalate (innerEach members)
  hints.map fun h ↦ h.mapPlaces (fun way _ ↦ .inUnion (text ++ ": " ++ h.inner) way) 1

/-- The union of some hints: flat, without repetitions, and a single member stands for itself.
A union spelled by a word makes the whole one that is spelled by a word. -/
def unionOf (spelling : UnionSpelling) (hints : List Hint) : Hint :=
  let spelling := if hints.any isByWord then .word else spelling
  match distinct (hints.flatMap unionMembers) with
  | [h] => h
  | members =>
    let others := members.filter fun m ↦ !m.isNoneType
    if members.any isNoneType && 1 < others.length then
      .union spelling (sharePlaces others members)
    else if spelling = .word then
      .union .word (distinct ((sharePlaces hints hints).flatMap unionMembers))
    else .union spelling members
where
  isByWord : Hint → Bool
    | .union .word _ => true
    | _ => false

/-- A hint as a member of a union that is written by a word. -/
def wordMember : Hint → Except HostFault Hint
  | .forward written => do
    discard (readReference written)
    return .reference written
  | h => .ok h

/-- The union of some hints by a word. -/
def wordUnion (hints : List Hint) : Except HostFault Hint := do
  if hints.isEmpty then throw (.typing "Cannot take a Union of no types.")
  return unionOf .word (← hints.mapM wordMember)

/-- Whether a hint makes every union with it one that is written by a word. -/
def isWordy : Hint → Bool
  | .union .word _ | .reference _ => true
  | _ => false

/-- What the type of a hint beside a bar is called. -/
def operandName : Hint → String
  | .none => "NoneType"
  | .any => "_AnyMeta"
  | .forward _ => "str"
  | .datum d => d.typeName
  | .atom _ => "type"
  | .union .bar _ => "types.UnionType"
  | .union .word _ => "_UnionGenericAlias"
  | _ => "types.GenericAlias"

/-- Whether a hint can stand beside a bar. -/
def fitsBar : Hint → Bool
  | .forward _ | .datum _ => false
  | _ => true

/-- The refusal of two operands that an operator does not take. -/
def operandsRefused (operator left right : String) : HostFault :=
  .typing ("unsupported operand type(s) for " ++ operator ++ ": '" ++ left ++ "' and '" ++ right ++
    "'")

/-- The union of two hints with a bar between them. -/
def bar (a b : Hint) : Except HostFault Hint :=
  if a.isWordy || b.isWordy then wordUnion [a, b]
  else if a.fitsBar && b.fitsBar && !(a.isAbsence && b.isAbsence) then .ok (unionOf .bar [a, b])
  else .error (operandsRefused "|" a.operandName b.operandName)

/-- The union of some hints with bars between them; a single one stands for itself. -/
def bars : List Hint → Except HostFault Hint
  | [] => .error (.typing "reduce() of empty iterable with no initial value")
  | h :: rest => rest.foldlM bar h

end Hint

end RuleMarshal
