import RuleMarshal.Host.Heap
import RuleMarshal.Shape.Basic
/-!
Views: host values as they are at one moment, cut loose from the heap. Objects are numbered in the
order in which a walk from left to right meets them first; one that is met again is referred to by
its number, so that the view of a cyclic value is a finite tree.
-/

set_option autoImplicit false
set_option relaxedAutoImplicit false

namespace RuleMarshal

/-- A value as it is at one moment. A plain view is of a value that holds no others; of a pending
fact the template is seen. -/
inductive View where
  | plain (v : Value)
  | list (items : List View)
  | tuple (items : List View)
  | mapping (entries : List (View × View))
  | object (struct : String) (number : Nat) (fields : List (String × Option View))
  | again (number : Nat)
  | pending (template : String)

instance : Inhabited View := ⟨.plain .none⟩

/-- The fields that an object shows, in order, absent where they were never set. Objects of types
that are not declared as struct types show none. -/
def TypeTable.fieldValues? (table : TypeTable) (struct : String) (attrs : List (String × Value)) :
    Option (List (String × Option Value)) :=
  match table.find? struct with
  | some t =>
    if table.kindOf t = .plain then none
    else some ((table.declaredFields t).map fun f ↦ (f.attr, attrs.lookup f.attr))
  | none => none

mutual

/-- The view of a value, at most the given number of cells deep, with the objects met so far in
the order in which they were met. -/
def Value.viewWithin (table : TypeTable) (heap : Heap) (depth : Nat) :
    Value → StateM (List Nat) View
  | .list items => do return .list (← viewEach table heap depth items)
  | .tuple items => do return .tuple (← viewEach table heap depth items)
  | .held id =>
    match depth with
    | 0 => return .plain .none
    | depth + 1 => (heap.heldIn id).viewWithin table heap depth
  | .mapping id =>
    match depth with
    | 0 => return .plain (.mapping id)
    | depth + 1 => do return .mapping (← viewEntries table heap depth (heap.entries id))
  | .object struct id => do
    let met ← get
    match met.idxOf? id with
    | some number => return .again number
    | none =>
      match depth, table.fieldValues? struct (heap.attrs id) with
      | depth + 1, some fields =>
        set (met ++ [id])
        return .object struct met.length (← viewFields table heap depth fields)
      | _, _ =>
        let asEngine := (ValueKind.ofTypeName? struct).bind fun kind ↦
          EngineValue.ofAttributes? kind (heap.attrs id)
        return .plain ((asEngine.map .engine).getD (.object struct id))
  | .builder id =>
    return match heap.builder? id with
      | some b => .pending b.template.name
      | none => .plain (.builder id)
  | v => return .plain v
termination_by v => (depth, sizeOf v)

/-- The views of the values of a list. -/
def viewEach (table : TypeTable) (heap : Heap) (depth : Nat) :
    List Value → StateM (List Nat) (List View)
  | [] => return []
  | v :: rest => do
    let first ← v.viewWithin table heap depth
    let others ← viewEach table heap depth rest
    return first :: others
termination_by vs => (depth, sizeOf vs)

/-- The views of the entries of a mapping. -/
def viewEntries (table : TypeTable) (heap : Heap) (depth : Nat) :
    List (Value × Value) → StateM (List Nat) (List (View × View))
  | [] => return []
  | (k, v) :: rest => do
    let key ← k.viewWithin table heap depth
    let value ← v.viewWithin table heap depth
    let others ← viewEntries table heap depth rest
    return (key, value) :: others
termination_by es => (depth, sizeOf es)

/-- The views of the fields of an object. -/
def viewFields (table : TypeTable) (heap : Heap) (depth : Nat) :
    List (String × Option Value) → StateM (List Nat) (List (String × Option View))
  | [] => return []
  | (name, none) :: rest => do
    let others ← viewFields table heap depth rest
    return (name, none) :: others
  | (name, some v) :: rest => do
    let first ← v.viewWithin table heap depth
    let others ← viewFields table heap depth rest
    return (name, some first) :: others
termination_by fs => (depth, sizeOf fs)

end

/-- The view of a value. A way that meets no cell twice is no longer than the heap. -/
def Value.view (table : TypeTable) (heap : Heap) (v : Value) : View :=
  (v.viewWithin table heap heap.cells.size []).1

end RuleMarshal
