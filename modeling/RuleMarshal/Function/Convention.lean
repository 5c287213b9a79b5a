import RuleMarshal.Convert.Decode
import RuleMarshal.Convert.Encode
import RuleMarshal.Function.Signature
import RuleMarshal.Host.Shown
/-!
How a call of a host function is adapted. All arguments are converted before anything is called.
A returned tuple stands for several values; where its last element is declared as an error, that
element is an error signal and no value.
-/

set_option autoImplicit false
set_option relaxedAutoImplicit false

namespace RuleMarshal.Signature

section

variable {m : Type → Type} [Monad m] [MonadExcept Error m]

/-- The host values of the arguments from a position on. -/
def coerceFrom (s : Signature) (resolve : Option (EngineValue → Hint → m Value)) :
    Nat → List EngineValue → m (List Value)
  | _, [] => return []
  | position, v :: rest => do
    let first ← tryCatch ((s.hintAt position).decode resolve v) fun e ↦
      if e.isOwn then throw (.call (.argument s.name position v.kind? e) (some s.name))
      else throw e
    let others ← coerceFrom s resolve (position + 1) rest
    return first :: others

/-- The host values of the arguments of a call. -/
def coerce (s : Signature) (resolve : Option (EngineValue → Hint → m Value))
    (args : List EngineValue) : m (List Value) :=
  if s.accepts args.length then coerceFrom s resolve 0 args
  else throw (.call
    (.arity s.name s.required s.params.length s.variadic.isSome args.length) (some s.name))

end

/-- The values that a function hands to the engine by what it returned. -/
def returnedValues (s : Signature) (table : TypeTable) (heap : Heap) (returned : Value) :
    Except Error (List Value) :=
  match returned with
  | .exception .. => failed returned
  | .none => .ok []
  | .tuple items =>
    if s.errorTerminal then
      match items.getLast? with
      | none => .error (.call (.noErrorSlot s.name) (some s.name))
      | some .none => .ok items.dropLast
      | some error => failed error
    else .ok items
  | v => .ok [v]
where
  failed (v : Value) : Except Error (List Value) := do
    throw (.call (.reported s.name (← v.written table heap)) (some s.name))

/-- The engine value of returned values under their declared types. -/
def encodeReturned (s : Signature) (heap : Heap) (values : List Value) :
    Except Error EngineValue :=
  match values with
  | [] => .ok .nil
  | [v] => ((s.returnHints 1).head?.getD .any).encode (heap.content v)
  | vs => do
    let typed := vs.zip (s.returnHints vs.length)
    return .multifield (← typed.mapM fun p ↦ p.2.encode (heap.content p.1))

/-- The engine value that a function answers with by what it returned. -/
def result (s : Signature) (table : TypeTable) (heap : Heap) (returned : Value) :
    Except Error EngineValue := do
  let values ← s.returnedValues table heap returned
  match s.encodeReturned heap values with
  | .ok v => return v
  | .error e =>
    if e.isOwn then throw (.call (.result s.name e) (some s.name)) else throw e

end RuleMarshal.Signature
