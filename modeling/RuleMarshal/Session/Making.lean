import RuleMarshal.Host.Number
import RuleMarshal.Host.Read
/-!
What a call of a type makes of its arguments. Numbers are read from other values, rows are walked
over, engine values and handles are made from their parts, and objects of a struct type get their
defaults. A type without values of its own refuses every call.
-/

set_option autoImplicit false
set_option relaxedAutoImplicit false

namespace RuleMarshal

open MonadExcept (ofExcept)

/-- A complex number from at most two parts. Any such number is as good as another: the engine has
none. -/
def Value.complexOf (real imaginary : Option Value) : Except HostFault Value :=
  let isNumber (v : Value) : Bool := match v with
    | .float _ | .stranger .complex => true
    | v => v.integer?.isSome
  let isText (v : Value) : Bool := v.text?.isSome
  match real, imaginary with
  | some v, Option.none =>
    if isText v then
      if (v.text?.bind Text.float?).isSome then .ok (.stranger .complex)
      else .error (.value "complex() arg is a malformed string")
    else if isNumber v then .ok (.stranger .complex)
    else .error (firstRefused v)
  | some v, some w =>
    if isText v then .error (.typing "complex() can't take second arg if first is a string")
    else if isText w then .error (.typing "complex() second arg can't be a string")
    else if !isNumber v then .error (firstRefused v)
    else if !isNumber w then
      .error (.typing ("complex() second argument must be a number, not '" ++ w.typeName ++ "'"))
    else .ok (.stranger .complex)
  | Option.none, _ => .ok (.stranger .complex)
where
  /-- The refusal of a first part that is no number. -/
  firstRefused (v : Value) : HostFault :=
    .typing ("complex() first argument must be a string or a number, not '" ++ v.typeName ++ "'")

/-- An engine value of a kind from what it holds. The binding takes what an external address points
to in the place of the address. -/
def Value.engineOf (kind : ValueKind) (args : List Value) : Value :=
  match kind, args with
  | .multifield, [] => .engine (.multifield [])
  | kind, args =>
    let attr := match kind with
      | .multifield => "items"
      | .externalAddress => "pointer"
      | _ => "value"
    match EngineValue.ofAttributes? kind (args.map fun v ↦ (attr, v)) with
    | some v => .engine v
    | Option.none => args.headD .none

/-- Why a class that is only declared has no values of its own. -/
def abstractRefusal (name : String) (missing : List String) (args : List Value) : HostFault :=
  if args.isEmpty then
    .typing ("Can't instantiate abstract class " ++ name ++
      " without an implementation for abstract methods " ++ ", ".intercalate missing)
  else .typing (name ++ "() takes no arguments")

/-- What a call of a type makes of its arguments. -/
def Hint.make (h : Hint) (args : List Value) : Act Value := do
  let heap := (← get).heap
  let lift {α : Type} (found : Except HostFault α) : Act α := ofExcept (found.mapError .host)
  match h, args with
  | .float, [] => return .float .zero
  | .float, v :: _ => return .float (← lift v.toFloat)
  | .list, [] => return .list []
  | .list, v :: _ => return .list (← ofExcept (v.iterated heap))
  | .tuple, [] => return .tuple []
  | .tuple, v :: _ => return .tuple (← ofExcept (v.iterated heap))
  | .complex, args => lift (Value.complexOf args[0]? args[1]?)
  | .anyObject, _ => return .stranger .bare
  | .engineValue Option.none, _ => return .engine .bare
  | .engineValue (some kind), args => return Value.engineOf kind args
  | .instanceHandle, args => do
    return .instanceHandle ⟨← Act.written (args.getD 1 .none), 0, 0⟩
  | .factHandle, args => do return .factHandle ⟨← lift (args.getD 1 .none).toInteger, 0, 0⟩
  | .exception .callback, args => return .exception .callback (← Act.written (args.headD .none))
  | .struct name, _ => Literal.read (.object name Option.none [])
  | .sequenceOf _, args =>
    throw (.host (abstractRefusal "Sequence" ["'__getitem__'", "'__len__'"] args))
  | .mutableSequenceOf _, args =>
    throw (.host (abstractRefusal "MutableSequence"
      ["'__delitem__'", "'__getitem__'", "'__len__'", "'__setitem__'", "'insert'"] args))
  | h, _ => throw (.host (.typing (h.shortName ++ " cannot be instantiated")))

end RuleMarshal
