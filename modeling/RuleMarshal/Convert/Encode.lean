import RuleMarshal.Host.Value
/-!
Host values to engine values. Without a hint the type of the value decides the kind; with one the
hint does, and a value that is not of the declared type is refused.
-/

set_option autoImplicit false
set_option relaxedAutoImplicit false

namespace RuleMarshal

/-- The engine's integer, refused beyond 64 bits. -/
def EngineValue.ofInt (n : Int) : Except Error EngineValue :=
  if fits : FitsEngine n then .ok (.integer n fits) else .error (.outOfRange (.engine n))

/-- An integer within the bounds of a type. -/
def IntType.checked (t : IntType) (n : Int) : Except Error Int :=
  if t.low ≤ n ∧ n ≤ t.high then .ok n else .error (.outOfRange (.type n t))

mutual

/-- The engine value of a host value by its type. -/
def Value.toEngine : Value → Except Error EngineValue
  | .none => .ok .nil
  | .bool b => .ok (.ofBool b)
  | .int _ n => EngineValue.ofInt n
  | .float x => .ok (.float x)
  | .text s => .ok (.string s)
  | .symbol s => .ok (.symbol s)
  | .instanceName s => .ok (.instanceName s)
  | .list items => do return .multifield (← toEngineEach items)
  | .tuple items => do return .multifield (← toEngineEach items)
  | .engine v => .ok v
  | .instanceHandle h => .ok (.instanceAddress h)
  | .factHandle h => .ok (.factAddress h)
  | v => .error (.unsupported (.noRepresentation v.typeName))

/-- The engine values of the items of a sequence. -/
def toEngineEach : List Value → Except Error (List EngineValue)
  | [] => .ok []
  | v :: rest => do
    let first ← v.toEngine
    let others ← toEngineEach rest
    return first :: others

end

theorem toEngineEach_eq_mapM (items : List Value) :
    toEngineEach items = items.mapM Value.toEngine := by
  induction items with
  | nil => rfl
  | cons v rest ih =>
    rw [toEngineEach, List.mapM_cons, ih]

namespace Hint

/-- The items of a list or tuple, refused for other values. -/
def sequenceItems (h : Hint) : Value → Except Error (List Value)
  | .list items | .tuple items => .ok items
  | v => .error (.unsupported (.sequenceExpected h v.typeName))

/-- The engine value of a value other than the absent one under an atom. -/
def encodeAtom (a : HintAtom) (v : Value) : Except Error EngineValue :=
  match a with
  | .list | .tuple => do
    let items ← sequenceItems (.atom a) v
    return .multifield (← toEngineEach items)
  | .bool =>
    match v with
    | .bool b => .ok (.ofBool b)
    | _ => .error (.unsupported (.typeExpected "bool" v.typeName))
  | .int t =>
    match v with
    | .int _ n => do EngineValue.ofInt (← t.checked n)
    | _ => .error (.unsupported (.typeExpected "int" v.typeName))
  | .float =>
    match v with
    | .float x => .ok (.float x)
    | .int _ n =>
      match Binary64.ofInt? n with
      | some x => .ok (.float x)
      | Option.none => .error (.host .beyondFloats)
    | _ => .error (.unsupported (.typeExpected "float" v.typeName))
  | .symbol =>
    match v.text? with
    | some s => .ok (.symbol s)
    | Option.none => .error (.unsupported (.typeExpected "str for Symbol" v.typeName))
  | .instanceName =>
    match v.text? with
    | some s => .ok (.instanceName s)
    | Option.none => .error (.unsupported (.typeExpected "str for InstanceName" v.typeName))
  | .text =>
    match v.text? with
    | some s => .ok (.string s)
    | Option.none => .error (.unsupported (.typeExpected "str" v.typeName))
  | _ => v.toEngine

/-- Whether a union has exactly one member besides the type of the absent value. -/
def hasSoleMember (members : List Hint) : Bool :=
  (members.filter fun m ↦ !m.isNoneType).length = 1

mutual

/-- The engine value of a host value under a declared type. -/
def encode : Hint → Value → Except Error EngineValue
  | .union spelling members, v =>
    match members.any isNoneType, v with
    | true, .none => .ok .nil
    | true, v => if hasSoleMember members then encodeSole members v else v.toEngine
    | false, .none => .error (.unsupported (.absentNotAllowed (.union spelling members)))
    | false, v => v.toEngine
  | .atom a, v =>
    match v with
    | .none =>
      if (Hint.atom a).isDynamic then .ok .nil
      else .error (.unsupported (.absentNotAllowed (.atom a)))
    | v => encodeAtom a v
  | .listOf h, v =>
    if h.isAbsence then encodeUntyped (.listOf h) v
    else do
      let items ← encodedItems (.listOf h) v
      return .multifield (← items.mapM (encode h))
  | .tupleOf h, v =>
    if h.isAbsence then encodeUntyped (.tupleOf h) v
    else do
      let items ← encodedItems (.tupleOf h) v
      return .multifield (← items.mapM (encode h))
  | .sequenceOf h, v =>
    if h.isAbsence then encodeUntyped (.sequenceOf h) v
    else do
      let items ← encodedItems (.sequenceOf h) v
      return .multifield (← items.mapM (encode h))
  | .mutableSequenceOf h, v =>
    if h.isAbsence then encodeUntyped (.mutableSequenceOf h) v
    else do
      let items ← encodedItems (.mutableSequenceOf h) v
      return .multifield (← items.mapM (encode h))
  | .fixedTuple [], v => do
    let items ← encodedItems (.fixedTuple []) v
    return .multifield (← toEngineEach items)
  | .fixedTuple (h :: rest), v =>
    match v with
    | .none => .error (.unsupported (.absentNotAllowed (.fixedTuple (h :: rest))))
    | v =>
      if h.isUniform rest then
        if h.isAbsence then v.toEngine
        else do
          let items ← sequenceItems (.fixedTuple (h :: rest)) v
          return .multifield (← items.mapM (encode h))
      else .error (Hint.fixedTuple (h :: rest)).itemsRefused
  | @Hint.generic place .list [], v => do
    let items ← encodedItems (@Hint.generic place .list []) v
    return .multifield (← toEngineEach items)
  | @Hint.generic place .list (h :: rest), v =>
    if h.isAbsence then encodeUntyped (@Hint.generic place .list (h :: rest)) v
    else do
      let items ← encodedItems (@Hint.generic place .list (h :: rest)) v
      return .multifield (← items.mapM (encode h))
  | h, v => encodeUntyped h v
where
  encodeUntyped (h : Hint) : Value → Except Error EngineValue
    | .none => .error (.unsupported (.absentNotAllowed h))
    | v => v.toEngine
  encodedItems (h : Hint) : Value → Except Error (List Value)
    | .none => .error (.unsupported (.absentNotAllowed h))
    | v => sequenceItems h v

/-- The engine value under the first member that is not the type of the absent value. -/
def encodeSole : List Hint → Value → Except Error EngineValue
  | [], v => v.toEngine
  | m :: rest, v => if m.isNoneType then encodeSole rest v else encode m v

end

/-- Where every value is let through, values go by their own types. -/
theorem encode_any (v : Value) : Hint.any.encode v = v.toEngine := by
  unfold encode
  cases v with
  | none => rfl
  | _ => rfl

theorem toEngineEach_eq_encode : toEngineEach = fun vs ↦ vs.mapM Hint.any.encode := by
  funext vs
  rw [funext encode_any, toEngineEach_eq_mapM]

end Hint

end RuleMarshal
