import RuleMarshal.Convert.Encode
/-!
Engine values to host values of a declared type. Destinations that have no rule of their own, such
as structs, mappings and handles, are left to a resolver if there is one. A union takes the first
of its members that the value converts to.
-/

set_option autoImplicit false
set_option relaxedAutoImplicit false

namespace RuleMarshal

open MonadExcept (ofExcept)

mutual

/-- The host value of an engine value by its kind. -/
def EngineValue.dynamic : EngineValue → Except Error Value
  | .integer n _ => .ok (.int .unsized n)
  | .float x => .ok (.float x)
  | .string s => .ok (.text s)
  | .symbol s => .ok (if s = "nil" then .none else .symbol s)
  | .instanceName s => .ok (.instanceName s)
  | .multifield items => do return .list (← dynamicEach items)
  | .instanceAddress h => .ok (.instanceHandle h)
  | .factAddress h => .ok (.factHandle h)
  | .externalAddress label => .ok (.external label)
  | .bare => .error (.unsupported (.unknownEngineValue EngineValue.bare.typeName))

/-- The host values of the items of a multifield. -/
def dynamicEach : List EngineValue → Except Error (List Value)
  | [] => .ok []
  | v :: rest => do
    let first ← v.dynamic
    let others ← dynamicEach rest
    return first :: others

end

theorem dynamicEach_eq_mapM (es : List EngineValue) :
    dynamicEach es = es.mapM EngineValue.dynamic := by
  induction es with
  | nil => rfl
  | cons e rest ih => rw [dynamicEach, List.mapM_cons, ih]

/-- The integer of a type that an engine value is. -/
def EngineValue.toInt (t : IntType) : EngineValue → Except Error Int
  | .integer n _ => t.checked n
  | .float x =>
    match x.toInt? with
    | some n => t.checked n
    | none => .error (.precisionLoss x)
  | v => .error (.unsupported (.noConversion v.kind? t.name))

/-- The items of a multifield, refused for other values. -/
def EngineValue.items (h : Hint) : EngineValue → Except Error (List EngineValue)
  | .multifield items => .ok items
  | v => .error (.unsupported (.notASequenceSource v.kind? h))

theorem multifield_of_items {h : Hint} {e : EngineValue} {es : List EngineValue}
    (hitems : e.items h = .ok es) : e = .multifield es := by
  cases e with
  | multifield items =>
    cases hitems
    rfl
  | _ => cases hitems

namespace Hint

/-- The host value of an engine value under an atom that has a rule of its own; `none` for the
destinations that are left to a resolver. -/
def decodeAtom? (a : HintAtom) (v : EngineValue) : Option (Except Error Value) :=
  match a with
  | .any | .anyObject | .none => some v.dynamic
  | .engineValue kind =>
    some <| if kind = Option.none ∨ v.kind? = kind then .ok (.engine v)
      else .error (.unsupported (.typeExpected (kindTypeName kind) v.typeName))
  | .list => some do return .list (← dynamicEach (← v.items .list))
  | .tuple => some do return .tuple (← dynamicEach (← v.items .tuple))
  | .bool => some <|
    match v with
    | .symbol "TRUE" => .ok (.bool true)
    | .symbol "FALSE" => .ok (.bool false)
    | _ => .error (.unsupported (.noConversion v.kind? "bool"))
  | .int t => some do return .int .unsized (← v.toInt t)
  | .float => some <|
    match v with
    | .float x => .ok (.float x)
    | .integer n _ =>
      match Binary64.ofInt? n with
      | some x => .ok (.float x)
      | Option.none => .error (.host .beyondFloats)
    | _ => .error (.unsupported (.noConversion v.kind? "float"))
  | .symbol => some <|
    match v with
    | .symbol s => .ok (.symbol s)
    | _ => .error (.unsupported (.noConversion v.kind? "Symbol"))
  | .instanceName => some <|
    match v with
    | .instanceName s | .symbol s => .ok (.instanceName s)
    | .instanceAddress h => .ok (.instanceName h.name)
    | _ => .error (.unsupported (.noConversion v.kind? "InstanceName"))
  | .text => some <|
    match v with
    | .string s | .symbol s | .instanceName s => .ok (.text s)
    | _ => .error (.unsupported (.noConversion v.kind? "str"))
  | _ => Option.none

section

variable {m : Type → Type} [Monad m] [MonadExcept Error m]

/-- What is left to a resolver, refused where there is none. -/
def leave (resolve : Option (EngineValue → Hint → m Value)) (h : Hint) (v : EngineValue) :
    m Value :=
  match resolve with
  | some f => f v h
  | Option.none => throw (.unsupported (.destination h))

mutual

/-- The host value of an engine value under a declared type. -/
def decode (resolve : Option (EngineValue → Hint → m Value)) : Hint → EngineValue → m Value
  | .atom a, v =>
    match decodeAtom? a v with
    | some answer => ofExcept answer
    | Option.none => leave resolve (.atom a) v
  | .union spelling members, v =>
    if members.any isNoneType then
      if v.isNil then pure .none
      else if hasSoleMember members then decodeSole resolve members v
      else
        let rest := members.filter fun h ↦ !h.isNoneType
        decodeMembers resolve members v
          (.unsupported (.noConversion v.kind? (Hint.union .word rest).shortName))
    else
      decodeMembers resolve members v
        (.unsupported (.noConversion v.kind? (Hint.union spelling members).shortName))
  | .listOf h, v =>
    if h.isAbsence then leave resolve (.listOf h) v
    else do
      let items ← ofExcept (v.items (.listOf h))
      return .list (← items.mapM (decode resolve h))
  | .tupleOf h, v =>
    if h.isAbsence then leave resolve (.tupleOf h) v
    else do
      let items ← ofExcept (v.items (.tupleOf h))
      return .tuple (← items.mapM (decode resolve h))
  | .sequenceOf h, v =>
    if h.isAbsence then leave resolve (.sequenceOf h) v
    else do
      let items ← ofExcept (v.items (.sequenceOf h))
      return .list (← items.mapM (decode resolve h))
  | .mutableSequenceOf h, v =>
    if h.isAbsence then leave resolve (.mutableSequenceOf h) v
    else do
      let items ← ofExcept (v.items (.mutableSequenceOf h))
      return .list (← items.mapM (decode resolve h))
  | .fixedTuple [], v => do
    let items ← ofExcept (v.items (.fixedTuple []))
    return .tuple (← ofExcept (dynamicEach items))
  | .fixedTuple (h :: rest), v =>
    if h.isUniform rest then
      if h.isAbsence then leave resolve (.fixedTuple (h :: rest)) v
      else do
        let items ← ofExcept (v.items (.fixedTuple (h :: rest)))
        return .tuple (← items.mapM (decode resolve h))
    else throw (Hint.fixedTuple (h :: rest)).itemsRefused
  | @Hint.generic place .list [], v => do
    let items ← ofExcept (v.items (@Hint.generic place .list []))
    return .list (← ofExcept (dynamicEach items))
  | @Hint.generic place .list (h :: rest), v =>
    if h.isAbsence then leave resolve (@Hint.generic place .list (h :: rest)) v
    else do
      let items ← ofExcept (v.items (@Hint.generic place .list (h :: rest)))
      return .list (← items.mapM (decode resolve h))
  | h, v => leave resolve h v

/-- The host value under the first member that is not the type of the absent value. -/
def decodeSole (resolve : Option (EngineValue → Hint → m Value)) :
    List Hint → EngineValue → m Value
  | [], v => leave resolve .noneType v
  | h :: rest, v => if h.isNoneType then decodeSole resolve rest v else decode resolve h v

/-- The host value under the first member that the value converts to. -/
def decodeMembers (resolve : Option (EngineValue → Hint → m Value)) :
    List Hint → EngineValue → Error → m Value
  | [], _, failure => throw failure
  | h :: rest, v, failure =>
    if h.isNoneType then decodeMembers resolve rest v failure
    else tryCatch (decode resolve h v) fun e ↦
      if e.isConversion then decodeMembers resolve rest v failure else throw e

end

end

end Hint

end RuleMarshal
