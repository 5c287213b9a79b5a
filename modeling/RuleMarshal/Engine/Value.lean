import RuleMarshal.Binary64.Text
import RuleMarshal.Hint.Basic
import RuleMarshal.Text.Shown
/-!
Values of the engine: a closed union of scalars, multifields and addresses. An address of an
instance or a fact is held as a handle, which names the construct and the epoch it was handed out
in; no slot of the construct is kept.
-/

set_option autoImplicit false
set_option relaxedAutoImplicit false

namespace RuleMarshal

/-- A handle on an instance: its name, the epoch of its making, and which handle it was in order
of making. -/
structure InstanceHandle where
  name : String
  epoch : Nat
  serial : Nat := 0
  deriving DecidableEq, Repr

/-- A handle on a fact: its index, the epoch of its making, and which handle it was in order of
making. -/
structure FactHandle where
  index : Int
  epoch : Nat
  serial : Nat := 0
  deriving DecidableEq, Repr

/-- Two instance handles are equal when they name one instance of one epoch. -/
def InstanceHandle.same (a b : InstanceHandle) : Bool := a.name = b.name && a.epoch = b.epoch

/-- Two fact handles are equal when they name one fact of one epoch. -/
def FactHandle.same (a b : FactHandle) : Bool := a.index = b.index && a.epoch = b.epoch

/-- How an instance handle is shown. -/
def InstanceHandle.shown (h : InstanceHandle) : String := "Instance([" ++ h.name ++ "])"

/-- How a fact handle is shown. -/
def FactHandle.shown (h : FactHandle) : String := "Fact(f-" ++ toString h.index ++ ")"

/-- Whether an integer is one of the engine's. -/
def FitsEngine (n : Int) : Prop := IntType.engineLow ≤ n ∧ n ≤ IntType.engineHigh

instance (n : Int) : Decidable (FitsEngine n) := inferInstanceAs (Decidable (_ ∧ _))

/-- A value of the engine. The bare value has no kind and no content. -/
inductive EngineValue where
  | integer (n : Int) (fits : FitsEngine n)
  | float (x : Binary64)
  | string (text : String)
  | symbol (text : String)
  | instanceName (text : String)
  | multifield (items : List EngineValue)
  | instanceAddress (handle : InstanceHandle)
  | factAddress (handle : FactHandle)
  | externalAddress (label : String)
  | bare

namespace EngineValue

/-- The symbol that stands for absence. -/
def nil : EngineValue := .symbol "nil"

/-- The symbol that stands for a truth value. -/
def ofBool (b : Bool) : EngineValue := .symbol (if b then "TRUE" else "FALSE")

instance : Inhabited EngineValue := ⟨nil⟩

/-- The kind of a value; the bare value has none. -/
def kind? : EngineValue → Option ValueKind
  | .integer .. => some .integer
  | .float _ => some .float
  | .string _ => some .string
  | .symbol _ => some .symbol
  | .instanceName _ => some .instanceName
  | .multifield _ => some .multifield
  | .instanceAddress _ => some .instanceAddress
  | .factAddress _ => some .factAddress
  | .externalAddress _ => some .externalAddress
  | .bare => none

/-- The engine's word for the kind of a value. -/
def kindWord (v : EngineValue) : String := RuleMarshal.kindWord v.kind?

/-- The host's name for the type of a value. -/
def typeName (v : EngineValue) : String := kindTypeName v.kind?

/-- Whether a value is the symbol of absence. -/
def isNil : EngineValue → Bool
  | .symbol text => text = "nil"
  | _ => false

/-- Whether a value is the symbol of falsehood. -/
def isFalse : EngineValue → Bool
  | .symbol text => text = "FALSE"
  | _ => false

/-- Whether the engine's answer counts as true: only the symbols of falsehood and absence do
not. -/
def isTrue (v : EngineValue) : Bool := !v.isFalse && !v.isNil

mutual

/-- Equality of values: of one kind, floats by number and handles by what they name. -/
def same : EngineValue → EngineValue → Bool
  | .integer m _, .integer n _ => m = n
  | .float x, .float y => x.numericEq y
  | .string s, .string t => s = t
  | .symbol s, .symbol t => s = t
  | .instanceName s, .instanceName t => s = t
  | .multifield vs, .multifield ws => sameEach vs ws
  | .instanceAddress a, .instanceAddress b => a.same b
  | .factAddress a, .factAddress b => a.same b
  | .externalAddress a, .externalAddress b => a = b
  | .bare, .bare => true
  | _, _ => false

/-- Equality of lists of values, one by one. -/
def sameEach : List EngineValue → List EngineValue → Bool
  | [], [] => true
  | v :: vs, w :: ws => same v w && sameEach vs ws
  | _, _ => false

end

/-- The text of a scalar's content; multifields, addresses and the bare value have none. -/
def content? : EngineValue → Option String
  | .integer n _ => some (toString n)
  | .float x => some x.text
  | .string text | .symbol text | .instanceName text => some text
  | _ => none

mutual

/-- How a value is shown: its type and its content. -/
def shown : EngineValue → String
  | .integer n _ => "IntegerValue(value=" ++ toString n ++ ")"
  | .float x => "FloatValue(value=" ++ x.text ++ ")"
  | .string text => "StringValue(value=" ++ Text.shown text ++ ")"
  | .symbol text => "SymbolValue(value=" ++ Text.shown text ++ ")"
  | .instanceName text => "InstanceNameValue(value=" ++ Text.shown text ++ ")"
  | .multifield [v] => "MultifieldValue(items=(" ++ shown v ++ ",))"
  | .multifield vs => "MultifieldValue(items=(" ++ ", ".intercalate (shownEach vs) ++ "))"
  | .instanceAddress h => "InstanceAddressValue(instance=" ++ h.shown ++ ")"
  | .factAddress h => "FactAddressValue(fact=" ++ h.shown ++ ")"
  | .externalAddress label => "ExternalAddressValue(pointer=" ++ label ++ ")"
  | .bare => "EngineValue"

/-- How each value of a list is shown. -/
def shownEach : List EngineValue → List String
  | [] => []
  | v :: vs => shown v :: shownEach vs

end

/-- The text that a value gives as a name: its content, or how it is shown. -/
def lexeme (v : EngineValue) : String := v.content?.getD v.shown

/-- The names that an answer lists: those of a multifield, none for falsehood, else the one. -/
def lexemes : EngineValue → List String
  | .multifield items => items.map lexeme
  | v => if v.isFalse then [] else [v.lexeme]

end EngineValue

end RuleMarshal
