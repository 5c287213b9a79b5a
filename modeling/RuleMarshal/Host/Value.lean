import RuleMarshal.Error
import RuleMarshal.Host.Literal
import RuleMarshal.Schema.Basic
import RuleMarshal.Surroundings
/-!
Values of the host program. Lists and tuples are trees of values. What has an identity of its own
lives in a heap and is referred to by number: mappings, struct objects, pending facts, and whatever
a variable holds.
-/

set_option autoImplicit false
set_option relaxedAutoImplicit false

namespace RuleMarshal

/-- A text of the host program with its type. -/
inductive HostText where
  | plain (content : String)
  | symbol (content : String)
  | instanceName (content : String)
  deriving DecidableEq, Repr

namespace HostText

/-- The characters of a text. -/
def content : HostText → String
  | .plain s | .symbol s | .instanceName s => s

/-- How a text is shown. -/
def shown : HostText → String
  | .plain s => Text.shown s
  | .symbol s => "Symbol(" ++ Text.shown s ++ ")"
  | .instanceName s => "InstanceName(" ++ Text.shown s ++ ")"

end HostText

/-- A handle on a template: its name as it was given, its construct epoch and generation, and which
handle it was in order of making. -/
structure TemplateHandle where
  text : HostText
  epoch : Nat × Nat
  serial : Nat := 0
  deriving DecidableEq, Repr

/-- A handle on a class: its name as it was given, its construct epoch and generation, and which
handle it was in order of making. -/
structure ClassHandle where
  text : HostText
  epoch : Nat × Nat
  serial : Nat := 0
  deriving DecidableEq, Repr

/-- The name of the template that a handle points at. -/
def TemplateHandle.name (h : TemplateHandle) : String := h.text.content

/-- The name of the class that a handle points at. -/
def ClassHandle.name (h : ClassHandle) : String := h.text.content

/-- Two template handles are equal when they name one generation of one template. -/
def TemplateHandle.same (a b : TemplateHandle) : Bool := a.name = b.name && a.epoch = b.epoch

/-- Two class handles are equal when they name one generation of one class. -/
def ClassHandle.same (a b : ClassHandle) : Bool := a.name = b.name && a.epoch = b.epoch

/-- What a function takes and returns, read once when it is registered. -/
structure Signature where
  /-- The name that the engine calls it by, as it was given. -/
  text : HostText
  /-- The types of its positional parameters. -/
  params : List Hint
  /-- How many positional parameters have no default. -/
  required : Nat
  /-- The type of further positional arguments, if it takes any. -/
  variadic : Option Hint
  /-- The type that it returns. -/
  returns : Hint
  /-- Whether the last element of a returned tuple is an error and no value. -/
  errorTerminal : Bool
  /-- Which signature it was in order of registering. -/
  serial : Nat := 0

/-- The name that the engine calls a function by. -/
def Signature.name (s : Signature) : String := s.text.content

/-- Constructs that the engine's binding hands over as they are. -/
inductive EngineConstruct where
  | inst | orderedFact | templateFact
  deriving DecidableEq, Repr

/-- The name of the type of a construct of the binding. -/
def EngineConstruct.typeName : EngineConstruct → String
  | .inst => Surroundings.scripted.instanceType
  | .orderedFact => Surroundings.scripted.orderedFactType
  | .templateFact => Surroundings.scripted.templateFactType

/-- A value of the host program. -/
inductive Value where
  | none
  | bool (b : Bool)
  | int (width : IntType) (n : Int)
  | float (x : Binary64)
  | text (s : String)
  | symbol (s : String)
  | instanceName (s : String)
  | list (items : List Value)
  | tuple (items : List Value)
  | held (id : Nat)
  | mapping (id : Nat)
  | object (struct : String) (id : Nat)
  | builder (id : Nat)
  | engine (value : EngineValue)
  | hint (h : Hint)
  | exception (kind : ExceptionClass) (text : String)
  | external (label : String)
  | stranger (kind : StrangerKind)
  | instanceHandle (handle : InstanceHandle)
  | factHandle (handle : FactHandle)
  | templateHandle (handle : TemplateHandle)
  | classHandle (handle : ClassHandle)
  | templateSlot (owner : TemplateHandle) (name : String) (serial : Nat)
  | classSlot (owner : ClassHandle) (name : String) (serial : Nat)
  | function (f : FunctionLiteral)
  | signature (s : Signature)
  | schema (s : ClassSchema)
  | construct (kind : EngineConstruct)
  | environment

instance : Inhabited Value := ⟨.none⟩

namespace Value

/-- The name of the type of a hint that is used as a value. -/
def hintTypeName : Hint → String
  | .any => "_AnyMeta"
  | .none => "NoneType"
  | .forward _ => "str"
  | .reference _ => "ForwardRef"
  | .datum d => d.typeName
  | .atom _ => "type"
  | .union .word _ => "_UnionGenericAlias"
  | .union .bar _ => "UnionType"
  | _ => "GenericAlias"

/-- The name of the type of a value. -/
def typeName : Value → String
  | .none => "NoneType"
  | .bool _ => "bool"
  | .int width _ => width.name
  | .float _ => "float"
  | .text _ => "str"
  | .symbol _ => "Symbol"
  | .instanceName _ => "InstanceName"
  | .list _ => "list"
  | .tuple _ => "tuple"
  | .held _ => "object"
  | .mapping _ => "dict"
  | .object struct _ => struct
  | .builder _ => "FactBuilder"
  | .engine v => v.typeName
  | .hint h => hintTypeName h
  | .exception kind _ => kind.name
  | .external _ => "Opaque"
  | .stranger .bytes => "bytes"
  | .stranger .set => "set"
  | .stranger .complex => "complex"
  | .stranger .object => "Unknown"
  | .stranger .bare => "object"
  | .instanceHandle _ => "Instance"
  | .factHandle _ => "Fact"
  | .templateHandle _ => "Template"
  | .classHandle _ => "Class"
  | .templateSlot .. => "TemplateSlot"
  | .classSlot .. => "ClassSlot"
  | .function _ => "function"
  | .signature _ => "CallableSignature"
  | .schema _ => "ClassSchema"
  | .construct kind => kind.typeName
  | .environment => "Environment"

/-- A value that is a text of any type. -/
def hostText? : Value → Option HostText
  | .text s => some (.plain s)
  | .symbol s => some (.symbol s)
  | .instanceName s => some (.instanceName s)
  | _ => Option.none

/-- The text of a value that is a text of any type. -/
def text? : Value → Option String
  | .text s | .symbol s | .instanceName s => some s
  | _ => Option.none

/-- The engine value that a value is. -/
def engine? : Value → Option EngineValue
  | .engine v => some v
  | _ => Option.none

/-- The integer of a value that is an integer of any type; truth values count as `0` and `1`. -/
def integer? : Value → Option Int
  | .bool b => some (if b then 1 else 0)
  | .int _ n => some n
  | _ => Option.none

end Value

/-- A text as a value. -/
def HostText.toValue : HostText → Value
  | .plain s => .text s
  | .symbol s => .symbol s
  | .instanceName s => .instanceName s

/-! ### Engine values as objects -/

namespace EngineValue

/-- The content of an engine value under the attribute that holds it. -/
def attribute? (v : EngineValue) (attr : String) : Option Value :=
  match v, attr with
  | .integer n _, "value" => some (.int .unsized n)
  | .float x, "value" => some (.float x)
  | .string s, "value" | .symbol s, "value" | .instanceName s, "value" => some (.text s)
  | .multifield items, "items" => some (.tuple (items.map .engine))
  | .externalAddress label, "pointer" => some (.external label)
  | _, _ => none

/-- The engine value of a kind that attributes make up. -/
def ofAttributes? (kind : ValueKind) (attrs : List (String × Value)) : Option EngineValue :=
  match kind, attrs with
  | .integer, [("value", .int _ n)] =>
    if fits : FitsEngine n then some (.integer n fits) else none
  | .float, [("value", .float x)] => some (.float x)
  | .string, [("value", v)] => v.text?.map .string
  | .symbol, [("value", v)] => v.text?.map .symbol
  | .instanceName, [("value", v)] => v.text?.map .instanceName
  | .multifield, [("items", .tuple items)] => .multifield <$> items.mapM Value.engine?
  | .externalAddress, [("pointer", .external label)] => some (.externalAddress label)
  | _, _ => none

end EngineValue

end RuleMarshal
