import RuleMarshal.Shape.Basic
/-!
Signatures: what a host function takes and returns, read from its declaration once. Parameters
that are not annotated take anything. Keyword parameters play no part in calls by the engine, so
one without a default makes a function unfit to be called. A type can stand for a function too: it
takes what its values are made from.
-/

set_option autoImplicit false
set_option relaxedAutoImplicit false

namespace RuleMarshal

/-- The elements that a hint declares for a tuple: none for a hint that is no tuple with declared
elements, else how many of them there may be. -/
inductive TupleElements where
  | undeclared
  | anyNumber (item : Hint)
  | exactly (items : List Hint)

/-- What a hint declares about the elements of a tuple. -/
def Hint.tupleElements : Hint → TupleElements
  | .tupleOf h => .anyNumber h
  | .fixedTuple hs => .exactly hs
  | _ => .undeclared

/-- Whether a hint is an exception class. -/
def Hint.isException : Hint → Bool
  | .exception _ | .otherClass _ true => true
  | _ => false

/-- Whether the last element of a returned tuple is an error signal: its declared type is an
exception class, absent or not. -/
def Hint.hasErrorTerminal (returns : Hint) : Bool :=
  match returns.tupleElements with
  | .exactly items => (items.getLast?.map fun h ↦ h.unwrapOptional.1.isException).getD false
  | _ => false

namespace Signature

/-- What has been read of a list of parameters. -/
structure Reading where
  params : List Hint := []
  required : Nat := 0
  variadic : Option Hint := none

/-- Reads one parameter more. -/
def Reading.add (name : String) (r : Reading) (p : Parameter × Hint) : Except Error Reading :=
  let (parameter, hint) := p
  match parameter.kind with
  | .positionalOnly | .positional =>
    .ok { r with
      params := r.params ++ [hint]
      required := if parameter.hasDefault then r.required else r.required + 1 }
  | .variadic => .ok { r with variadic := some hint }
  | .keywordOnly =>
    if parameter.hasDefault then .ok r
    else .error (.unsupported (.keywordOnly name parameter.name))
  | .keywordVariadic => .ok r

/-- A declared type of a parameter, looked up; anything where none is declared. -/
def declaredType (table : TypeTable) (declaration : String) : Option Hint → Except HostFault Hint
  | none => .ok .any
  | some h => h.resolve (table.lookup declaration)

/-- The signature that parameters with their types and a return type make up. -/
def ofParameters (text : HostText) (params : List (Parameter × Hint)) (returns : Hint) :
    Except Error Signature := do
  let r ← params.foldlM (Reading.add text.content) {}
  return { text
           params := r.params
           required := r.required
           variadic := r.variadic
           returns
           errorTerminal := returns.hasErrorTerminal }

/-- The signature of a function under the name that the engine calls it by. -/
def ofFunction (table : TypeTable) (text : HostText) (f : FunctionLiteral) :
    Except Error Signature := do
  if !f.inspectable then throw (.unsupported (.signature text.content))
  let declared := f.params.mapM fun p ↦ declaredType table p.name p.hint
  let hints ← declared.mapError (HostFault.inDeclaration text.content)
  let returns ← (declaredType table "return" f.returns).mapError
    (HostFault.inDeclaration text.content)
  ofParameters text (f.params.zip hints) returns

end Signature

/-! ### Types as functions -/

/-- What a host program offers as a function: a function, a type, which makes its values when it is
called, or something that cannot be called. -/
inductive Callable where
  | function (f : FunctionLiteral)
  | type (h : Hint)
  | other

namespace Callable

/-- What a value is as a function. -/
def ofValue : Value → Callable
  | .function f => .function f
  | .hint h => .type h
  | _ => .other

/-- The name of a function, if it has one. -/
def name? : Callable → Option String
  | .function f => f.name
  | .type h => h.name?
  | .other => none

/-- A parameter without a declared type. -/
def bare (name : String) (kind : ParameterKind) (hasDefault : Bool) : Parameter :=
  { name, hint := none, kind, hasDefault }

/-- The parameters of a type that gives itself none: it takes everything. -/
def everything : List Parameter :=
  [bare "rest" .variadic false, bare "options" .keywordVariadic false]

/-- The parameters of a call of an engine value's type: its fields, by position. -/
def engineParameters (kind : ValueKind) : Except Error (List Parameter) := do
  return (← engineValueFields kind).map fun f ↦
    { name := f.attr, hint := some f.hint, kind := .positional, hasDefault := f.default.isSome }

/-- The fields of a struct type as parameters: they are supplied by keyword. -/
def fieldParameters (table : TypeTable) (t : StructType) : List Parameter :=
  match (table.lineage t).find? fun s ↦ s.kind = .annotated || s.kind = .model with
  | none => []
  | some giver => (table.declaredFields giver).map fun f ↦
      { name := f.attr, hint := some f.hint, kind := .keywordOnly
        hasDefault := f.default.isSome || f.factory.isSome }

end Callable

/-- What can be learned about a call of a type. -/
inductive TypeCall where
  /-- Its parameters, with their declared types looked up. -/
  | takes (params : List Parameter)
  /-- That its parameters can be looked at, but not their declared types. -/
  | untyped
  /-- Nothing. -/
  | unknown

/-- What can be learned about a call of a type that is not declared by the host program. -/
def Hint.typeCall : Hint → TypeCall
  | .any | .sequenceOf _ | .mutableSequenceOf _ => .takes Callable.everything
  | .anyObject | .engineValue Option.none => .takes []
  | .float => .takes [Callable.bare "x" .positionalOnly true]
  | .list | .tuple => .takes [Callable.bare "iterable" .positionalOnly true]
  | .complex =>
    .takes [Callable.bare "real" .positional true, Callable.bare "imag" .positional true]
  | .instanceHandle | .factHandle =>
    .takes (["env", "name", "epoch"].map fun n ↦ Callable.bare n .positional false)
  | .exception .callback =>
    .takes [Callable.bare "message" .positional false, Callable.bare "function" .keywordOnly true]
  | .union .bar _ | .atom _ => .unknown
  | _ => .untyped

namespace Signature

/-- The signature of a call of a type under the name that the engine calls it by. -/
def ofType (table : TypeTable) (text : HostText) (h : Hint) : Except Error Signature := do
  let owned {α : Type} (found : Except HostFault α) : Except Error α :=
    found.mapError (HostFault.inDeclaration text.content)
  let plain (params : List Parameter) : Except Error Signature := do
    let hints ← owned (params.mapM fun p ↦ declaredType table p.name p.hint)
    ofParameters text (params.zip hints) .any
  match h with
  | .engineValue (some .instanceAddress) => owned (.error (.undefined "Instance"))
  | .engineValue (some .factAddress) => owned (.error (.undefined "Fact"))
  | .engineValue (some kind) => plain (← Callable.engineParameters kind)
  | .struct name =>
    match table.find? name with
    | none => throw (.unsupported (.signature text.content))
    | some t => do
      discard (owned (table.resolvedHints t))
      ofParameters text ((Callable.fieldParameters table t).map fun p ↦ (p, .any)) .any
  | h =>
    match h.typeCall with
    | .takes params => plain params
    | .untyped => owned (.error (.typing
        (h.fullText ++ " is not a module, class, method, or function.")))
    | .unknown => throw (.unsupported (.signature text.content))

/-- The signature of what is offered as a function, under the name that the engine calls it by. -/
def inspect (table : TypeTable) (text : HostText) : Callable → Except Error Signature
  | .function f => ofFunction table text f
  | .type h => ofType table text h
  | .other => .error (.unsupported (.signature text.content))

/-- Whether a call with the given number of arguments fits. -/
def accepts (s : Signature) (count : Nat) : Bool :=
  s.required ≤ count && (s.variadic.isSome || count ≤ s.params.length)

/-- The declared type of the argument at a position. -/
def hintAt (s : Signature) (position : Nat) : Hint :=
  (s.params[position]?).getD (s.variadic.getD .any)

/-- The declared types of returned values, dynamic where nothing fits their number. -/
def returnHints (s : Signature) (count : Nat) : List Hint :=
  match s.returns.tupleElements with
  | .undeclared => List.replicate count (if count = 1 then s.returns else .any)
  | .anyNumber item => List.replicate count item
  | .exactly items =>
    let values := if s.errorTerminal then items.dropLast else items
    if values.length = count then values else List.replicate count .any

end Signature

end RuleMarshal
