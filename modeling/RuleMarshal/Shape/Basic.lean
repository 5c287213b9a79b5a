import RuleMarshal.Hint.Resolve
import RuleMarshal.Host.Meaning
import RuleMarshal.Surroundings
import RuleMarshal.Text.Blank
/-!
Struct types of the host program and the fields that they show. A struct type has its fields from
its declaration, the fields of its base first. The engine name of a field is the name under the
binding tag, else the one under the serialization tag, else the name of the attribute. The types
of engine values that hold something are struct types too.
-/

set_option autoImplicit false
set_option relaxedAutoImplicit false

namespace RuleMarshal

/-- Families of struct types, by where they keep what they say about their fields. -/
inductive StructKind where
  /-- Fields carry metadata, and texts in their types are looked up when they are read. -/
  | annotated
  /-- Fields carry an alias, used for serialization, and extra metadata. -/
  | model
  /-- Fields are described from outside, names taken as they are. -/
  | described
  /-- No struct type at all. -/
  | plain
  deriving DecidableEq, Repr

/-- The declaration of a field. Metadata that is no text is kept without content. -/
structure FieldDeclaration where
  attr : String
  hint : Hint
  /-- The default as it is written. -/
  written : Option Literal := none
  /-- The value of the default, read when the type is declared. -/
  default : Option Value := none
  /-- What a default is built from for each object. -/
  factory : Option Literal := none
  metadata : List (String × Option String) := []
  binding : Option String := none
  serialization : Option String := none

/-- The declaration of a struct type. -/
structure StructType where
  name : String
  kind : StructKind
  className : Option String := none
  base : Option String := none
  frozen : Bool := false
  fields : List FieldDeclaration

/-- The keys under which fields keep names for the engine. -/
structure Tags where
  binding : String := "clips"
  serialization : String := "json"

/-- What a field of a new object holds: a value that all share, or one that is built anew. -/
inductive Initial where
  | shared (v : Value)
  | anew (built : Literal)

/-- What the field of a new object holds by its declaration, in a type of the given family. Objects
share the value of a default, but each model has a copy of its own where there is something to
change. -/
def FieldDeclaration.initial? (kind : StructKind) (f : FieldDeclaration) : Option Initial :=
  let copied := f.written.filter fun l ↦ kind = .model && !l.isFixed
  ((f.factory.or copied).map .anew).or (f.default.map .shared)

/-- A field as the other parts of the library see it. -/
structure Field where
  attr : String
  hint : Hint
  binding : Option String := none
  serialization : Option String := none
  default : Option Value := none
  factory : Option Literal := none

/-- The struct types that are declared. -/
structure TypeTable where
  types : List StructType := []

namespace TypeTable

/-- The declaration of a struct type. -/
def find? (table : TypeTable) (name : String) : Option StructType :=
  table.types.find? (·.name = name)

/-- A declaration and those of its bases, the nearest first, at most the given number. -/
def climb (table : TypeTable) : Nat → StructType → List StructType
  | 0, _ => []
  | steps + 1, t =>
    t :: match t.base.bind table.find? with
      | some base => climb table steps base
      | none => []

/-- A declaration and those of its bases, the nearest first. -/
def lineage (table : TypeTable) (t : StructType) : List StructType :=
  table.climb table.types.length t

/-- Whether one struct type is another or has it among its bases. -/
def isKindOf (table : TypeTable) (name ancestor : String) : Bool :=
  match table.find? name with
  | some t => (table.lineage t).any (·.name = ancestor)
  | none => false

/-- A field put into a list of fields: in the place of one of its name, else at the end. -/
def putField : List FieldDeclaration → FieldDeclaration → List FieldDeclaration
  | [], f => [f]
  | g :: rest, f => if g.attr = f.attr then f :: rest else g :: putField rest f

/-- The family that a type belongs to: a plain type whose nearest other base carries metadata or is
a model belongs to that base's family. -/
def kindOf (table : TypeTable) (t : StructType) : StructKind :=
  match (table.lineage t).find? (·.kind ≠ .plain) with
  | some base => if t.kind = .plain && base.kind = .described then .plain else base.kind
  | none => .plain

/-- All fields of a struct type, those of its bases first; a field declared again keeps its place.
Of a type whose fields carry metadata, only bases of its own kind give fields. -/
def declaredFields (table : TypeTable) (t : StructType) : List FieldDeclaration :=
  let givers := if table.kindOf t = .annotated
    then (table.lineage t).filter (·.kind = .annotated) else table.lineage t
  (givers.reverse.flatMap (·.fields)).foldl putField []

/-- Whether objects of a type cannot be changed, so that they can be counted in a set. -/
def isFrozen (table : TypeTable) (t : StructType) : Bool := (table.lineage t).any (·.frozen)

/-- The value that all objects of a type share under a name. -/
def member? (table : TypeTable) (struct name : String) : Option Annotation.Meaning := do
  let f ← ((table.lineage (← table.find? struct)).filter (·.kind = .annotated)).findSome? fun t ↦
    t.fields.find? fun f ↦ f.attr = name && f.written.isSome
  Literal.meaning <$> f.written

/-- The fields that objects of a type are made from by name, with the values that they have if none
is given; none for types that take no part in it. -/
def constructor? (table : TypeTable) (struct : String) :
    Option (List (String × Option Annotation.Meaning)) := do
  let giver ← (table.lineage (← table.find? struct)).find? (·.kind = .annotated)
  return (table.declaredFields giver).map fun f ↦
    (f.attr, (f.written.or f.factory).map Literal.meaning)

/-- What names mean in the declaration of a function: struct types, then what is known
everywhere. -/
def scope (table : TypeTable) : Annotation.Scope :=
  let known (name : String) : Option Annotation.Meaning :=
    if (table.find? name).isSome then some (.hint (.struct name)) else Hint.builtinMeaning? name
  { outer := known, inner := known, fields := table.constructor?, member := table.member? }

/-- What names of the place where struct types are declared mean. -/
def placeNames : List (String × Annotation.Meaning) :=
  [("__name__", .text Surroundings.scripted.home), ("__doc__", .absent), ("__package__", .absent),
    ("__loader__", .absent), ("__spec__", .absent)]

/-- What names mean in the declaration of a field: struct types and what belongs to their place,
then the values that the fields of the same declaration have by default, then what is known
everywhere. -/
def fieldScope (table : TypeTable) (t : StructType) : Annotation.Scope :=
  let own (name : String) : Option Annotation.Meaning :=
    ((t.fields.find? fun f ↦ f.attr = name).bind (·.written)).map Literal.meaning
  let inner (name : String) : Option Annotation.Meaning :=
    if name = "__module__" then some (.text Surroundings.scripted.home)
    else (own name).or (Hint.builtinMeaning? name)
  let outer (name : String) : Option Annotation.Meaning :=
    if (table.find? name).isSome then some (.hint (.struct name))
    else (placeNames.lookup name).or (inner name)
  { table.scope with outer, inner }

/-- The type that a text stands for in the declaration of a function. -/
def lookup (table : TypeTable) (declaration written : String) : Except HostFault Hint :=
  Hint.lookup table.scope declaration written

/-- Whether a hint is a struct type. -/
def isStruct (table : TypeTable) : Hint → Bool
  | .struct name => (table.find? name).any fun t ↦ table.kindOf t ≠ .plain
  | .engineValue kind => kind.isSome
  | _ => false

/-- The engine's name for the class of a hint: the one declared nearest, if it is not empty, else
the hint's own. -/
def className (table : TypeTable) (h : Hint) : Except Error String :=
  let declared : Option String := match h with
    | .struct name => (table.find? name).bind fun t ↦
      ((table.lineage t).findSome? (·.className)).filter fun s ↦ !s.isEmpty
    | _ => none
  match declared.or h.name? with
  | some name => .ok name
  | none => .error (.host (.noAttribute "no attribute '__name__'"))

end TypeTable

/-- The struct type of a value. -/
def Value.structType? (table : TypeTable) : Value → Option Hint
  | .object struct _ =>
    if table.isStruct (.struct struct) then some (.struct struct) else Option.none
  | .engine v => v.kind?.map fun kind ↦ .engineValue (some kind)
  | _ => Option.none

/-- A name out of metadata: a text that is not blank, without the blanks at its ends. -/
def tagName (content : Option String) : Option String :=
  (content.map Text.strip).filter fun s ↦ !s.isEmpty

/-- The metadata under a key; a key written twice holds what was written last. -/
def FieldDeclaration.tagged (f : FieldDeclaration) (key : String) : Option String :=
  tagName ((f.metadata.reverse.lookup key).join)

/-- The fields of the types of engine values. -/
def engineValueFields : ValueKind → Except Error (List Field)
  | .integer => .ok [content (.int .unsized)]
  | .float => .ok [content .float]
  | .string | .symbol | .instanceName => .ok [content .text]
  | .multifield =>
    .ok [{ attr := "items", hint := .tupleOf (.engineValue none), default := some (.tuple []) }]
  | .instanceAddress =>
    .error ((HostFault.undefined "Instance").inDeclaration "InstanceAddressValue")
  | .factAddress => .error ((HostFault.undefined "Fact").inDeclaration "FactAddressValue")
  | .externalAddress => .ok [{ attr := "pointer", hint := .anyObject }]
where
  content (h : Hint) : Field := { attr := "value", hint := h }

namespace TypeTable

/-- The types of all fields, looked up in the order of declaration, those of the bases first. -/
def resolvedHints (table : TypeTable) (t : StructType) :
    Except HostFault (List (String × Hint)) :=
  ((table.lineage t).reverse.flatMap fun s ↦ s.fields.map fun f ↦ (s, f)).mapM fun p ↦
    return (p.2.attr, ← p.2.hint.resolve (Hint.lookup (table.fieldScope p.1) p.2.attr))

/-- The type of a model's field, read once for all with the declaration that gives the field; one
with a name that is not known yet stays as it is written. -/
def modelHint (table : TypeTable) (t : StructType) (f : FieldDeclaration) : Hint :=
  let giver := ((table.lineage t).find? fun s ↦ s.fields.any (·.attr = f.attr)).getD t
  match f.hint.resolve (table.lookup (giver.name ++ "." ++ f.attr)), f.hint with
  | .ok resolved, _ => resolved.readOnce
  | .error _, .forward written => .reference written
  | .error _, h => h

/-- The fields of a declared struct type. -/
def structFields (table : TypeTable) (tags : Tags) (t : StructType) :
    Except Error (List Field) :=
  let declared := table.declaredFields t
  match table.kindOf t with
  | .annotated => do
    let hints ← (table.resolvedHints t).mapError (HostFault.inDeclaration t.name)
    return declared.map fun f ↦
      { attr := f.attr
        hint := (hints.reverse.lookup f.attr).getD .any
        binding := f.tagged tags.binding
        serialization := f.tagged tags.serialization
        default := f.default
        factory := f.factory }
  | .model =>
    .ok <| declared.map fun f ↦
      { attr := f.attr
        hint := table.modelHint t f
        binding := f.tagged tags.binding
        serialization := tagName f.serialization
        default := f.default
        factory := f.factory }
  | .described =>
    .ok <| declared.map fun f ↦
      { attr := f.attr
        hint := f.hint
        binding := f.binding
        serialization := f.serialization
        default := f.default
        factory := f.factory }
  | .plain => .error (.unsupported (.notAStruct (Text.shown t.name)))

/-- The fields of a struct type; other hints are refused. -/
def fields (table : TypeTable) (tags : Tags) (h : Hint) : Except Error (List Field) :=
  let refused : Except Error (List Field) :=
    .error (.unsupported (.notAStruct ((h.name?.map Text.shown).getD h.fullText)))
  match h with
  | .struct name =>
    match table.find? name with
    | some t => table.structFields tags t
    | none => refused
  | .engineValue (some kind) => engineValueFields kind
  | _ => refused

end TypeTable

namespace TypeTable

/-- Why a type cannot be declared, if it cannot. The types of a model's fields are read at once, and
only names that are not known yet are left for later. Where fields carry metadata, no default may be
a value that can be changed, and types whose objects can be changed and types whose objects cannot
do not derive from each other. -/
def refusal? (table : TypeTable) (t : StructType) : Option HostFault :=
  match t.kind with
  | .model => t.fields.findSome? fun f ↦
    match f.hint.resolve (table.lookup f.attr) with
    | .error (.undefined _) | .ok _ => none
    | .error fault => some fault
  | .annotated =>
    let changeable := t.fields.findSome? fun f ↦
      (f.written.bind Literal.changeable?).map fun type ↦
        HostFault.value ("mutable default <class '" ++ type ++ "'> for field " ++ f.attr ++
          " is not allowed: use default_factory")
    let bases := ((table.lineage t).drop 1).filter (·.kind = .annotated)
    let mixed := if t.frozen && bases.any (!·.frozen) then
        some (HostFault.typing "a frozen type cannot extend one that is not frozen")
      else if !t.frozen && bases.any (·.frozen) then
        some (HostFault.typing "a type that is not frozen cannot extend a frozen one")
      else none
    changeable.or mixed
  | _ => none

end TypeTable

/-- The literal of the value that a field holds when nothing is supplied for it. -/
def Hint.zero (h : Hint) : Except Error Literal :=
  let (inner, optional) := h.unwrapOptional
  if optional then .ok .none
  else
    match inner with
    | .bool => .ok (.bool false)
    | .symbol => .ok (.symbol "")
    | .instanceName => .ok (.instanceName "")
    | .int _ => .ok (.int .unsized 0)
    | .float => .ok (.float .zero)
    | .text => .ok (.text "")
    | .mapping | .mappingOf .. => .ok (.mapping [])
    | other =>
      match other.items with
      | .none => .ok .none
      | .each asTuple _ => .ok (if asTuple then .tuple [] else .list [])
      | .ofOwnTypes => .error other.itemsRefused

namespace Field

/-- The name of the slot that a field goes to. -/
def engineName (f : Field) : String :=
  ((f.binding.filter fun s ↦ !s.isEmpty).or
    (f.serialization.filter fun s ↦ !s.isEmpty)).getD f.attr

/-- What the field of a new object holds. -/
def initial (f : Field) : Except Error Initial :=
  match f.factory, f.default with
  | some built, _ => .ok (.anew built)
  | none, some v => .ok (.shared v)
  | none, none => f.hint.zero.map .anew

end Field

end RuleMarshal
