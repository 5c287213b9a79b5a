/-!
Hints: the types that a host program declares for its fields, parameters and destinations. A hint
is an atom or is built from hints. Two hints are the same when they are built alike; the members
of a union count as a set, and where a hint was written does not matter.
-/

set_option autoImplicit false
set_option relaxedAutoImplicit false

namespace RuleMarshal

/-- The widths that integer types come in. -/
inductive IntWidth where
  | w8 | w16 | w32 | w64
  deriving DecidableEq, Repr

/-- The number of bits of a width. -/
def IntWidth.bits : IntWidth → Nat
  | .w8 => 8
  | .w16 => 16
  | .w32 => 32
  | .w64 => 64

/-- Integer types: the one without a width, the family of those with a width, and its members. -/
inductive IntType where
  | unsized
  | family
  | sized (signed : Bool) (width : IntWidth)
  deriving DecidableEq, Repr

namespace IntType

/-- The least integer of the engine. -/
def engineLow : Int := -9223372036854775808

/-- The greatest integer of the engine. -/
def engineHigh : Int := 9223372036854775807

/-- The least integer of a type. -/
def low : IntType → Int
  | .sized true width => -(Nat.pow 2 (width.bits - 1) : Nat)
  | .sized false _ => 0
  | _ => engineLow

/-- The greatest integer of a type. -/
def high : IntType → Int
  | .sized true width => (Nat.pow 2 (width.bits - 1) : Nat) - 1
  | .sized false width => (Nat.pow 2 width.bits : Nat) - 1
  | _ => engineHigh

/-- The name of an integer type. -/
def name : IntType → String
  | .unsized => "int"
  | .family => "SizedInt"
  | .sized signed width =>
    (if signed then "Int" else "UInt") ++ String.ofList (Nat.toDigits 10 width.bits)

end IntType

/-- The kinds of values that the engine works with. -/
inductive ValueKind where
  | integer | float | string | symbol | instanceName | multifield
  | instanceAddress | factAddress | externalAddress
  deriving DecidableEq, Repr

namespace ValueKind

/-- The engine's word for a kind. -/
def word : ValueKind → String
  | .integer => "INTEGER"
  | .float => "FLOAT"
  | .string => "STRING"
  | .symbol => "SYMBOL"
  | .instanceName => "INSTANCE-NAME"
  | .multifield => "MULTIFIELD"
  | .instanceAddress => "INSTANCE-ADDRESS"
  | .factAddress => "FACT-ADDRESS"
  | .externalAddress => "EXTERNAL-ADDRESS"

/-- The host's name for the type of engine values of a kind. -/
def typeName : ValueKind → String
  | .integer => "IntegerValue"
  | .float => "FloatValue"
  | .string => "StringValue"
  | .symbol => "SymbolValue"
  | .instanceName => "InstanceNameValue"
  | .multifield => "MultifieldValue"
  | .instanceAddress => "InstanceAddressValue"
  | .factAddress => "FactAddressValue"
  | .externalAddress => "ExternalAddressValue"

/-- All kinds. -/
def all : List ValueKind :=
  [.integer, .float, .string, .symbol, .instanceName, .multifield, .instanceAddress,
    .factAddress, .externalAddress]

/-- The kind whose engine values have a type of the given name. -/
def ofTypeName? (name : String) : Option ValueKind := all.find? (·.typeName = name)

end ValueKind

/-- The host's word for a kind that may be unknown. -/
def kindWord : Option ValueKind → String
  | some kind => kind.word
  | none => "ANY"

/-- The host's type name for a kind that may be unknown. -/
def kindTypeName : Option ValueKind → String
  | some kind => kind.typeName
  | none => "EngineValue"

/-- Classes of exceptions that a host program may raise or hand over. -/
inductive ExceptionClass where
  | exception | value | key | runtime | zeroDivision | mistyped
  | marshal | unsupported | outOfRange | callback
  deriving DecidableEq, Repr

/-- The name of an exception class. -/
def ExceptionClass.name : ExceptionClass → String
  | .exception => "Exception"
  | .value => "ValueError"
  | .key => "KeyError"
  | .runtime => "RuntimeError"
  | .zeroDivision => "ZeroDivisionError"
  | .mistyped => "TypeError"
  | .marshal => "BridgeError"
  | .unsupported => "UnsupportedTypeError"
  | .outOfRange => "OutOfRangeError"
  | .callback => "CallbackError"

/-- How a union is written: by a word in front of its members, or by bars between them. -/
inductive UnionSpelling where
  | word | bar
  deriving DecidableEq, Repr

/-- A value that stands where a type should: the name of its type, its own name if it has one, how
it is shown, whether it counts as true, and whether it can be counted in a set. -/
structure Datum where
  typeName : String
  name : Option String := none
  shown : String
  holds : Bool := true
  countable : Bool := true
  deriving DecidableEq, Repr

/-- Hints that are not built from others: the dynamic ones, the classes, the texts that stand for a
type, free or bound into a union, and values that are no types at all. -/
inductive HintAtom where
  | any | anyObject | none | noneType
  | bool | int (width : IntType) | float | text | symbol | instanceName
  | complex | bytes | set
  | mapping | list | tuple
  | instanceHandle | factHandle
  | exception (kind : ExceptionClass)
  | engineValue (kind : Option ValueKind)
  | struct (name : String)
  | otherClass (name : String) (isException : Bool)
  | forward (written : String)
  | reference (written : String)
  | datum (d : Datum)
  deriving DecidableEq, Repr

/-- Where a mapping with declared keys and values is made, by which such types are told apart. One
is made where it is written. In a union by a word it is made once for all unions of these members,
whichever way leads to it. One that is made anew by every reading of its declaration carries the
number of the reading once there is one. -/
inductive Place where
  | written (number : Nat)
  | inUnion (members : String) (way : Nat)
  | anew (place : Place)
  | reading (number : Nat) (place : Place)
  deriving DecidableEq, Repr

namespace Place

/-- A place that is made anew by every reading. -/
def renewed : Place → Place
  | .anew place => .anew place
  | place => .anew place

/-- A place as the reading of a number gives it. -/
def inReading (number : Nat) : Place → Place
  | .anew place => .reading number place
  | place => place

/-- A place whose declaration is read once for all. -/
def readOnce : Place → Place
  | .anew place => place
  | place => place

end Place

/-- A type that a host program declares. A mapping with declared keys and values carries the place
where it is made. A class with arguments that no other form has room for is generic, and carries its
place too: mappings are among these, declared with other than two arguments. -/
inductive Hint where
  | atom (atom : HintAtom)
  | listOf (item : Hint)
  | tupleOf (item : Hint)
  | fixedTuple (items : List Hint)
  | sequenceOf (item : Hint)
  | mutableSequenceOf (item : Hint)
  | setOf (item : Hint)
  | mappingOf (place : Place) (key value : Hint)
  | generic {place : Place} (origin : HintAtom) (args : List Hint)
  | union (spelling : UnionSpelling) (members : List Hint)
  deriving Inhabited

namespace Hint

/-! ### Atoms -/

/-- The hint that lets every value through. -/
@[match_pattern] abbrev any : Hint := .atom .any

/-- The root of all classes, which lets every value through too. -/
@[match_pattern] abbrev anyObject : Hint := .atom .anyObject

/-- The absent value used as a hint. -/
@[match_pattern] abbrev none : Hint := .atom .none

/-- The type of the absent value. -/
@[match_pattern] abbrev noneType : Hint := .atom .noneType

/-- Truth values. -/
@[match_pattern] abbrev bool : Hint := .atom .bool

/-- Floating-point numbers. -/
@[match_pattern] abbrev float : Hint := .atom .float

/-- Texts. -/
@[match_pattern] abbrev text : Hint := .atom .text

/-- Symbols of the engine. -/
@[match_pattern] abbrev symbol : Hint := .atom .symbol

/-- Names of instances of the engine. -/
@[match_pattern] abbrev instanceName : Hint := .atom .instanceName

/-- Complex numbers. -/
@[match_pattern] abbrev complex : Hint := .atom .complex

/-- Byte strings. -/
@[match_pattern] abbrev bytes : Hint := .atom .bytes

/-- Sets of anything. -/
@[match_pattern] abbrev set : Hint := .atom .set

/-- Mappings of anything. -/
@[match_pattern] abbrev mapping : Hint := .atom .mapping

/-- Lists of anything. -/
@[match_pattern] abbrev list : Hint := .atom .list

/-- Tuples of anything. -/
@[match_pattern] abbrev tuple : Hint := .atom .tuple

/-- Handles on instances. -/
@[match_pattern] abbrev instanceHandle : Hint := .atom .instanceHandle

/-- Handles on facts. -/
@[match_pattern] abbrev factHandle : Hint := .atom .factHandle

/-- Integers of a type. -/
@[match_pattern] abbrev int (width : IntType) : Hint := .atom (.int width)

/-- Exceptions of a class. -/
@[match_pattern] abbrev exception (kind : ExceptionClass) : Hint := .atom (.exception kind)

/-- Engine values of a kind, or of any. -/
@[match_pattern] abbrev engineValue (kind : Option ValueKind) : Hint := .atom (.engineValue kind)

/-- Objects of a struct type. -/
@[match_pattern] abbrev struct (name : String) : Hint := .atom (.struct name)

/-- A class that no hint of its own stands for. -/
@[match_pattern] abbrev otherClass (name : String) (isException : Bool) : Hint :=
  .atom (.otherClass name isException)

/-- A text that stands for a type. -/
@[match_pattern] abbrev forward (written : String) : Hint := .atom (.forward written)

/-- A text that stands for a type as a member of a union. -/
@[match_pattern] abbrev reference (written : String) : Hint := .atom (.reference written)

/-- A value where a type should be. -/
@[match_pattern] abbrev datum (d : Datum) : Hint := .atom (.datum d)

/-! ### Sameness -/

mutual

/-- Whether two hints are the same type. -/
def same : Hint → Hint → Bool
  | .listOf a, .listOf b => same a b
  | .tupleOf a, .tupleOf b => same a b
  | .sequenceOf a, .sequenceOf b => same a b
  | .mutableSequenceOf a, .mutableSequenceOf b => same a b
  | .setOf a, .setOf b => same a b
  | .mappingOf _ k v, .mappingOf _ l w => same k l && same v w
  | .fixedTuple as, .fixedTuple bs => sameEach as bs
  | .generic a as, .generic b bs => a = b && sameEach as bs
  | .union _ as, .union _ bs => eachAmong as bs && bs.all fun b ↦ someSame as b
  | .atom a, .atom b => a = b
  | _, _ => false

/-- Whether two lists of hints are the same one by one. -/
def sameEach : List Hint → List Hint → Bool
  | [], [] => true
  | a :: as, b :: bs => same a b && sameEach as bs
  | _, _ => false

/-- Whether each hint of the first list is among the second. -/
def eachAmong : List Hint → List Hint → Bool
  | [], _ => true
  | a :: as, bs => bs.any (same a) && eachAmong as bs

/-- Whether some hint of the list is the same as the given one. -/
def someSame : List Hint → Hint → Bool
  | [], _ => false
  | a :: as, b => same a b || someSame as b

end

/-! ### Unions -/

/-- Whether a hint is the type of the absent value. -/
def isNoneType : Hint → Bool
  | .noneType => true
  | _ => false

/-- Whether a hint is the absent value itself. -/
def isAbsence : Hint → Bool
  | .none => true
  | _ => false

/-- Whether a hint is a union. -/
def isUnion : Hint → Bool
  | .union .. => true
  | _ => false

/-- Whether a hint lets every value through. -/
def isDynamic : Hint → Bool
  | .any | .anyObject | .none => true
  | _ => false

/-- The hints without repetitions, first ones kept. -/
def distinct (hints : List Hint) : List Hint :=
  (hints.foldl (fun kept h ↦ if kept.any (same h) then kept else h :: kept) []).reverse

/-- The members that a hint brings into a union. -/
def unionMembers : Hint → List Hint
  | .union _ members => members
  | .none => [.noneType]
  | h => [h]

/-- Splits a union with the absent value into the rest and `true`; other hints pass through. -/
def unwrapOptional : Hint → Hint × Bool
  | .union spelling members =>
    if members.any isNoneType then
      match members.filter fun m ↦ !m.isNoneType with
      | [m] => (m, true)
      | rest => (.union .word rest, true)
    else (.union spelling members, false)
  | h => (h, false)

/-! ### Places -/

/-- Whether a union is one type wherever it is written. One by a word is. One of the absent value's
type and several others is too, because it is used as the union of those by a word. -/
def isOneType (spelling : UnionSpelling) (members : List Hint) : Bool :=
  spelling = .word ||
    (members.any isNoneType && 1 < (members.filter fun m ↦ !m.isNoneType).length)

mutual

/-- A hint with other places for its mappings, those in unions that are one type everywhere apart. A
place is given together with the way that leads to it, as a number. -/
def mapPlaces (f : Nat → Place → Place) (way : Nat) : Hint → Hint
  | .atom a => .atom a
  | .listOf h => .listOf (mapPlaces f way h)
  | .tupleOf h => .tupleOf (mapPlaces f way h)
  | .fixedTuple hs => .fixedTuple (mapPlacesEach f way hs)
  | .sequenceOf h => .sequenceOf (mapPlaces f way h)
  | .mutableSequenceOf h => .mutableSequenceOf (mapPlaces f way h)
  | .setOf h => .setOf (mapPlaces f way h)
  | .mappingOf place k v =>
    .mappingOf (f way place) (mapPlaces f (2 * way) k) (mapPlaces f (2 * way + 1) v)
  | @generic place origin hs => @generic (f way place) origin (mapPlacesEach f way hs)
  | .union spelling hs =>
    if isOneType spelling hs then .union spelling hs
    else .union spelling (mapPlacesEach f way hs)

/-- Hints with other places for their mappings. -/
def mapPlacesEach (f : Nat → Place → Place) (way : Nat) : List Hint → List Hint
  | [] => []
  | h :: rest => mapPlaces f (2 * way) h :: mapPlacesEach f (2 * way + 1) rest

end

/-- A hint whose mappings are made anew by every reading. -/
def renewed (h : Hint) : Hint := h.mapPlaces (fun _ ↦ Place.renewed) 1

/-- A hint as the reading of a number gives it. -/
def inReading (number : Nat) (h : Hint) : Hint := h.mapPlaces (fun _ ↦ Place.inReading number) 1

/-- A hint whose declaration is read once for all. -/
def readOnce (h : Hint) : Hint := h.mapPlaces (fun _ ↦ Place.readOnce) 1

/-! ### Sequences and mappings -/

/-- What a hint says about sequences: nothing, that each item has one type, or that items have
types of their own, which no sequence of the engine can hold. -/
inductive Items where
  | none
  | each (asTuple : Bool) (item : Hint)
  | ofOwnTypes

/-- What an item type says about sequences: the absent value is none. -/
def Items.ofItem (asTuple : Bool) (item : Hint) : Items :=
  if item.isAbsence then .none else .each asTuple item

mutual

/-- The name of the type that keeps a hint from being counted in a set; types can be counted. -/
def uncountable? : Hint → Option String
  | .atom (.datum d) => if d.countable then Option.none else some d.typeName
  | .atom _ => Option.none
  | .listOf h | .tupleOf h | .sequenceOf h | .mutableSequenceOf h | .setOf h => uncountable? h
  | .mappingOf _ k v => (uncountable? k).or (uncountable? v)
  | .fixedTuple hs | .generic _ hs | .union _ hs => uncountableAmong? hs

/-- The first such name among some hints. -/
def uncountableAmong? : List Hint → Option String
  | [] => Option.none
  | h :: rest => (uncountable? h).or (uncountableAmong? rest)

end

/-- Whether all items of a tuple have the type of the first. -/
def isUniform (first : Hint) (rest : List Hint) : Bool :=
  first.uncountable?.isNone && rest.all (same first)

/-- The sequence that a hint declares. -/
def items : Hint → Items
  | .list => .each false .any
  | .tuple => .each true .any
  | .listOf h => .ofItem false h
  | .sequenceOf h => .ofItem false h
  | .mutableSequenceOf h => .ofItem false h
  | .tupleOf h => .ofItem true h
  | .fixedTuple [] => .each true .any
  | .fixedTuple (h :: rest) => if h.isUniform rest then .ofItem true h else .ofOwnTypes
  | .generic .list [] => .each false .any
  | .generic .list (h :: _) => .ofItem false h
  | _ => .none

/-- The value type of a mapping, dynamic where none is declared; none for other hints. -/
def mappingValue? : Hint → Option Hint
  | .mapping => some .any
  | .mappingOf _ _ value => some value
  | .generic .mapping _ => some .any
  | _ => Option.none

/-- Whether a hint is a mapping. -/
def isMapping (h : Hint) : Bool := h.mappingValue?.isSome

end Hint

end RuleMarshal
