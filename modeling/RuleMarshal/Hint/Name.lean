import RuleMarshal.Hint.Basic
import RuleMarshal.Surroundings
import RuleMarshal.Text.Shown
/-!
The texts of hints in messages. A hint has a short name, which for a composite one is the name of
its container alone, and a full text, in which a class that stands by itself is marked as a class
and one inside brackets is written plainly.
-/

set_option autoImplicit false
set_option relaxedAutoImplicit false

namespace RuleMarshal.Hint

/-- The name of a class and the name with the place where the class is defined. -/
def className? : Hint → Option (String × String)
  | .anyObject => builtin "object"
  | .noneType => builtin "NoneType"
  | .bool => builtin "bool"
  | .int .unsized => builtin "int"
  | .int t => value t.name
  | .float => builtin "float"
  | .text => builtin "str"
  | .symbol => value "Symbol"
  | .instanceName => value "InstanceName"
  | .complex => builtin "complex"
  | .bytes => builtin "bytes"
  | .set => builtin "set"
  | .mapping => builtin "dict"
  | .list => builtin "list"
  | .tuple => builtin "tuple"
  | .instanceHandle => some ("Instance", "clipsbridge.handles.Instance")
  | .factHandle => some ("Fact", "clipsbridge.handles.Fact")
  | .exception c => builtin c.name
  | .engineValue kind => value (kindTypeName kind)
  | .struct name => some (name, Surroundings.scripted.home ++ "." ++ name)
  | .otherClass name _ => some (lastPart name, name)
  | _ => Option.none
where
  lastPart (name : String) : String :=
    String.ofList (name.toList.reverse.takeWhile (· ≠ '.')).reverse
  builtin (name : String) : Option (String × String) := some (name, name)
  value (name : String) : Option (String × String) := some (name, "clipsbridge.values." ++ name)

/-- The name of a class that stands in front of brackets. -/
def nameOf (origin : HintAtom) : String := ((Hint.atom origin).className?.map (·.1)).getD ""

mutual

/-- The text of a hint inside the brackets of another. -/
def inner : Hint → String
  | .any => "typing.Any"
  | .none => "None"
  | .listOf h => "list[" ++ inner h ++ "]"
  | .tupleOf h => "tuple[" ++ inner h ++ ", ...]"
  | .sequenceOf h => "collections.abc.Sequence[" ++ inner h ++ "]"
  | .mutableSequenceOf h => "collections.abc.MutableSequence[" ++ inner h ++ "]"
  | .setOf h => "set[" ++ inner h ++ "]"
  | .mappingOf _ k v => "dict[" ++ inner k ++ ", " ++ inner v ++ "]"
  | .fixedTuple [] => "tuple[()]"
  | .fixedTuple hs => "tuple[" ++ ", ".intercalate (innerEach hs) ++ "]"
  | .union .word [a, .noneType] => "typing.Optional[" ++ inner a ++ "]"
  | .union .word [.noneType, b] => "typing.Optional[" ++ inner b ++ "]"
  | .union .word hs => "typing.Union[" ++ ", ".intercalate (innerEach hs) ++ "]"
  | .union .bar hs => " | ".intercalate (barEach hs)
  | .generic origin [] => nameOf origin ++ "[()]"
  | .generic origin hs => nameOf origin ++ "[" ++ ", ".intercalate (innerEach hs) ++ "]"
  | .forward written => Text.shown written
  | .reference written => "ForwardRef(" ++ Text.shown written ++ ")"
  | .datum d =>
    if d.shown = "Ellipsis" then "..."
    else if d.typeName = "builtin_function_or_method" then d.name.getD d.shown
    else d.shown
  | h => match h.className? with
    | some (_, place) => place
    | Option.none => ""

/-- The texts of hints inside brackets. -/
def innerEach : List Hint → List String
  | [] => []
  | h :: rest => inner h :: innerEach rest

/-- The texts of hints between bars. -/
def barEach : List Hint → List String
  | [] => []
  | h :: rest => (if h.isNoneType then "None" else inner h) :: barEach rest

end

/-- The text of a hint that stands by itself. -/
def fullText : Hint → String
  | .datum d => d.shown
  | h =>
    match h.className? with
    | some (_, place) => "<class '" ++ place ++ "'>"
    | Option.none => inner h

/-- The name of a hint, if it has one. -/
def name? : Hint → Option String
  | .any => some "Any"
  | .listOf _ => some "list"
  | .tupleOf _ | .fixedTuple _ => some "tuple"
  | .sequenceOf _ => some "Sequence"
  | .mutableSequenceOf _ => some "MutableSequence"
  | .setOf _ => some "set"
  | .mappingOf .. => some "dict"
  | .union .word [a, b] => some (if a.isNoneType || b.isNoneType then "Optional" else "Union")
  | .union .word _ => some "Union"
  | .generic origin _ => some (nameOf origin)
  | .datum d => d.name
  | h => h.className?.map (·.1)

/-- The short name of a hint, its full text where it has none. -/
def shortName (h : Hint) : String := h.name?.getD h.fullText

end RuleMarshal.Hint
