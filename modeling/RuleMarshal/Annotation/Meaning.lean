import RuleMarshal.Hint.Union
/-!
What the terms of a written type mean: mostly types, but also texts, plain values, rows of values
and functions. How meanings are shown, when they are equal, and which of them can stand where a
type should.
-/

set_option autoImplicit false
set_option relaxedAutoImplicit false

namespace RuleMarshal.Annotation

/-- What a term means. Types, texts, the absent value and functions that are known by name are
hints. A set that is frozen can be counted itself. A function that is written out keeps the names
around it with what they mean. -/
inductive Meaning where
  | hint (h : Hint)
  | scalar (s : Scalar)
  | tuple (items : List Meaning)
  | list (items : List Meaning)
  | set (frozen : Bool) (items : List Meaning)
  | mapping (entries : List (Meaning × Meaning))
  | range (start stop step : Int)
  | slice (start stop step : Meaning)
  | iterator (items : List Meaning)
  | function (params : List WrittenParameter) (optional : List String) (defaults : List Meaning)
    (body : Term) (names : List String) (values : List Meaning)
  | method (receiver : Meaning) (name : String)
  deriving Inhabited

/-- The value of the three dots. -/
def ellipsis : Datum := { typeName := "ellipsis", shown := "Ellipsis" }

namespace Meaning

/-- A text. -/
@[match_pattern] abbrev text (s : String) : Meaning := .hint (.forward s)

/-- The absent value. -/
@[match_pattern] abbrev absent : Meaning := .hint .none

/-- A truth value. -/
@[match_pattern] abbrev truth (b : Bool) : Meaning := .scalar (.truth b)

/-- An integer. -/
@[match_pattern] abbrev integer (n : Int) : Meaning := .scalar (.integer n)

/-- A float. -/
@[match_pattern] abbrev float (x : Binary64) : Meaning := .scalar (.float x)

/-- The name of the type of a meaning. -/
def typeName : Meaning → String
  | .hint h => h.operandName
  | .scalar s => s.typeName
  | .tuple _ => "tuple"
  | .list _ => "list"
  | .set frozen _ => if frozen then "frozenset" else "set"
  | .mapping .. => "dict"
  | .range .. => "range"
  | .slice .. => "slice"
  | .iterator _ => "generator"
  | .function .. => "function"
  | .method .. => "builtin_function_or_method"

mutual

/-- How a meaning is shown. -/
def shown : Meaning → String
  | .hint h => h.fullText
  | .scalar s => s.shown
  | .tuple [m] => "(" ++ shown m ++ ",)"
  | .tuple ms => "(" ++ ", ".intercalate (shownEach ms) ++ ")"
  | .list ms => "[" ++ ", ".intercalate (shownEach ms) ++ "]"
  | .set false [] => "set()"
  | .set true [] => "frozenset()"
  | .set false ms => "\x7b" ++ ", ".intercalate (shownEach ms) ++ "\x7d"
  | .set true ms => "frozenset(\x7b" ++ ", ".intercalate (shownEach ms) ++ "\x7d)"
  | .mapping es => "\x7b" ++ ", ".intercalate (shownEntries es) ++ "\x7d"
  | .range a b 1 => "range(" ++ toString a ++ ", " ++ toString b ++ ")"
  | .range a b c => "range(" ++ toString a ++ ", " ++ toString b ++ ", " ++ toString c ++ ")"
  | .slice a b c => "slice(" ++ shown a ++ ", " ++ shown b ++ ", " ++ shown c ++ ")"
  | .iterator _ => "<generator object <genexpr>>"
  | .function .. => "<function <lambda>>"
  | .method m name => "<built-in method " ++ name ++ " of " ++ m.typeName ++ " object>"

/-- How some meanings are shown. -/
def shownEach : List Meaning → List String
  | [] => []
  | m :: rest => shown m :: shownEach rest

/-- How the entries of a mapping are shown. -/
def shownEntries : List (Meaning × Meaning) → List String
  | [] => []
  | (k, v) :: rest => (shown k ++ ": " ++ shown v) :: shownEntries rest

end

/-- Whether a meaning counts as true. -/
def holds : Meaning → Bool
  | .absent => false
  | .text s => !s.isEmpty
  | .hint (.datum d) => d.holds
  | .scalar s => s.holds
  | .tuple ms | .list ms | .set _ ms => !ms.isEmpty
  | .mapping es => !es.isEmpty
  | .range a b c => if 0 < c then a < b else b < a
  | _ => true

mutual

/-- The name of the type that keeps a meaning from being an element of a set or a key. -/
def unhashable? : Meaning → Option String
  | .list _ => some "list"
  | .set false _ => some "set"
  | .mapping .. => some "dict"
  | .slice .. => some "slice"
  | .hint h => h.uncountable?
  | .tuple ms => unhashableAmong? ms
  | _ => none

/-- The first such name among some meanings. -/
def unhashableAmong? : List Meaning → Option String
  | [] => none
  | m :: rest => (unhashable? m).or (unhashableAmong? rest)

end

/-- A meaning as a hint: what is no type is a value where a type should be. -/
def toHint : Meaning → Hint
  | .hint h => h
  | .scalar s => .datum s.datum
  | .function .. =>
    .datum { typeName := "function", name := some "<lambda>", shown := "<function <lambda>>" }
  | m => .datum
    { typeName := m.typeName, shown := m.shown, holds := m.holds
      countable := m.unhashable?.isNone }

/-- The arguments that an index gives. -/
def arguments : Meaning → List Hint
  | .tuple ms => ms.map toHint
  | m => [m.toHint]

/-- A meaning as a type: the absent value stands for its type, and a tuple is refused. -/
def toType (m : Meaning) : Except HostFault Hint :=
  match m with
  | .absent => .ok .noneType
  | .tuple _ =>
    .error (.typing ("Forward references must evaluate to types. Got " ++
      String.ofList (m.shown.toList.take 100) ++ "."))
  | m => .ok m.toHint

mutual

/-- Whether two meanings are equal: numbers by what they count, rows one by one. -/
def equal : Meaning → Meaning → Bool
  | .hint g, .hint h => g.same h
  | .scalar a, .scalar b => a.equal b
  | .tuple as, .tuple bs => equalEach as bs
  | .list as, .list bs => equalEach as bs
  | .set _ as, .set _ bs => as.length = bs.length && allAmong as bs
  | .mapping as, .mapping bs => as.length = bs.length && entriesAmong as bs
  | .range a b c, .range d e f => a = d && b = e && c = f
  | .slice a b c, .slice d e f => equal a d && equal b e && equal c f
  | _, _ => false

/-- Whether meanings are equal one by one. -/
def equalEach : List Meaning → List Meaning → Bool
  | [], [] => true
  | a :: as, b :: bs => equal a b && equalEach as bs
  | _, _ => false

/-- Whether each meaning is equal to one among others. -/
def allAmong : List Meaning → List Meaning → Bool
  | [], _ => true
  | a :: as, bs => bs.any (equal a) && allAmong as bs

/-- Whether each entry is equal to one among others. -/
def entriesAmong : List (Meaning × Meaning) → List (Meaning × Meaning) → Bool
  | [], _ => true
  | (k, v) :: rest, bs => bs.any (fun b ↦ equal k b.1 && equal v b.2) && entriesAmong rest bs

end

/-- A meaning that can be an element of a set or a key; others are refused. -/
def asKey (m : Meaning) : Except HostFault Meaning :=
  match m.unhashable? with
  | some name => .error (.typing ("unhashable type: '" ++ name ++ "'"))
  | none => .ok m

/-- The set of some meanings, first ones kept. -/
def setOf (frozen : Bool) (ms : List Meaning) : Except HostFault Meaning := do
  let keys ← ms.mapM asKey
  return .set frozen (keys.foldl (fun kept m ↦ if kept.any (equal m) then kept else kept ++ [m]) [])

/-- An entry put into others: a key that comes again keeps its place and gets another value. -/
def putEntry : List (Meaning × Meaning) → Meaning → Meaning → List (Meaning × Meaning)
  | [], k, v => [(k, v)]
  | e :: rest, k, v => if e.1.equal k then (e.1, v) :: rest else e :: putEntry rest k v

/-- The mapping of some entries. -/
def mappingOf (entries : List (Meaning × Meaning)) : Except HostFault Meaning :=
  .mapping <$> entries.foldlM (fun kept e ↦ do return putEntry kept (← e.1.asKey) e.2) []

/-- How many integers a range has. -/
def rangeCount (start stop step : Int) : Nat :=
  if 0 < step then ((stop - start + step - 1) / step).toNat
  else if step < 0 then ((start - stop - step - 1) / (-step)).toNat
  else 0

/-- How long a row may get before it is given up. -/
def rowLimit : Nat := 1000000

/-- A row that is not too long. -/
def bounded {α : Type} (count : Nat) (row : Unit → α) : Except HostFault α :=
  if rowLimit < count then .error (.overflow "cannot fit 'int' into an index-sized integer")
  else .ok (row ())

/-- A class with arguments that is spread, as one element. -/
def spread (h : Hint) : Meaning :=
  .hint (.datum { typeName := h.operandName, name := some "Unpack", shown := "*" ++ h.inner })

/-- The elements that a meaning gives one after the other. -/
def elements (m : Meaning) : Except HostFault (List Meaning) :=
  match m with
  | .tuple ms | .list ms | .set _ ms | .iterator ms => .ok ms
  | .mapping es => .ok (es.map (·.1))
  | .text s => .ok (s.toList.map fun c ↦ .text (String.ofList [c]))
  | .scalar (.bytes s) => .ok (s.toList.map fun c ↦ .integer c.toNat)
  | .range a b c =>
    let count := rangeCount a b c
    bounded count fun _ ↦ (List.range count).map fun (i : Nat) ↦ .integer (a + c * i)
  | m =>
    match m.toHint with
    | .listOf _ | .tupleOf _ | .fixedTuple _ | .sequenceOf _ | .mutableSequenceOf _ | .setOf _
    | .mappingOf .. | .generic .. => .ok [spread m.toHint]
    | _ => .error (.typing ("'" ++ m.typeName ++ "' object is not iterable"))

end Meaning

end RuleMarshal.Annotation
