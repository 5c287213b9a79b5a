import RuleMarshal.Annotation.Operator
import RuleMarshal.Text.Numeral
/-!
Values that classes make when they are called: numbers, texts, rows and exceptions. A class that is
called without arguments makes its empty value. The other way round, every value has a type.
-/

set_option autoImplicit false
set_option relaxedAutoImplicit false

namespace RuleMarshal.Annotation.Meaning

/-! ### The types of values -/

/-- Classes of values that no hint of its own stands for. -/
def classNamed (name : String) : Hint := .otherClass name false

/-- The type of what a hint is as a value. -/
def typeOfHint : Hint → Hint
  | .none => .noneType
  | .forward _ => .text
  | .any => classNamed "typing._AnyMeta"
  | .atom (.datum d) => classNamed d.typeName
  | h => classNamed h.operandName

/-- The type of a value. -/
def typeOf : Meaning → Hint
  | .hint h => typeOfHint h
  | .scalar (.truth _) => .bool
  | .scalar (.integer _) => .int .unsized
  | .scalar (.float _) => .float
  | .scalar (.complex ..) => .complex
  | .scalar (.bytes _) => .bytes
  | .tuple _ => .tuple
  | .list _ => .list
  | .set false _ => .set
  | .mapping _ => .mapping
  | m => classNamed m.typeName

/-- The class that a class with arguments is made from; other hints pass through. -/
def originOf : Hint → Hint
  | .listOf _ => .list
  | .tupleOf _ | .fixedTuple _ => .tuple
  | .setOf _ => .set
  | .mappingOf .. => .mapping
  | .generic origin _ => .atom origin
  | h => h

/-- Whether a hint is a class that stands by itself. -/
def isClass (h : Hint) : Bool := h.operandName = "type"

/-- Whether one class is another or comes from it: every class comes from the root, truth values are
integers and exceptions are exceptions. -/
def comesFrom (h ancestor : Hint) : Bool :=
  h.same ancestor || ancestor.same .anyObject ||
    match h, ancestor with
    | .bool, .int .unsized => true
    | .exception _, .exception .exception => true
    | .otherClass _ isException, .exception .exception => isException
    | .exception _, .otherClass "BaseException" _ => true
    | .otherClass _ isException, .otherClass "BaseException" _ => isException
    | _, _ => false

/-! ### Arguments -/

/-- A refusal by a text. -/
def refused {α : Type} (text : String) : Except HostFault α := .error (.typing text)

/-- A number of arguments, in words. -/
def argumentCount (n : Nat) : String :=
  toString n ++ (if n = 1 then " argument" else " arguments")

/-- Refuses arguments by name. -/
def noNames (name : String) (named : List (String × Meaning)) : Except HostFault Unit :=
  if named.isEmpty then .ok () else refused (name ++ "() takes no keyword arguments")

/-- Refuses arguments by name, and too few or too many others. -/
def expectArguments (name : String) (low high : Nat) (args : List Meaning)
    (named : List (String × Meaning)) : Except HostFault Unit := do
  noNames name named
  let wrong (bound : String) (n : Nat) : Except HostFault Unit :=
    refused (name ++ " expected " ++ bound ++ argumentCount n ++ ", got " ++ toString args.length)
  if args.length < low then wrong (if low = high then "" else "at least ") low
  else if high < args.length then wrong (if low = high then "" else "at most ") high

/-- An integer that stands for a number of things. -/
def asIndex (m : Meaning) : Except HostFault Int :=
  match m.integer? with
  | some n => .ok n
  | none => refused ("'" ++ m.typeName ++ "' object cannot be interpreted as an integer")

/-! ### Numbers -/

/-- The integer that a value gives. -/
def toInteger (m : Meaning) : Except HostFault Int :=
  let written (s : String) : Except HostFault Int :=
    (Text.integer? s).elim (.error (.value "invalid literal for int() with base 10")) .ok
  match m, m.integer? with
  | _, some n => .ok n
  | .text s, _ | .scalar (.bytes s), _ => written s
  | .float .nan, _ => .error (.value "cannot convert float NaN to integer")
  | .float (.infinite _), _ => .error (.overflow "cannot convert float infinity to integer")
  | .float x, _ => .ok x.truncated
  | m, none => refused
      ("int() argument must be a string, a bytes-like object or a real number, not '" ++
        m.typeName ++ "'")

/-- The integer that a text writes in a base. -/
def integerInBase (s : String) (base : Int) : Except HostFault Int :=
  let unreadable : Except HostFault Int := .error (.value "invalid literal for int()")
  match Text.numeral? s with
  | some cs =>
    let (negative, digits) := Text.splitSign cs
    let digits := digits.map Char.toLower
    if digits.isEmpty || !(digits.all fun c ↦ (digitValue c : Int) < base) then unreadable
    else .ok ((if negative then -1 else 1) * valueOf base.toNat digits)
  | none => unreadable

/-- The float that a value gives. -/
def toFloat (m : Meaning) : Except HostFault Binary64 :=
  let written (s : String) : Except HostFault Binary64 :=
    (Text.float? s).elim (.error (.value "could not convert string to float")) .ok
  match m, m.integer? with
  | _, some n => floatOf n
  | .float x, _ => .ok x
  | .text s, _ | .scalar (.bytes s), _ => written s
  | m, none =>
    refused ("float() argument must be a string or a real number, not '" ++ m.typeName ++ "'")

/-- The complex number that values give as its parts. -/
def toComplex (args : List Meaning) : Except HostFault Meaning :=
  let parts (m : Meaning) : Option (Except HostFault (Binary64 × Binary64)) := match m with
    | .scalar s => s.parts?
    | _ => none
  match args with
  | [] => .ok (.scalar (.complex .zero .zero))
  | [.text _] => .error (.value "complex() arg is a malformed string")
  | .text _ :: _ => refused "complex() can't take second arg if first is a string"
  | [m] =>
    match parts m with
    | some p => do return .scalar (.complex (← p).1 (← p).2)
    | none => refused
        ("complex() first argument must be a string or a number, not '" ++ m.typeName ++ "'")
  | [_, .text _] => refused "complex() second arg can't be a string"
  | [a, b] =>
    match parts a, parts b with
    | some p, some q => do
      let (r, i) ← p
      let (s, j) ← q
      return .scalar (.complex (r.sub j) (i.add s))
    | none, _ => refused
        ("complex() first argument must be a string or a number, not '" ++ a.typeName ++ "'")
    | _, none => refused
        ("complex() second argument must be a number, not '" ++ b.typeName ++ "'")
  | args => refused ("complex() takes at most 2 arguments (" ++ toString args.length ++ " given)")

/-! ### Rows -/

/-- The byte string that a value gives: zeros, or the bytes of a row. -/
def toBytes (m : Meaning) : Except HostFault Meaning :=
  match m, m.integer? with
  | _, some n =>
    if n < 0 then .error (.value "negative count")
    else bounded n.toNat fun _ ↦ joinedBytes (List.replicate n.toNat (.integer 0))
  | .text _, _ => refused "string argument without an encoding"
  | .scalar (.bytes s), _ => .ok (.scalar (.bytes s))
  | m, none =>
    match m.elements with
    | .ok ms => do
      let ns ← ms.mapM asIndex
      if ns.all fun n ↦ 0 ≤ n && n < 256 then return joinedBytes ms
      else throw (.value "bytes must be in range(0, 256)")
    | .error _ => refused ("cannot convert '" ++ m.typeName ++ "' object to bytes")

/-- The name of the type of an argument; the absent value is called by its own. -/
def valueName (m : Meaning) : String :=
  match m with
  | .absent => "None"
  | m => m.typeName

/-- The text that a byte string holds, read character by character. -/
def decoded (m : Meaning) : Except HostFault Meaning :=
  match m with
  | .scalar (.bytes s) => .ok (.text s)
  | .text _ => refused "decoding str is not supported"
  | m => refused ("decoding to str: need a bytes-like object, " ++ m.typeName ++ " found")

/-- The byte string that a text is held by, character by character. -/
def encoded (m : Meaning) : Except HostFault Meaning :=
  match m with
  | .text s => .ok (.scalar (.bytes s))
  | _ => refused "encoding without a string argument"

/-- The entries that the pairs of a row give. -/
def pairsOf : Nat → List Meaning → Except HostFault (List (Meaning × Meaning))
  | _, [] => .ok []
  | position, m :: rest =>
    match m.elements with
    | .ok [k, v] => do return (k, v) :: (← pairsOf (position + 1) rest)
    | .ok _ => .error (.value "dictionary update sequence element has a wrong length")
    | .error _ => refused ("cannot convert dictionary update sequence element #" ++
        toString position ++ " to a sequence")

/-- The mapping that a value and named values give. -/
def toMapping (args : List Meaning) (named : List (String × Meaning)) :
    Except HostFault Meaning := do
  let entries ← match args with
    | [] => pure []
    | .mapping es :: _ => pure es
    | m :: _ => do pairsOf 0 (← m.elements)
  mappingOf (entries ++ named.map fun p ↦ (.text p.1, p.2))

/-- The range that bounds give. -/
def toRange : List Meaning → Except HostFault Meaning
  | [stop] => do return .range 0 (← asIndex stop) 1
  | [start, stop] => do return .range (← asIndex start) (← asIndex stop) 1
  | start :: stop :: step :: _ => do
    let (a, b, c) := (← asIndex start, ← asIndex stop, ← asIndex step)
    if c = 0 then throw (.value "range() arg 3 must not be zero")
    return .range a b c
  | [] => .ok (.range 0 0 1)

/-- The slice that bounds give. -/
def toSlice : List Meaning → Meaning
  | [stop] => .slice .absent stop .absent
  | start :: stop :: rest => .slice start stop (rest.head?.getD .absent)
  | [] => .slice .absent .absent .absent

/-- The exception of a class that arguments make. -/
def exceptionOf (name : String) (args : List Meaning) : Meaning :=
  .hint (.datum
    { typeName := name, shown := name ++ "(" ++ ", ".intercalate (shownEach args) ++ ")" })

/-! ### Calls of classes -/

/-- What a row of a class is made from: nothing, or the elements of one value. -/
def rowFrom (name : String) (args : List Meaning) (named : List (String × Meaning)) :
    Except HostFault (List Meaning) := do
  expectArguments name 0 1 args named
  return (← (args.mapM elements : Except HostFault (List (List Meaning)))).flatten

/-- The lengthened rows side by side, as long as the shortest. -/
def zipped (rows : List (List Meaning)) : List Meaning :=
  let length := ((rows.map List.length).min?).getD 0
  (List.range length).map fun i ↦ .tuple (rows.filterMap fun row ↦ row[i]?)

/-- What a class without a hint of its own makes. -/
def madeByOther (name : String) (isException : Bool) (args : List Meaning)
    (named : List (String × Meaning)) : Except HostFault Meaning := do
  match name with
  | "type" =>
    match args with
    | [m] => return .hint m.typeOf
    | [.text s, .tuple _, .mapping _] => return .hint (classNamed s)
    | [.text _, .tuple _, m] =>
      refused ("type.__new__() argument 3 must be dict, not " ++ m.typeName)
    | [.text _, m, _] => refused ("type.__new__() argument 2 must be tuple, not " ++ m.typeName)
    | [m, _, _] => refused ("type.__new__() argument 1 must be str, not " ++ m.typeName)
    | _ => refused "type() takes 1 or 3 arguments"
  | "range" =>
    expectArguments name 1 3 args named
    toRange args
  | "slice" =>
    expectArguments name 1 3 args named
    return toSlice args
  | "frozenset" => do setOf true (← rowFrom name args named)
  | "zip" => return .iterator (zipped (← (args.mapM elements : Except HostFault _)))
  | "enumerate" =>
    match args with
    | [] => refused "enumerate() missing required argument 'iterable'"
    | m :: rest =>
      let start ← (rest.head?.map asIndex).getD (.ok 0)
      return .iterator ((← m.elements).mapIdx fun i m ↦ .tuple [.integer (start + i), m])
  | "reversed" =>
    expectArguments name 1 1 args named
    let m := args.head?.getD .absent
    let isOrdered := match m with
      | .set .. | .iterator _ => false
      | _ => true
    match m.elements, isOrdered with
    | .ok ms, true => return .iterator ms.reverse
    | _, _ => refused ("'" ++ m.typeName ++ "' object is not reversible")
  | "bytearray" =>
    let m ← (args.head?.map toBytes).getD (.ok (.scalar (.bytes "")))
    return .hint (.datum
      { typeName := name, shown := "bytearray(" ++ m.shown ++ ")", holds := m.holds })
  | name =>
    if isException then
      noNames name named
      return exceptionOf name args
    else refused (name ++ "() was called with arguments that it does not take")

/-- What a class makes of arguments. -/
def madeBy (h : Hint) (args : List Meaning) (named : List (String × Meaning)) :
    Except HostFault Meaning := do
  let tooMany (name : String) (high : Nat) : Except HostFault Unit :=
    if high < args.length then
      refused (name ++ "() takes at most " ++ toString high ++ " arguments (" ++
        toString args.length ++ " given)")
    else .ok ()
  match originOf h with
  | .int .unsized =>
    if let some (name, _) := named.find? fun p ↦ p.1 ≠ "base" then
      refused (Text.shown name ++ " is an invalid keyword argument for int()")
    tooMany "int" 2
    match args ++ named.map (·.2) with
    | [] => return .integer 0
    | [m] => .integer <$> toInteger m
    | m :: base :: _ =>
      let base ← asIndex base
      match m with
      | .text s | .scalar (.bytes s) => .integer <$> integerInBase s base
      | _ => refused "int() can't convert non-string with explicit base"
  | .float =>
    expectArguments "float" 0 1 args named
    match args.head? with
    | some m => .float <$> toFloat m
    | none => return .float .zero
  | .bool =>
    expectArguments "bool" 0 1 args named
    return .truth ((args.head?.map holds).getD false)
  | .text =>
    tooMany "str" 3
    match args with
    | [] => return .text ""
    | [m] => return .text m.written
    | [m, .text _] => decoded m
    | [m, .text _, .text _] => decoded m
    | [_, .text _, m] => refused ("str() argument 'errors' must be str, not " ++ valueName m)
    | _ :: m :: _ => refused ("str() argument 'encoding' must be str, not " ++ valueName m)
  | .complex => toComplex args
  | .bytes =>
    match args with
    | [] => return .scalar (.bytes "")
    | [m] => toBytes m
    | [m, .text _] => encoded m
    | [m, .text _, .text _] => encoded m
    | [_, .text _, m] => refused ("bytes() argument 'errors' must be str, not " ++ valueName m)
    | [_, m] | [_, m, _] =>
      refused ("bytes() argument 'encoding' must be str, not " ++ valueName m)
    | args => refused ("bytes() takes at most 3 arguments (" ++ toString args.length ++ " given)")
  | .list => .list <$> rowFrom "list" args named
  | .tuple => .tuple <$> rowFrom "tuple" args named
  | .set => do setOf false (← rowFrom "set" args named)
  | .mapping =>
    expectArguments "dict" 0 1 args []
    toMapping args named
  | .anyObject =>
    if !args.isEmpty || !named.isEmpty then refused "object() takes no arguments"
    return .hint (.datum { typeName := "object", shown := "<object object>" })
  | .exception kind =>
    noNames kind.name named
    return exceptionOf kind.name args
  | .noneType =>
    if !args.isEmpty || !named.isEmpty then refused "NoneType takes no arguments"
    return .absent
  | .otherClass name isException => madeByOther name isException args named
  | .any => refused "Any cannot be instantiated"
  | h =>
    if h.fitsBar && !h.isUnion && !h.isAbsence then
      refused (h.shortName ++ "() was called with arguments that it does not take")
    else refused ("'" ++ h.operandName ++ "' object is not callable")

end RuleMarshal.Annotation.Meaning
