import RuleMarshal.Annotation.Construction
/-!
Functions that are known everywhere, and the members of values: what a class is called, the parts of
a number, and the functions that texts and rows bring with them. What a function does not take is
refused by the names of types.
-/

set_option autoImplicit false
set_option relaxedAutoImplicit false

namespace RuleMarshal.Annotation.Meaning

/-! ### Functions of one value -/

/-- How many elements a value has. -/
def lengthOf (m : Meaning) : Except HostFault Meaning :=
  match m with
  | .range a b c => .ok (.integer (rangeCount a b c))
  | .iterator _ => refused "object of type 'generator' has no len()"
  | m =>
    match m, m.elements with
    | .hint (.forward _), .ok ms => .ok (.integer ms.length)
    | .hint h, _ => refused ("object of type '" ++ h.operandName ++ "' has no len()")
    | _, .ok ms => .ok (.integer ms.length)
    | m, .error _ => refused ("object of type '" ++ m.typeName ++ "' has no len()")

/-- The size of a number. -/
def sizeOfNumber (m : Meaning) : Except HostFault Meaning :=
  match m, m.integer? with
  | _, some n => .ok (.integer n.natAbs)
  | .float x, _ => .ok (.float x.abs)
  | .scalar (.complex r i), _ => .ok (.float (Binary64.hypotenuse r i))
  | m, none => refused ("bad operand type for abs(): '" ++ m.typeName ++ "'")

/-- The character of a number. -/
def characterOf (m : Meaning) : Except HostFault Meaning := do
  let n ← asIndex m
  if n < 0 || 1114112 ≤ n then throw (.value "chr() arg not in range(0x110000)")
  return .text (String.ofList [Char.ofNat n.toNat])

/-- The number of a character. -/
def numberOf (m : Meaning) : Except HostFault Meaning :=
  match m with
  | .text s | .scalar (.bytes s) =>
    match s.toList with
    | [c] => .ok (.integer c.toNat)
    | cs => refused ("ord() expected a character, but string of length " ++ toString cs.length ++
        " found")
  | m => refused ("ord() expected string of length 1, but " ++ m.typeName ++ " found")

/-- The text of an integer in a base, the base marked in front. -/
def numeralIn (base : Nat) (mark : String) (m : Meaning) : Except HostFault Meaning := do
  return .text (digitsIn base mark (← asIndex m))

/-- Whether a value can be called. -/
def isCallable (m : Meaning) : Bool :=
  match m with
  | .function .. | .method .. => true
  | .hint (.forward _) | .hint .none | .hint (.union .bar _) => false
  | .hint (.datum d) =>
    d.typeName = "builtin_function_or_method" || d.typeName = "method_descriptor"
  | .hint _ => true
  | _ => false

/-- Functions that take exactly one value, by name. -/
def ofOne? : String → Option (Meaning → Except HostFault Meaning)
  | "len" => some lengthOf
  | "abs" => some sizeOfNumber
  | "repr" | "ascii" => some fun m ↦ .ok (.text m.shown)
  | "callable" => some fun m ↦ .ok (.truth m.isCallable)
  | "chr" => some characterOf
  | "ord" => some numberOf
  | "hex" => some (numeralIn 16 "0x")
  | "oct" => some (numeralIn 8 "0o")
  | "bin" => some (numeralIn 2 "0b")
  | "any" => some fun m ↦ do return .truth ((← m.elements).any holds)
  | "all" => some fun m ↦ do return .truth ((← m.elements).all holds)
  | "hash" => some fun m ↦ do return .integer (((← m.asKey).integer?).getD 1)
  | _ => none

/-! ### Members -/

/-- The names of the functions that values of a type bring with them. -/
def methodsOf : String → List String
  | "str" => ["capitalize", "casefold", "center", "count", "encode", "endswith", "expandtabs",
      "find", "format", "format_map", "index", "isalnum", "isalpha", "isascii", "isdecimal",
      "isdigit", "isidentifier", "islower", "isnumeric", "isprintable", "isspace", "istitle",
      "isupper", "join", "ljust", "lower", "lstrip", "partition", "removeprefix",
      "removesuffix", "replace", "rfind", "rindex", "rjust", "rpartition", "rsplit", "rstrip",
      "split", "splitlines", "startswith", "strip", "swapcase", "title", "translate", "upper",
      "zfill"]
  | "bytes" => ["count", "decode", "endswith", "find", "hex", "index", "join", "lower", "replace",
      "split", "startswith", "strip", "upper"]
  | "list" => ["append", "clear", "copy", "count", "extend", "index", "insert", "pop", "remove",
      "reverse", "sort"]
  | "tuple" => ["count", "index"]
  | "dict" => ["clear", "copy", "get", "items", "keys", "pop", "popitem", "setdefault", "update",
      "values"]
  | "set" => ["add", "clear", "copy", "difference", "discard", "intersection", "isdisjoint",
      "issubset", "issuperset", "pop", "remove", "symmetric_difference", "union", "update"]
  | "int" | "bool" => ["as_integer_ratio", "bit_count", "bit_length", "conjugate", "is_integer",
      "to_bytes"]
  | "float" => ["as_integer_ratio", "conjugate", "hex", "is_integer"]
  | "complex" => ["conjugate"]
  | _ => []

/-- The failure of a member that a value does not have. -/
def noMember (m : Meaning) (name : String) : HostFault :=
  .noAttribute ("'" ++ m.typeName ++ "' object has no attribute '" ++ name ++ "'")

/-- The place where a class is defined, without its name. -/
def moduleOf (h : Hint) : String :=
  match h.className? with
  | some (name, place) =>
    if name = place then "builtins"
    else String.ofList (place.toList.take (place.length - name.length - 1))
  | none => "typing"

/-- What a hint was made with in brackets. -/
def argumentsOf? : Hint → Option (List Hint)
  | .listOf h | .setOf h | .sequenceOf h | .mutableSequenceOf h => some [h]
  | .tupleOf h => some [h, .datum ellipsis]
  | .fixedTuple hs | .generic _ hs | .union _ hs => some hs
  | .mappingOf _ k v => some [k, v]
  | _ => none

/-- A member of a class or of a class with arguments. -/
def memberOfHint (h : Hint) (name : String) : Except HostFault Meaning :=
  let origin := originOf h
  let className := ((origin.name?).getD origin.operandName)
  match name with
  | "__name__" | "__qualname__" =>
    match h.name? with
    | some s => .ok (.text s)
    | none => .error (noMember (.hint h) name)
  | "__module__" => .ok (.text (moduleOf origin))
  | "__origin__" =>
    if origin.same h then .error (noMember (.hint h) name) else .ok (.hint origin)
  | "__args__" =>
    match argumentsOf? h with
    | some hs => .ok (.tuple (hs.map .hint))
    | none => .error (noMember (.hint h) name)
  | name =>
    if (methodsOf className).contains name then
      .ok (.hint (.datum
        { typeName := "method_descriptor", name := some name
          shown := "<method '" ++ name ++ "' of '" ++ className ++ "' objects>" }))
    else .error (noMember (.hint h) name)

/-- A part of a number. -/
def partOf? (s : Scalar) (name : String) : Option Meaning :=
  match s, s.integer?, name with
  | _, some n, "real" | _, some n, "numerator" => some (.integer n)
  | _, some _, "imag" => some (.integer 0)
  | _, some _, "denominator" => some (.integer 1)
  | .float x, _, "real" => some (.float x)
  | .float _, _, "imag" => some (.float .zero)
  | .complex r _, _, "real" => some (.float r)
  | .complex _ i, _, "imag" => some (.float i)
  | _, _, _ => none

/-- A member of a value. -/
def memberOf (m : Meaning) (name : String) : Except HostFault Meaning :=
  let bound : Except HostFault Meaning :=
    if (methodsOf m.typeName).contains name then .ok (.method m name)
    else .error (noMember m name)
  match m, name with
  | m, "__class__" => .ok (.hint m.typeOf)
  | .hint (.forward _), _ | .hint .none, _ => bound
  | .hint (.datum d), "__name__" | .hint (.datum d), "__qualname__" =>
    match d.name with
    | some s => .ok (.text s)
    | none => .error (noMember m name)
  | .hint (.datum _), _ => bound
  | .hint h, name => memberOfHint h name
  | .function .., "__name__" | .function .., "__qualname__" => .ok (.text "<lambda>")
  | .scalar s, name => (partOf? s name).elim bound .ok
  | .slice a _ _, "start" | .slice _ a _, "stop" | .slice _ _ a, "step" => .ok a
  | .range a _ _, "start" | .range _ a _, "stop" | .range _ _ a, "step" => .ok (.integer a)
  | _, _ => bound

/-! ### Functions of several values -/

/-- The first value that an ordering comparison with all others holds for. -/
def extreme (name op : String) (args : List Meaning) : Except HostFault Meaning := do
  let ms ← match args with
    | [] => refused (name ++ " expected at least 1 argument, got 0")
    | [m] => m.elements
    | ms => pure ms
  match ms with
  | [] => throw (.value (name ++ "() iterable argument is empty"))
  | first :: rest =>
    rest.foldlM (fun best m ↦ do return if ← ordered op m best then m else best) first

/-- A value put behind the last one of a sorted row that it is not below. -/
def insertSorted (m : Meaning) : List Meaning → Except HostFault (List Meaning)
  | [] => .ok [m]
  | first :: rest => do
    if ← ordered "<" m first then return m :: first :: rest
    return first :: (← insertSorted m rest)

/-- A row in order; values that are in no order stay as they are. -/
def sortedRow (ms : List Meaning) : Except HostFault (List Meaning) :=
  ms.foldlM (fun kept m ↦ insertSorted m kept) []

/-- The refusal of more than two arguments. -/
def atMostTwo (name : String) (args : List Meaning) : String :=
  name ++ "() takes at most 2 arguments (" ++ toString args.length ++ " given)"

/-- The sum of a row. -/
def sumOf (args : List Meaning) : Except HostFault Meaning :=
  match args with
  | [] => refused "sum() takes at least 1 positional argument (0 given)"
  | [row] => do (← row.elements).foldlM (combined "+") (.integer 0)
  | _ :: _ :: _ :: _ => refused (atMostTwo "sum" args)
  | [row, start] => do
    let ms ← row.elements
    match start with
    | .text _ => refused "sum() can't sum strings [use ''.join(seq) instead]"
    | .scalar (.bytes _) => refused "sum() can't sum bytes [use b''.join(seq) instead]"
    | start => ms.foldlM (combined "+") start

/-- A number rounded to a whole one or to some places, from a half to the even neighbour. -/
def rounded (args : List Meaning) : Except HostFault Meaning := do
  let nearest (num : Int) (den : Nat) : Int :=
    (if num < 0 then -1 else 1) * (Binary64.roundDiv num.natAbs den : Nat)
  match args with
  | [] => refused "round() missing required argument 'number' (pos 1)"
  | _ :: _ :: _ :: _ => refused (atMostTwo "round" args)
  | m :: rest =>
    if (toFloat m).toOption.isNone || !(m matches .scalar _) then
      refused ("type " ++ m.typeName ++ " doesn't define __round__ method")
    let places ← match rest with
      | [] | .absent :: _ => pure none
      | p :: _ => some <$> asIndex p
    match m, m.integer? with
    | _, some n =>
      match places with
      | some (.negSucc k) =>
        let unit := Nat.pow 10 (min (k + 1) 5000)
        return .integer (nearest n unit * unit)
      | _ => return .integer n
    | .float x, _ =>
      match x.fraction?, places with
      | some (a, b), none => return .integer (nearest a b)
      | some (a, b), some p =>
        let p := max (-400) (min p 400)
        match p with
        | .ofNat k =>
          let unit := Nat.pow 10 k
          return .float (Binary64.ofFraction (nearest (a * unit) b) unit x.isNegative)
        | .negSucc k =>
          let unit := Nat.pow 10 (k + 1)
          return .float (Binary64.ofFraction (nearest a (b * unit) * unit) 1 x.isNegative)
      | none, some _ => return .float x
      | none, none =>
        throw (if x = .nan then .value "cannot convert float NaN to integer"
          else .overflow "cannot convert float infinity to integer")
    | m, none => refused ("type " ++ m.typeName ++ " doesn't define __round__ method")

/-- A whole quotient and its rest. -/
def quotientAndRest (args : List Meaning) : Except HostFault Meaning :=
  match args with
  | [a, b] =>
    match combined "//" a b, combined "%" a b, a, b with
    | .ok q, .ok r, .scalar _, .scalar _ => .ok (.tuple [q, r])
    | .error e, _, .scalar s, .scalar t =>
      if (numbers? "//" s t).isSome then .error e else .error (operandsRefused "divmod()" a b)
    | _, _, _, _ => .error (operandsRefused "divmod()" a b)
  | args => refused ("divmod expected 2 arguments, got " ++ toString args.length)

/-- The rest of a power that is not below one under a division, squares first; the base is given
with the bits of the power. -/
def restOfSquares (k : Int) (base : Int) : List Bool → Int
  | [] => Int.fmod 1 k
  | bit :: rest =>
    let squares := restOfSquares k (Int.fmod (base * base) k) rest
    if bit then Int.fmod (base * squares) k else squares

/-- The rest of a power of integers under a division. -/
def restOfPower (m n k : Int) : Except HostFault Meaning :=
  if k = 0 then .error (.value "pow() 3rd argument cannot be 0")
  else if n < 0 then .error (.value "base is not invertible for the given modulus")
  else .ok (.integer (restOfSquares k m (bitsOf n.toNat)))

/-- A power, or the rest of a power under a division. -/
def powerFrom (args : List Meaning) : Except HostFault Meaning :=
  match args with
  | [] => refused "pow() missing required argument 'base' (pos 1)"
  | [_] => refused "pow() missing required argument 'exp' (pos 2)"
  | [a, b] => combined "**" a b
  | [a, b, .absent] => combined "**" a b
  | a :: b :: c :: _ =>
    match a.integer?, b.integer?, c.integer? with
    | some m, some n, some k => restOfPower m n k
    | _, _, _ => refused ("unsupported operand type(s) for ** or pow(): '" ++ a.typeName ++
        "', '" ++ b.typeName ++ "', '" ++ c.typeName ++ "'")

/-- The classes that a value stands for where one of several is asked for. -/
def classesOf? : Meaning → Option (List Hint)
  | .hint (.union .bar hs) => some hs
  | .tuple ms => ms.mapM fun
    | .hint h => if isClass h then some h else none
    | _ => none
  | .hint h => if isClass h then some [h] else none
  | _ => none

/-- Whether a meaning is a class with arguments. -/
def hasArguments : Meaning → Bool
  | .hint h => !(originOf h).same h
  | _ => false

/-- Whether a class comes from one of the classes that a value stands for. -/
def comesFromAny (name : String) (h : Hint) (asked : Meaning) : Except HostFault Meaning :=
  match classesOf? asked with
  | some hs => .ok (.truth (hs.any (comesFrom h)))
  | none =>
    if hasArguments asked then refused (name ++ "() argument 2 cannot be a parameterized generic")
    else
      let (one, several) := if name = "isinstance" then ("type", "types") else ("class", "classes")
      refused (name ++ "() arg 2 must be a " ++ one ++ ", a tuple of " ++ several ++
        ", or a union")

/-- What a function that is known everywhere gives for arguments. -/
def ofFunction (name : String) (args : List Meaning) (named : List (String × Meaning)) :
    Except HostFault Meaning := do
  if let some f := ofOne? name then
    noNames name named
    match args with
    | [m] => return (← f m)
    | args => refused (name ++ "() takes exactly one argument (" ++ toString args.length ++
        " given)")
  match name with
  | "max" => extreme name ">" args
  | "min" => extreme name "<" args
  | "sum" => sumOf (args ++ named.map (·.2))
  | "sorted" =>
    expectArguments name 1 1 args []
    let ms ← sortedRow (← (args.head?.getD .absent).elements)
    return .list (if ((named.lookup "reverse").map holds).getD false then ms.reverse else ms)
  | "round" => rounded (args ++ named.map (·.2))
  | "divmod" => quotientAndRest args
  | "pow" => powerFrom (args ++ named.map (·.2))
  | "isinstance" =>
    expectArguments name 2 2 args named
    comesFromAny name (args.head?.getD .absent).typeOf ((args.drop 1).head?.getD .absent)
  | "issubclass" =>
    expectArguments name 2 2 args named
    match args.head? with
    | some m =>
      let h := m.toHint
      if isClass h then comesFromAny name h ((args.drop 1).head?.getD .absent)
      else
        let asked := (args.drop 1).head?.getD .absent
        if hasArguments asked then discard (comesFromAny name .anyObject asked)
        refused "issubclass() arg 1 must be a class"
    | none => refused "issubclass() arg 1 must be a class"
  | "iter" =>
    expectArguments name 1 2 args named
    .iterator <$> (args.head?.getD .absent).elements
  | "next" =>
    expectArguments name 1 2 args named
    match args with
    | .iterator (m :: _) :: _ => return m
    | .iterator [] :: m :: _ => return m
    | .iterator [] :: _ => throw (.value "")
    | m :: _ => refused ("'" ++ m.typeName ++ "' object is not an iterator")
    | [] => return .absent
  | "getattr" =>
    expectArguments name 2 3 args named
    match args with
    | m :: .text member :: rest =>
      match m.memberOf member, rest with
      | .error (.noAttribute _), other :: _ => return other
      | found, _ => found
    | _ :: m :: _ => refused ("attribute name must be string, not '" ++ m.typeName ++ "'")
    | _ => return .absent
  | "hasattr" =>
    expectArguments name 2 2 args named
    match args with
    | [m, .text member] => return .truth (m.memberOf member).toOption.isSome
    | _ :: m :: _ => refused ("attribute name must be string, not '" ++ m.typeName ++ "'")
    | _ => return .absent
  | "format" => return .text ((args.head?.map written).getD "")
  | "print" => return .absent
  | name => refused (name ++ "() was called with arguments that it does not take")

/-! ### Functions of texts and rows -/

/-- The parts of a text between separators that are not empty, reading at most the given number of
characters; `here` is the part that is being read, backwards. -/
def partsWithin (separator : List Char) : Nat → List Char → List Char → List (List Char)
  | 0, here, _ => [here.reverse]
  | _ + 1, here, [] => [here.reverse]
  | fuel + 1, here, c :: rest =>
    if separator.isPrefixOf (c :: rest) then
      here.reverse :: partsWithin separator fuel [] ((c :: rest).drop separator.length)
    else partsWithin separator fuel (c :: here) rest

/-- A text between separators that are not empty. -/
def partsOf (separator s : String) : List String :=
  (partsWithin separator.toList (s.length + 1) [] s.toList).map String.ofList

/-- The words of a text, white space left out. -/
def wordsOf (s : String) : List String :=
  let plain := s.toList.map fun c ↦ if Text.isBlank c then ' ' else c
  (partsOf " " (String.ofList plain)).filter fun w ↦ !w.isEmpty

/-- The first letter of a text large, the others small. -/
def capitalized (s : String) : String :=
  match s.toList with
  | [] => ""
  | c :: rest => String.ofList (c.toUpper :: rest.map Char.toLower)

/-- A text as an argument of a function. -/
def textArgument (m : Meaning) (refusal : String) : Except HostFault String :=
  match m with
  | .text s => .ok s
  | m => refused (refusal ++ m.typeName)

/-- Texts joined with another between them. -/
def joinedWith (separator : String) (row : Meaning) : Except HostFault Meaning :=
  match row.elements with
  | .error _ => refused "can only join an iterable"
  | .ok ms => do
    let texts ← ms.mapIdx (fun i m ↦ (i, m)) |>.mapM fun p ↦
      textArgument p.2 ("sequence item " ++ toString p.1 ++ ": expected str instance, ") |>.mapError
        fun e ↦ .typing (e.argument ++ " found")
    return .text (separator.intercalate texts)

/-- What a function of a text gives. -/
def ofText (s name : String) (args : List Meaning) : Except HostFault Meaning := do
  let alone (value : Meaning) : Except HostFault Meaning :=
    if args.isEmpty then .ok value
    else refused ("str." ++ name ++ "() takes no arguments (" ++ toString args.length ++ " given)")
  let first := args.head?.getD .absent
  let one : Except HostFault Unit :=
    if args.length = 1 then .ok ()
    else refused ("str." ++ name ++ "() takes exactly one argument (" ++ toString args.length ++
      " given)")
  let position : Except HostFault (Option Nat) := do
    expectArguments name 1 3 args []
    let part ← textArgument first "must be str, not "
    return positionIn? part.toList 0 s.toList
  let cs := s.toList
  let ends (cs : List Char) : Except HostFault (List Char) := match first with
    | .absent => .ok (cs.dropWhile Text.isBlank)
    | .text chars => .ok (cs.dropWhile chars.toList.contains)
    | _ => refused (name ++ " arg must be None or str")
  match name with
  | "lower" | "casefold" => alone (.text (String.ofList (cs.map Char.toLower)))
  | "upper" => alone (.text (String.ofList (cs.map Char.toUpper)))
  | "capitalize" => alone (.text (capitalized s))
  | "title" => alone (.text (" ".intercalate ((partsOf " " s).map capitalized)))
  | "swapcase" => alone (.text (String.ofList (cs.map fun c ↦
      if c.isUpper then c.toLower else c.toUpper)))
  | "isdigit" | "isdecimal" | "isnumeric" => alone (.truth (!cs.isEmpty && cs.all Char.isDigit))
  | "isalpha" => alone (.truth (!cs.isEmpty && cs.all Char.isAlpha))
  | "isalnum" => alone (.truth (!cs.isEmpty && cs.all Char.isAlphanum))
  | "isspace" => alone (.truth (!cs.isEmpty && cs.all Text.isBlank))
  | "isupper" => alone (.truth (cs.any Char.isUpper && !cs.any Char.isLower))
  | "islower" => alone (.truth (cs.any Char.isLower && !cs.any Char.isUpper))
  | "isascii" => alone (.truth (cs.all fun c ↦ c.toNat < 128))
  | "isidentifier" => alone (.truth (Text.isName cs))
  | "strip" => do return .text (String.ofList (← ends (← ends cs).reverse).reverse)
  | "lstrip" => do return .text (String.ofList (← ends cs))
  | "rstrip" => do return .text (String.ofList (← ends cs.reverse).reverse)
  | "startswith" => do
    let part ← textArgument first
      "startswith first arg must be str or a tuple of str, not "
    return .truth (part.toList.isPrefixOf cs)
  | "endswith" => do
    let part ← textArgument first "endswith first arg must be str or a tuple of str, not "
    return .truth (part.toList.isSuffixOf cs)
  | "find" => do return .integer ((← position).elim (-1) (fun (n : Nat) ↦ (n : Int)))
  | "index" => do
    match ← position with
    | some n => return .integer n
    | none => throw (.value "substring not found")
  | "count" => do
    let part ← textArgument first "must be str, not "
    return .integer (if part.isEmpty then s.length + 1 else (partsOf part s).length - 1 : Nat)
  | "replace" => do
    expectArguments name 2 3 args []
    let old ← textArgument first "replace() argument 1 must be str, not "
    let new ← textArgument ((args.drop 1).head?.getD .absent)
      "replace() argument 2 must be str, not "
    if old.isEmpty then
      return .text (new ++ String.join (cs.map fun c ↦ String.ofList [c] ++ new))
    return .text (new.intercalate (partsOf old s))
  | "split" | "rsplit" =>
    match first with
    | .absent => return .list ((wordsOf s).map text)
    | .text separator =>
      if separator.isEmpty then throw (.value "empty separator")
      return .list ((partsOf separator s).map text)
    | m => refused ("must be str or None, not " ++ m.typeName)
  | "join" => do
    one
    joinedWith s first
  | name => refused ("str." ++ name ++ "() was called with arguments that it does not take")

/-- What a function of a value gives. -/
def ofMethod (receiver : Meaning) (name : String) (args : List Meaning) :
    Except HostFault Meaning := do
  let typed := receiver.typeName ++ "." ++ name
  let exactly (n : Nat) : Except HostFault Unit :=
    if args.length = n then .ok ()
    else if n = 0 then
      refused (typed ++ "() takes no arguments (" ++ toString args.length ++ " given)")
    else refused (typed ++ "() takes exactly one argument (" ++ toString args.length ++ " given)")
  let first := args.head?.getD .absent
  let changed : Except HostFault Meaning := .ok .absent
  match receiver, name with
  | .text s, name => ofText s name args
  | .list ms, "count" | .tuple ms, "count" => do
    exactly 1
    return .integer (ms.filter (equal first)).length
  | .list ms, "index" | .tuple ms, "index" =>
    expectArguments "index" 1 3 args []
    match ms.findIdx? (equal first) with
    | some i => return .integer i
    | none => throw (.value "not in list")
  | .list ms, "copy" => exactly 0 *> pure (.list ms)
  | .list ms, "pop" =>
    if ms.isEmpty then throw (.index "pop from empty list")
    itemOf (.list ms) (args.head?.getD (.integer (-1)))
  | .list _, "append" | .list _, "remove" => exactly 1 *> changed
  | .list _, "clear" | .list _, "reverse" => exactly 0 *> changed
  | .list _, "extend" => exactly 1 *> first.elements *> changed
  | .mapping es, "get" =>
    expectArguments "get" 1 2 args []
    let key ← first.asKey
    return ((es.find? fun e ↦ equal key e.1).map (·.2)).getD ((args.drop 1).head?.getD .absent)
  | .mapping es, "keys" => exactly 0 *> pure (.iterator (es.map (·.1)))
  | .mapping es, "values" => exactly 0 *> pure (.iterator (es.map (·.2)))
  | .mapping es, "items" => exactly 0 *> pure (.iterator (es.map fun e ↦ .tuple [e.1, e.2]))
  | .mapping es, "copy" => exactly 0 *> pure (.mapping es)
  | .set frozen ms, "union" => do
    let others ← (args.mapM elements : Except HostFault (List (List Meaning)))
    setOf frozen (ms ++ others.flatten)
  | .set frozen ms, "copy" => exactly 0 *> pure (.set frozen ms)
  | .scalar s, "conjugate" => do
    exactly 0
    match s with
    | .complex r i => return .scalar (.complex r i.neg)
    | s => return .scalar (s.integer?.elim s .integer)
  | m, name =>
    match name, m, m.integer? with
    | "bit_length", _, some n =>
      exactly 0
      return .integer (if n = 0 then 0 else n.natAbs.log2 + 1 : Nat)
    | "is_integer", _, some _ => exactly 0 *> pure (.truth true)
    | "is_integer", .float x, _ => exactly 0 *> pure (.truth x.toInt?.isSome)
    | _, _, _ => refused (typed ++ "() was called with arguments that it does not take")

/-! ### Calls -/

/-- What a call means of anything but a function that is written out. -/
def called (f : Meaning) (args : List Meaning) (named : List (String × Meaning)) :
    Except HostFault Meaning :=
  match f with
  | .method m name => ofMethod m name args
  | .hint (.datum d) =>
    match d.typeName, d.name, args with
    | "builtin_function_or_method", some name, args => ofFunction name args named
    | "method_descriptor", some name, m :: args => ofMethod m name args
    | "method_descriptor", some name, [] =>
      refused ("unbound method " ++ name ++ "() needs an argument")
    | _, _, _ => refused ("'" ++ d.typeName ++ "' object is not callable")
  | .hint (.forward _) => refused "'str' object is not callable"
  | .hint h => madeBy h args named
  | m => refused ("'" ++ m.typeName ++ "' object is not callable")

end RuleMarshal.Annotation.Meaning
