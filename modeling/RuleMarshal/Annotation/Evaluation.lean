import RuleMarshal.Annotation.Builtin
/-!
What the terms of a written type mean, where names mean what a scope says. Brackets behind a class
give it arguments; all else means what it does for values. A function that is written out sees the
names around it that were given there, and of the others only those of the scope's inner part.
Evaluation is bounded by a depth, beyond which it fails.
-/

set_option autoImplicit false
set_option relaxedAutoImplicit false

namespace RuleMarshal.Annotation

/-- What names mean: where a type is written, and inside functions there. Struct types that are made
by calls have fields, with a default or without, and some have members. -/
structure Scope where
  outer : String → Option Meaning
  inner : String → Option Meaning
  fields : String → Option (List (String × Option Meaning)) := fun _ ↦ none
  member : String → String → Option Meaning := fun _ _ ↦ none

/-- The scope inside a function. -/
def Scope.inside (scope : Scope) : Scope := { scope with outer := scope.inner }

/-! ### Classes with arguments -/

/-- Classes besides those with hints of their own that take arguments in brackets. -/
def genericClasses : List String :=
  ["frozenset", "type", "enumerate", "BaseExceptionGroup", "ExceptionGroup"]

/-- A class with arguments. The place tells apart types that are written apart. -/
def subscripted (place : Nat) (h : Hint) (args : List Hint) : Except HostFault Hint :=
  let refuse (text : String) : Except HostFault Hint := .error (.typing text)
  let generic (origin : HintAtom) : Hint := @Hint.generic (.written place) origin args
  match h, args with
  | .list, [item] => .ok (.listOf item)
  | .list, _ => .ok (generic .list)
  | .tuple, [item, .datum d] => .ok (if d = ellipsis then .tupleOf item else .fixedTuple args)
  | .tuple, args => .ok (.fixedTuple args)
  | .mapping, [key, value] => .ok (.mappingOf (.written place) key value)
  | .mapping, _ => .ok (generic .mapping)
  | .set, [item] => .ok (.setOf item)
  | .set, _ => .ok (generic .set)
  | .otherClass name isException, _ =>
    if genericClasses.contains name then .ok (generic (.otherClass name isException))
    else refuse ("type '" ++ name ++ "' is not subscriptable")
  | .none, _ => refuse "'NoneType' object is not subscriptable"
  | .datum d, _ => refuse ("'" ++ d.typeName ++ "' object is not subscriptable")
  | .atom a, _ =>
    refuse ("type '" ++ (Hint.atom a).name?.getD "" ++ "' is not subscriptable")
  | h, _ => refuse (h.fullText ++ " is not a generic class")

/-! ### Arguments of functions -/

/-- Names in a row: commas between them, and a word in front of the last. -/
def namesInRow (names : List String) : String :=
  match names.reverse.map Text.shown with
  | [] => ""
  | [a] => a
  | [b, a] => a ++ " and " ++ b
  | last :: rest => ", ".intercalate rest.reverse ++ ", and " ++ last

/-- What is missing in a call, if something is. -/
def noneMissing (function sort : String) (missing : List String) : Except HostFault Unit :=
  if missing.isEmpty then .ok ()
  else .error (.typing (function ++ "() missing " ++ toString missing.length ++ " required " ++
    sort ++ (if missing.length = 1 then " argument: " else " arguments: ") ++
    namesInRow missing))

/-- The refusal of more arguments by position than a function takes, from the fewest to the most; of
those that can be given by name alone, some may be given too. -/
def tooMany (function : String) (fewest most given givenByName : Nat) : HostFault :=
  let arguments (n : Nat) (sort : String) : String :=
    toString n ++ " " ++ sort ++ " argument" ++ (if n = 1 then "" else "s")
  let taken := if fewest = most then arguments most "positional"
    else "from " ++ toString fewest ++ " to " ++ toString most ++ " positional arguments"
  .typing (function ++ "() takes " ++ taken ++ " but " ++
    (if givenByName = 0 then toString given
      else arguments given "positional" ++ " (and " ++ arguments givenByName "keyword-only" ++
        ")") ++
    (if given = 1 && givenByName = 0 then " was given" else " were given"))

/-- The parameters of a function with the arguments of a call. -/
def boundArguments (params : List WrittenParameter) (defaults : List (String × Meaning))
    (args : List Meaning) (named : List (String × Meaning)) :
    Except HostFault (List (String × Meaning)) := do
  let function := "<lambda>"
  let ofKind (test : ParameterKind → Bool) : List String :=
    (params.filter fun p ↦ test p.2).map (·.1)
  let byPosition := ofKind (·.takesPosition)
  let byName := ofKind (·.takesName)
  let alone := ofKind (· = .keywordOnly)
  let others := (ofKind (· = .keywordVariadic)).head?
  let filled := byPosition.zip args
  for (name, _) in named do
    if byName.contains name then
      if (filled.lookup name).isSome then
        throw (.typing (function ++ "() got multiple values for argument " ++ Text.shown name))
    else if others.isNone then
      let misplaced := (ofKind (· = .positionalOnly)).filter fun p ↦ (named.lookup p).isSome
      if !misplaced.isEmpty then
        throw (.typing (function ++
          "() got some positional-only arguments passed as keyword arguments: " ++
          Text.shown (", ".intercalate misplaced)))
      throw (.typing (function ++ "() got an unexpected keyword argument " ++ Text.shown name))
  let given := named.filter fun p ↦ byName.contains p.1
  let rest := (ofKind (· = .variadic)).head?
  if byPosition.length < args.length && rest.isNone then
    let optional := byPosition.filter fun p ↦ (defaults.lookup p).isSome
    throw (tooMany function (byPosition.length - optional.length) byPosition.length args.length
      (alone.filter fun p ↦ (given.lookup p).isSome).length)
  let known := filled ++ given ++ defaults
  let missing (names : List String) : List String := names.filter fun p ↦ (known.lookup p).isNone
  noneMissing function "positional" (missing byPosition)
  noneMissing function "keyword-only" (missing alone)
  let row := rest.toList.map fun p ↦ (p, Meaning.tuple (args.drop byPosition.length))
  let mapping := others.toList.map fun p ↦ (p, Meaning.mapping
    ((named.filter fun q ↦ !byName.contains q.1).map fun q ↦ (Meaning.text q.1, q.2)))
  return row ++ mapping ++ known

/-- The object of a struct type that a call makes, its fields being given by name. -/
def objectOf (name : String) (fields : List (String × Option Meaning)) (args : List Meaning)
    (named : List (String × Meaning)) : Except HostFault Meaning := do
  let function := name ++ ".__init__"
  for (key, _) in named do
    if (fields.lookup key).isNone then
      throw (.typing (function ++ "() got an unexpected keyword argument " ++ Text.shown key))
  if !args.isEmpty then throw (tooMany function 1 1 (args.length + 1) named.length)
  noneMissing function "keyword-only"
    ((fields.filter fun f ↦ f.2.isNone && (named.lookup f.1).isNone).map (·.1))
  let shown := fields.map fun f ↦
    f.1 ++ "=" ++ (((named.lookup f.1).or f.2).getD .absent).shown
  return .hint (.datum
    { typeName := name, shown := name ++ "(" ++ ", ".intercalate shown ++ ")" })

/-- The object that a call of a class without fields makes. -/
def objectOfClass (name : String) : Meaning :=
  .hint (.datum { typeName := name, shown := "<model." ++ name ++ " object>" })

/-! ### Terms -/

/-- Evaluation, with what was named on the way. -/
abbrev Evaluator (α : Type) := StateT (List (String × Meaning)) (Except HostFault) α

/-- The elements of what is spread in a row. -/
def spreadElements (m : Meaning) : Except HostFault (List Meaning) :=
  match m.elements with
  | .ok ms => .ok ms
  | .error _ => .error (.typing ("Value after * must be an iterable, not " ++ m.typeName))

mutual

/-- The names of a target with what an element or the parts of it give them, the last first. -/
def givenTo : Target → Meaning → Except HostFault (List (String × Meaning))
  | .name s, m => .ok [(s, m)]
  | .rest t, m => givenTo t m
  | .row items, m =>
    match m.elements with
    | .ok ms => givenToEach items ms
    | .error _ => .error (.typing ("cannot unpack non-iterable " ++ m.typeName ++ " object"))

/-- The names of targets with what the parts of a row give them, the last first; a target may take
all parts that those behind it leave. -/
def givenToEach : List Target → List Meaning → Except HostFault (List (String × Meaning))
  | [], [] => .ok []
  | [], _ :: _ => .error (.value "too many values to unpack")
  | .rest t :: items, ms =>
    if ms.length < items.length then .error (.value "not enough values to unpack")
    else do
      let taken := ms.length - items.length
      let here ← givenTo t (.list (ms.take taken))
      return (← givenToEach items (ms.drop taken)) ++ here
  | _ :: _, [] => .error (.value "not enough values to unpack")
  | t :: items, m :: ms => do
    let here ← givenTo t m
    return (← givenToEach items ms) ++ here

end

mutual

/-- What a term means, down to a depth. Every part has a place of its own, by which mappings that
are written apart are told apart. -/
def meaning (scope : Scope) : Nat → Nat → Term → Evaluator Meaning
  | 0, _, _ => throw .recursion
  | depth + 1, place, t => do
    match t with
    | .name s =>
      match ((← get).lookup s).or (scope.outer s) with
      | some m => return m
      | none => throw (.undefined s)
    | .text s => return .text s
    | .pieces ts => return .text ("".intercalate ((← meaningEach scope depth place ts).map
        Meaning.written))
    | .filled conversion t => do
      let m ← meaning scope depth place t
      return .text (if conversion = some 'r' || conversion = some 'a' then m.shown else m.written)
    | .absent => return .absent
    | .ellipsis => return .hint (.datum ellipsis)
    | .scalar s => return .scalar s
    | .member t name => do
      let m ← meaning scope depth (2 * place) t
      let own : Option Meaning := match m with
        | .hint (.struct s) => scope.member s name
        | _ => none
      match own with
      | some m => return m
      | none => m.memberOf name
    | .index t i => do
      let m ← meaning scope depth (2 * place) t
      let i ← meaning scope depth (2 * place + 1) i
      match m with
      | .text s => (Meaning.text s).itemOf i
      | .hint h => return .hint (← subscripted place h i.arguments)
      | m => m.itemOf i
    | .call f args => do
      let m ← meaning scope depth (2 * place) f
      let (args, named) ← argumentsOf scope depth (2 * place + 1) args
      applied scope depth m args named
    | .tuple items => return .tuple (← meaningEach scope depth place items)
    | .list items => return .list (← meaningEach scope depth place items)
    | .set items => do Meaning.setOf false (← meaningEach scope depth place items)
    | .mapping entries => do Meaning.mappingOf (← entriesOf scope depth place entries)
    | .binary op a b => do
      let left ← meaning scope depth (2 * place) a
      if op = "or" && left.holds || op = "and" && !left.holds then return left
      let right ← meaning scope depth (2 * place + 1) b
      if op = "or" || op = "and" then return right
      left.combined op right
    | .unary op a => do (← meaning scope depth (2 * place) a).marked op
    | .comparison first ops others => do
      let left ← meaning scope depth (2 * place) first
      chained scope depth (2 * place + 1) left (ops.zip others)
    | .choice test yes no => do
      if (← meaning scope depth (4 * place) test).holds then meaning scope depth (4 * place + 1) yes
      else meaning scope depth (4 * place + 2) no
    | .range start stop step => do
      let first ← meaning scope depth (4 * place) start
      let last ← meaning scope depth (4 * place + 1) stop
      return .slice first last (← meaning scope depth (4 * place + 2) step)
    | .function params defaults body => do
      let (_, optional) ← argumentsOf scope depth (2 * place) defaults
      let around ← get
      return .function params (optional.map (·.1)) (optional.map (·.2)) body (around.map (·.1))
        (around.map (·.2))
    | .made kind element clauses => do
      let around ← get
      let pairs ← throughClauses scope depth place element clauses
      set around
      match kind with
      | .list => return .list (pairs.map (·.1))
      | .iterator => return .iterator (pairs.map (·.1))
      | .set => Meaning.setOf false (pairs.map (·.1))
      | .mapping => Meaning.mappingOf pairs
    | .assign name t => do
      let m ← meaning scope depth place t
      modify ((name, m) :: ·)
      return m
    | .spread t | .spreadNamed t | .named _ t | .entry t _ | .each _ t _ =>
      meaning scope depth place t

/-- What the terms of a row mean; a row that is spread brings its elements. -/
def meaningEach (scope : Scope) : Nat → Nat → List Term → Evaluator (List Meaning)
  | 0, _, _ => throw .recursion
  | _ + 1, _, [] => return []
  | depth + 1, place, t :: rest => do
    let first ← meaning scope depth (2 * place) t
    let here ← match t with
      | .spread _ => (spreadElements first : Except HostFault _)
      | _ => pure [first]
    return here ++ (← meaningEach scope depth (2 * place + 1) rest)

/-- What the entries of a mapping mean; a mapping that is spread brings its own. -/
def entriesOf (scope : Scope) :
    Nat → Nat → List Term → Evaluator (List (Meaning × Meaning))
  | 0, _, _ => throw .recursion
  | _ + 1, _, [] => return []
  | depth + 1, place, t :: rest => do
    let here ← match t with
      | .entry key value => do
        let k ← meaning scope depth (4 * place) key
        pure [(k, ← meaning scope depth (4 * place + 2) value)]
      | t => do
        match ← meaning scope depth (4 * place) t with
        | .mapping es => pure es
        | m => throw (.typing ("'" ++ m.typeName ++ "' object is not a mapping"))
    return here ++ (← entriesOf scope depth (4 * place + 1) rest)

/-- What the arguments of a call mean: those by position, and those by name. -/
def argumentsOf (scope : Scope) :
    Nat → Nat → List Term → Evaluator (List Meaning × List (String × Meaning))
  | 0, _, _ => throw .recursion
  | _ + 1, _, [] => return ([], [])
  | depth + 1, place, t :: rest => do
    let m ← meaning scope depth (2 * place) t
    let (args, named) ← match t with
      | .named name _ => pure ([], [(name, m)])
      | .spread _ => do pure (← spreadElements m, [])
      | .spreadNamed _ =>
        match m with
        | .mapping es => pure ([], es.map fun e ↦ (e.1.written, e.2))
        | m => throw (.typing ("argument after ** must be a mapping, not " ++ m.typeName))
      | _ => pure ([m], [])
    let (others, othersNamed) ← argumentsOf scope depth (2 * place + 1) rest
    return (args ++ others, named ++ othersNamed)

/-- What a chain of comparisons behind a value means: the first that does not hold, else the
last. -/
def chained (scope : Scope) : Nat → Nat → Meaning → List (String × Term) → Evaluator Meaning
  | 0, _, _, _ => throw .recursion
  | _ + 1, _, _, [] => return .truth true
  | depth + 1, place, left, (op, t) :: rest => do
    let right ← meaning scope depth (2 * place) t
    let holds ← (Meaning.compared op left right : Except HostFault Bool)
    if rest.isEmpty || !holds then return .truth holds
    chained scope depth (2 * place + 1) right rest

/-- The elements that clauses give, a pair of a key and a value for each. What follows the first row
is inside a function. -/
def throughClauses (scope : Scope) :
    Nat → Nat → Term → List Term → Evaluator (List (Meaning × Meaning))
  | 0, _, _, _ => throw .recursion
  | depth + 1, place, element, [] => do
    match element with
    | .entry key value => do
      let k ← meaning scope depth (2 * place) key
      return [(k, ← meaning scope depth (2 * place + 1) value)]
    | t => return [(← meaning scope depth (2 * place) t, .absent)]
  | depth + 1, place, element, clause :: rest => do
    match clause with
    | .each target source tests => do
      let ms ← (← meaning scope depth (4 * place) source).elements
      let scope := scope.inside
      let rows ← ms.mapM fun m ↦ do
        let parts ← (givenTo target m : Except HostFault _)
        modify (parts ++ ·)
        if ← allHold scope depth (4 * place + 1) tests then
          throughClauses scope depth (4 * place + 2) element rest
        else return []
      return rows.flatten
    | _ => return []

/-- Whether all of some tests hold, up to the first that does not. -/
def allHold (scope : Scope) : Nat → Nat → List Term → Evaluator Bool
  | 0, _, _ => throw .recursion
  | _ + 1, _, [] => return true
  | depth + 1, place, t :: rest => do
    if (← meaning scope depth (2 * place) t).holds then allHold scope depth (2 * place + 1) rest
    else return false

/-- What a call means. -/
def applied (scope : Scope) :
    Nat → Meaning → List Meaning → List (String × Meaning) → Evaluator Meaning
  | 0, _, _, _ => throw .recursion
  | depth + 1, f, args, named => do
    match f, args with
    | .function params optional defaults body names values, args => do
      let inner ← (boundArguments params (optional.zip defaults) args named : Except HostFault _)
      let around ← get
      set (inner ++ names.zip values)
      let m ← meaning scope.inside depth 0 body
      set around
      return m
    | .hint (.struct name), args =>
      match scope.fields name with
      | some fields => objectOf name fields args named
      | none =>
        if args.isEmpty && named.isEmpty then return objectOfClass name
        throw (.typing (name ++ "() takes no arguments"))
    | .hint (.otherClass "map" _), f :: row :: rows => do
      let rows ← ((row :: rows).mapM Meaning.elements : Except HostFault _)
      let calls ← (Meaning.zipped rows).mapM fun m ↦ do
        applied scope depth f (← (m.elements : Except HostFault _)) []
      return .iterator calls
    | .hint (.otherClass "map" _), _ => throw (.typing "map() must have at least two arguments.")
    | .hint (.otherClass "filter" _), [f, row] => do
      let ms ← (row.elements : Except HostFault _)
      let kept ← ms.filterM fun m ↦ do
        match f with
        | .absent => return m.holds
        | f => return (← applied scope depth f [m] []).holds
      return .iterator kept
    | .hint (.datum d), args =>
      match d.name, args with
      | some "eval", [.text written] =>
        match read? written with
        | some t => meaning scope depth 0 t
        | none => throw (.expression "invalid syntax")
      | _, _ => (f.called args named : Except HostFault _)
    | f, args => (f.called args named : Except HostFault _)

end

/-- How many calls of functions may be within each other. -/
def callLimit : Nat := 1000

/-- What the term of a written type means. -/
def Term.meaningIn (t : Term) (scope : Scope) (written : String) (place : Nat) :
    Except HostFault Meaning :=
  (meaning scope (written.length + 3 * callLimit) place t).run' []

end RuleMarshal.Annotation
