import RuleMarshal.Host.Heap
/-!
How the arguments of a call are bound to the parameters of an operation. Positional arguments come
first, keywords fill the parameters behind them; what is left over goes to the operation's rest,
if it takes one, and is refused otherwise. The thing that an operation belongs to is bound before
all arguments.
-/

set_option autoImplicit false
set_option relaxedAutoImplicit false

namespace RuleMarshal

/-- The parameters of an operation, without the thing that it belongs to. -/
structure Parameters where
  names : List String := []
  /-- How many of them have to be supplied. -/
  required : Nat := names.length
  /-- Whether any number of further positional arguments is taken. -/
  rest : Bool := false
  /-- Whether keywords of any name are taken. -/
  anyKeyword : Bool := false

/-- How an operation is asked for. -/
inductive Access where
  /-- By its name alone: arguments play no part. -/
  | property
  /-- By a call. -/
  | call (p : Parameters)
  /-- As a question to the session, with at least so many arguments. -/
  | question (count : Nat)

/-- Arguments bound to parameters. -/
structure Bound where
  /-- What each parameter is bound to, in order. -/
  values : List (Option Value) := []
  rest : List Value := []
  keywords : List (String × Value) := []

/-- Some names in a row, with a word in front of the last. -/
def listed : List String → String
  | [] => ""
  | [a] => a
  | [a, b] => a ++ " and " ++ b
  | names => ", ".intercalate names.dropLast ++ ", and " ++ names.getLastD ""

namespace Parameters

/-- The parameter for the thing that an operation belongs to. -/
def receiver : String := "self"

/-- Why a keyword cannot be bound behind some positional arguments, if it cannot. -/
def keywordRefusal? (p : Parameters) (given : Nat) (keyword : String) : Option String :=
  if (receiver :: p.names.take given).contains keyword then
    some ("got multiple values for argument '" ++ keyword ++ "'")
  else if p.anyKeyword || p.names.contains keyword then none
  else some ("got an unexpected keyword argument '" ++ keyword ++ "'")

/-- What a call with too many positional arguments is told. The receiver counts. -/
def tooMany (p : Parameters) (given : Nat) : String :=
  let most := p.names.length + 1
  let taken := if p.required < p.names.length
    then "from " ++ toString (p.required + 1) ++ " to " ++ toString most else toString most
  "takes " ++ taken ++ " positional argument" ++ (if most = 1 then "" else "s") ++ " but " ++
    toString (given + 1) ++ " were given"

/-- What a call without some arguments is told. -/
def missing (names : List String) : String :=
  "missing " ++ toString names.length ++ " required positional argument" ++
    (if names.length = 1 then "" else "s") ++ ": " ++
    listed (names.map fun n ↦ "'" ++ n ++ "'")

/-- Binds the arguments of a call of an operation. Keywords are looked at first, then the number of
positional arguments, then what is missing. -/
def bind (p : Parameters) (operation : String) (args : List Value)
    (keywords : List (String × Value)) : Except Error Bound := do
  let refuse (reason : String) : Except Error Unit :=
    throw (.host (.typing (operation ++ "() " ++ reason)))
  if let some reason := keywords.findSome? fun k ↦ p.keywordRefusal? args.length k.1 then
    refuse reason
  if !p.rest && p.names.length < args.length then refuse (p.tooMany args.length)
  let (known, extra) := keywords.partition fun k ↦ p.names.contains k.1
  let behind := p.names.drop args.length
  let unbound := (p.names.take p.required).filter fun n ↦
    behind.contains n && !known.any (·.1 = n)
  if !unbound.isEmpty then refuse (missing unbound)
  let values := (args.take p.names.length).map some ++ behind.map fun n ↦ known.lookup n
  return { values, rest := args.drop p.names.length, keywords := extra }

end Parameters

/-- Binds the arguments of an operation that is asked for. -/
def Access.bind (access : Access) (operation : String) (args : List Value)
    (keywords : List (String × Value)) : Except Error Bound :=
  match access with
  | .property => .ok {}
  | .call p => p.bind operation args keywords
  | .question count =>
    if args.length < count then .error (.host (.index "list index out of range"))
    else .ok { values := args.map some, rest := args }

namespace Bound

/-- What a parameter is bound to. -/
def get? (b : Bound) (i : Nat) : Option Value := (b.values[i]?).join

/-- What a parameter is bound to, the absent value where nothing is. -/
def get (b : Bound) (i : Nat) : Value := (b.get? i).getD .none

/-- Bound arguments with everything that is held in them in its place. -/
def settled (b : Bound) (heap : Heap) : Bound :=
  { values := b.values.map fun v ↦ v.map heap.content
    rest := b.rest.map heap.content
    keywords := b.keywords.map fun p ↦ (p.1, heap.content p.2) }

end Bound

end RuleMarshal
