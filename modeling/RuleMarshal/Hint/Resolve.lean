import RuleMarshal.Annotation.Evaluation
import RuleMarshal.Error
/-!
Texts that stand for types. Before a declared type is used, every text inside it is read as a type
and gives way to what it means, and so do the texts inside that. A name that nothing is known by and
an operator that does not take its operands are reported with the declaration; a text that cannot be
read is a failure of its own. Every reading of a declaration makes its classes with arguments anew,
and what texts stand for, so that mappings of two readings are told apart.
-/

set_option autoImplicit false
set_option relaxedAutoImplicit false

namespace RuleMarshal

/-- The error of a failure while the declaration of `owner` is read. -/
def HostFault.inDeclaration (owner : String) (fault : HostFault) : Error :=
  match fault with
  | .undefined _ | .typing _ => .unsupported (.annotations owner fault.argument)
  | fault => .host fault

namespace Hint

/-! ### Names that are known everywhere -/

/-- Classes with hints of their own. -/
def classes : List (String × Hint) :=
  [("object", .anyObject), ("bool", .bool), ("int", .int .unsized), ("float", .float),
    ("str", .text), ("complex", .complex), ("bytes", .bytes), ("set", .set), ("dict", .mapping),
    ("list", .list), ("tuple", .tuple), ("Exception", .exception .exception),
    ("ValueError", .exception .value), ("KeyError", .exception .key),
    ("RuntimeError", .exception .runtime), ("TypeError", .exception .mistyped),
    ("ZeroDivisionError", .exception .zeroDivision)]

/-- Other classes that are no exceptions. -/
def otherClasses : List String :=
  ["bytearray", "classmethod", "enumerate", "filter", "frozenset", "map", "memoryview", "property",
    "range", "reversed", "slice", "staticmethod", "super", "type", "zip"]

/-- Other classes of exceptions. -/
def otherExceptions : List String :=
  ["ArithmeticError", "AssertionError", "AttributeError", "BaseException", "BaseExceptionGroup",
    "BlockingIOError", "BrokenPipeError", "BufferError", "BytesWarning", "ChildProcessError",
    "ConnectionAbortedError", "ConnectionError", "ConnectionRefusedError", "ConnectionResetError",
    "DeprecationWarning", "EOFError", "EncodingWarning", "ExceptionGroup", "FileExistsError",
    "FileNotFoundError", "FloatingPointError", "FutureWarning", "GeneratorExit", "ImportError",
    "ImportWarning", "IndentationError", "IndexError", "InterruptedError", "IsADirectoryError",
    "KeyboardInterrupt", "LookupError", "MemoryError", "ModuleNotFoundError", "NameError",
    "NotADirectoryError", "NotImplementedError", "OSError", "OverflowError",
    "PendingDeprecationWarning", "PermissionError", "ProcessLookupError", "RecursionError",
    "ReferenceError", "ResourceWarning", "RuntimeWarning", "StopAsyncIteration", "StopIteration",
    "SyntaxError", "SyntaxWarning", "SystemError", "SystemExit", "TabError", "TimeoutError",
    "UnboundLocalError", "UnicodeDecodeError", "UnicodeEncodeError", "UnicodeError",
    "UnicodeTranslateError", "UnicodeWarning", "UserWarning", "Warning"]

/-- Functions, which are values and no types. -/
def functions : List String :=
  ["__build_class__", "__import__", "abs", "aiter", "all", "anext", "any", "ascii", "bin",
    "breakpoint", "callable", "chr", "compile", "delattr", "dir", "divmod", "eval", "exec",
    "format", "getattr", "globals", "hasattr", "hash", "hex", "id", "input", "isinstance",
    "issubclass", "iter", "len", "locals", "max", "min", "next", "oct", "open", "ord", "pow",
    "print", "repr", "round", "setattr", "sorted", "sum", "vars"]

/-- Values that are no functions, by name. -/
def constants : List (String × Hint) :=
  [("Ellipsis", .datum Annotation.ellipsis),
    ("NotImplemented", .datum { typeName := "NotImplementedType", shown := "NotImplemented" }),
    ("exit", leaving "exit"), ("quit", leaving "quit"),
    ("help", .datum
      { typeName := "_Helper"
        shown := "Type help() for interactive help, or help(object) for help about object." }),
    ("license", .datum
      { typeName := "_Printer", shown := "Type license() to see the full license text" })]
where
  leaving (name : String) : Hint :=
    .datum { typeName := "Quitter", shown := "Use " ++ name ++ "() or Ctrl-D (i.e. EOF) to exit" }

/-- What a name means everywhere, if it means anything. -/
def builtin? (name : String) : Option Hint :=
  if let some h := classes.lookup name then some h
  else if otherClasses.contains name then some (.otherClass name false)
  else if otherExceptions.contains name then some (.otherClass name true)
  else if name = "EnvironmentError" || name = "IOError" then some (.otherClass "OSError" true)
  else if functions.contains name then
    some (.datum
      { typeName := "builtin_function_or_method", name := some name
        shown := "<built-in function " ++ name ++ ">" })
  else constants.lookup name

/-! ### Looking up -/

mutual

/-- Whether a text stands for a type somewhere in a hint. -/
def hasText : Hint → Bool
  | .forward _ | .reference _ => true
  | .atom _ => false
  | .listOf h => hasText h
  | .tupleOf h => hasText h
  | .fixedTuple hs => someText hs
  | .sequenceOf h => hasText h
  | .mutableSequenceOf h => hasText h
  | .setOf h => hasText h
  | .mappingOf _ k v => hasText k || hasText v
  | .generic _ hs => someText hs
  | .union _ hs => someText hs

/-- Whether a text stands for a type somewhere in some hints. -/
def someText : List Hint → Bool
  | [] => false
  | h :: rest => hasText h || someText rest

end

mutual

/-- A hint with every text in it looked up. A class with arguments is made anew; what is inside it,
and unions, are made anew if there is a text in them. -/
def resolveInside (find : String → Except HostFault Hint) : Hint → Except HostFault Hint
  | .forward written => find written
  | .reference written => find written
  | .atom a => .ok (.atom a)
  | .listOf h => if hasText h then .listOf <$> resolveInside find h else .ok (.listOf h)
  | .tupleOf h => if hasText h then .tupleOf <$> resolveInside find h else .ok (.tupleOf h)
  | .fixedTuple hs =>
    if someText hs then .fixedTuple <$> resolveEach find hs else .ok (.fixedTuple hs)
  | .sequenceOf h => if hasText h then .sequenceOf <$> resolveInside find h else .ok (.sequenceOf h)
  | .mutableSequenceOf h =>
    if hasText h then .mutableSequenceOf <$> resolveInside find h else .ok (.mutableSequenceOf h)
  | .setOf h => if hasText h then .setOf <$> resolveInside find h else .ok (.setOf h)
  | .mappingOf place k v =>
    if hasText k || hasText v then do
      let key ← resolveInside find k
      return .mappingOf (.anew place) key (← resolveInside find v)
    else .ok (.mappingOf (.anew place) k v)
  | @generic place origin hs =>
    if someText hs then @generic (.anew place) origin <$> resolveEach find hs
    else .ok (@generic (.anew place) origin hs)
  | .union spelling hs =>
    if someText hs then unionOf spelling <$> resolveEach find hs else .ok (.union spelling hs)

/-- Hints with every text in them looked up. -/
def resolveEach (find : String → Except HostFault Hint) :
    List Hint → Except HostFault (List Hint)
  | [] => .ok []
  | h :: rest => do
    let first ← resolveInside find h
    let others ← resolveEach find rest
    return first :: others

end

/-- What a name means everywhere, as the meaning of a term. -/
def builtinMeaning? (name : String) : Option Annotation.Meaning :=
  match name with
  | "None" => some .absent
  | "False" => some (.truth false)
  | "True" | "__debug__" => some (.truth true)
  | name => (builtin? name).map .hint

/-- The type that a text stands for, texts inside texts looked up at most the given number deep. -/
def lookupWithin (scope : Annotation.Scope) : Nat → Nat → String → Except HostFault Hint
  | 0, _, _ => .error .recursion
  | depth + 1, place, written => do
    let meaning ← (← readReference written).meaningIn scope written place
    match ← meaning.toType with
    | .forward inside => lookupWithin scope depth (2 * place + 1) inside
    | h => h.resolveInside (lookupWithin scope depth (2 * place + 1))

/-- A number for the place of a text in a declaration. -/
def placeOf (declaration written : String) : Nat :=
  (declaration ++ ":" ++ written).toList.foldl (fun n c ↦ n * 1114112 + c.toNat) 1

/-- How many texts may stand for each other one after the other. -/
def lookupLimit : Nat := 100

/-- The type that a text in a declaration stands for in a scope; it is made anew by every
reading. -/
def lookup (scope : Annotation.Scope) (declaration written : String) : Except HostFault Hint :=
  let depth := written.length + lookupLimit
  renewed <$> lookupWithin scope depth (placeOf declaration written) written

/-- A declared type as it is used: the absent value stands for its type, and texts are looked
up. -/
def resolve (find : String → Except HostFault Hint) (h : Hint) : Except HostFault Hint :=
  match h with
  | .none => .ok .noneType
  | h => h.resolveInside find

end Hint

end RuleMarshal
