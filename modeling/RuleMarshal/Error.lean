import RuleMarshal.Engine.Native
import RuleMarshal.Engine.Value
import RuleMarshal.Hint.Name
import RuleMarshal.Host.Fault
/-!
Everything that can go wrong, by cause. An error knows what it is about; its class and its text
are read off by functions. A failure of a host function holds the error that it came from.
-/

set_option autoImplicit false
set_option relaxedAutoImplicit false

namespace RuleMarshal

/-! ### Causes -/

/-- Kinds of constructs that handles point at. -/
inductive ConstructKind where
  | template | defclass
  deriving DecidableEq, Repr

/-- The word for a kind of construct in messages. -/
def ConstructKind.word : ConstructKind → String
  | .template => "template"
  | .defclass => "class"

/-- What a name was meant to name. -/
inductive NameRole where
  | slot | message | template | defclass
  deriving DecidableEq, Repr

/-- The word for what a name was meant to name. -/
def NameRole.word : NameRole → String
  | .slot => "Slot"
  | .message => "Message"
  | .template => "Template"
  | .defclass => "Class"

/-- Why no conversion path exists for a type or a value. Host types of values are given by name,
and values and names as they are shown. -/
inductive Unsupported where
  | integerPayload (got : String)
  | noRepresentation (got : String)
  | absentNotAllowed (hint : Hint)
  | sequenceExpected (hint : Hint) (got : String)
  | typeExpected (expected got : String)
  | notAnEngineValue (got : String)
  | notASequenceSource (kind : Option ValueKind) (hint : Hint)
  | noConversion (kind : Option ValueKind) (target : String)
  | noResolution (kind : Option ValueKind) (hint : Hint)
  | destination (hint : Hint)
  | noFloatLiteral (x : Binary64)
  | noText (kind : Option ValueKind)
  | itemsOfOwnTypes (hint : Hint)
  | unknownEngineValue (got : String)
  | notAShape
  | annotations (owner reason : String)
  | signature (name : String)
  | keywordOnly (name parameter : String)
  | functionName (shown : String)
  | reflectionInProgress (name : String)
  | notAStruct (shown : String)
  | className (name : String)
  | slotTwice (owner slot : String)
  | slotName (owner field name : String)
  | nestedSequence (owner field : String)
  | noSlotKind (owner field : String) (hint : Hint)
  | engineSymbol (role : NameRole) (shown : String)
  | extractionSource (got : String)
  | instanceDestination (hint : Hint)
  | factDestination (hint : Hint)
  | extractionDestination (shown : String)
  | insertion (got : String)
  | generatedName (kind : Option ValueKind)
  | notNative (kind : Option ValueKind)

/-- Why an integer does not fit. -/
inductive OutOfRange where
  | engine (n : Int)
  | type (n : Int) (type : IntType)

/-- Why a class, template or fact of the engine does not fit. -/
inductive Mismatch where
  | classMissing (name : String)
  | slotMissing (name slot : String)
  | cardinality (name slot : String) (multi : Bool)
  | sequenceExpected (slot className : String)
  | structExpected (slot expected got : String)
  | orderedIntoStruct (index : Int)
  | templateIntoSequence (index : Int)
  | notOrdered (index : Int)
  | orderedModified
  | orderedByPosition
  | wrongFactKind (template : String) (ordered : Bool)

/-- What a reference no longer refers to. -/
inductive Stale where
  | instanceGone (name : String)
  | factGone (index : Int)
  | templateGone (name : String)
  | classGone (name : String)
  | asserted
  | assertedEdited
  | closed

/-- What the engine did not do. -/
inductive Construction where
  | construct | expression
  | function (name : String)
  | loading (path : String)
  | batching (path : String)
  | creation | assertion
  | deletion (name : String)
  | unmaking (name : String)
  | modification (index : Int)
  | undefinition (kind : ConstructKind) (name : String)

/-- What is wrong with a setting. -/
inductive Setting where
  | blankTag (field : String)
  | sameTags
  | superclass (shown : String)
  | patternMatch
  | autoSynthesize
  | loadPaths
  | truthWord (source raw : String)

mutual

/-- How a call of a host function failed. -/
inductive CallFailure where
  | reentered (operation : String)
  | arity (name : String) (required declared : Nat) (variadic : Bool) (got : Nat)
  | argument (name : String) (position : Nat) (kind : Option ValueKind) (cause : Error)
  | reported (name text : String)
  | noErrorSlot (name : String)
  | result (name : String) (cause : Error)
  | raised (name : String) (cause : Error)
  | carried (cause : Error)

/-- An error. A failed call is attributed to a function unless it was refused from outside. -/
inductive Error where
  | unsupported (cause : Unsupported)
  | outOfRange (cause : OutOfRange)
  | precisionLoss (x : Binary64)
  | mismatch (cause : Mismatch)
  | stale (cause : Stale)
  | construction (cause : Construction) (command : Option Native) (diagnostic : String)
  | call (failure : CallFailure) (function : Option String)
  | setting (cause : Setting)
  | host (fault : HostFault)
  | engine (diagnostic : String)

end

instance : Inhabited Error := ⟨.host .recursion⟩

/-- The refusal of a tuple whose items have types of their own. One with items that cannot be
counted in a set is a failure of the host program. -/
def Hint.itemsRefused (h : Hint) : Error :=
  match h.uncountable? with
  | Option.none => .unsupported (.itemsOfOwnTypes h)
  | some name => .host (.typing ("unhashable type: '" ++ name ++ "'"))

/-! ### Classes -/

/-- The classes of errors of this library. -/
inductive ErrorClass where
  | marshal | setting | stale | mismatch | unsupported | conversion | outOfRange
  | precisionLoss | construction | call
  deriving DecidableEq, Repr

namespace ErrorClass

/-- The name of an error class. -/
def name : ErrorClass → String
  | .marshal => "BridgeError"
  | .setting => "ConfigError"
  | .stale => "InvalidReferenceError"
  | .mismatch => "SchemaMismatchError"
  | .unsupported => "UnsupportedTypeError"
  | .conversion => "ConversionError"
  | .outOfRange => "OutOfRangeError"
  | .precisionLoss => "PrecisionLossError"
  | .construction => "ConstructionError"
  | .call => "CallbackError"

/-- The classes that a class belongs to, the widest first. -/
def lineage : ErrorClass → List ErrorClass
  | .marshal => [.marshal]
  | .outOfRange => [.marshal, .conversion, .outOfRange]
  | .precisionLoss => [.marshal, .conversion, .precisionLoss]
  | c => [.marshal, c]

/-- All classes. -/
def all : List ErrorClass :=
  [.marshal, .setting, .stale, .mismatch, .unsupported, .conversion, .outOfRange,
    .precisionLoss, .construction, .call]

end ErrorClass

namespace Error

/-- The class of an error of this library; failures of the host program and of the engine have
none. -/
def class? : Error → Option ErrorClass
  | .unsupported _ => some .unsupported
  | .outOfRange _ => some .outOfRange
  | .precisionLoss _ => some .precisionLoss
  | .mismatch _ => some .mismatch
  | .stale _ => some .stale
  | .construction .. => some .construction
  | .call .. => some .call
  | .setting _ => some .setting
  | .host _ | .engine _ => none

/-- Whether an error is one of this library's. -/
def isOwn (e : Error) : Bool := e.class?.isSome

/-- Whether a union may go on to its next member after this error. -/
def isConversion : Error → Bool
  | .unsupported _ | .outOfRange _ | .precisionLoss _ => true
  | _ => false

/-- Whether the engine refused a command. -/
def isConstruction : Error → Bool
  | .construction .. => true
  | _ => false

end Error

/-! ### Texts -/

/-- The text of a missing conversion path. -/
def Unsupported.message : Unsupported → String
  | .integerPayload got => "IntegerValue requires an int, got " ++ got ++ "."
  | .noRepresentation got => "No engine representation for " ++ got ++ "."
  | .absentNotAllowed h => "None is not allowed for non-optional " ++ h.shortName ++ "."
  | .sequenceExpected h got =>
    "Expected a sequence for " ++ h.shortName ++ ", got " ++ got ++ "."
  | .typeExpected expected got => "Expected " ++ expected ++ ", got " ++ got ++ "."
  | .notAnEngineValue got => "Not an engine value: " ++ got ++ "."
  | .notASequenceSource k h =>
    "Cannot convert " ++ kindWord k ++ " to sequence " ++ h.shortName ++ "."
  | .noConversion k target => "Cannot convert " ++ kindWord k ++ " to " ++ target ++ "."
  | .noResolution k h =>
    "Cannot convert " ++ kindWord k ++ " to " ++ (h.name?.map Text.shown).getD h.fullText ++ "."
  | .destination h => "Unsupported destination type: " ++ h.shortName ++ "."
  | .noFloatLiteral x => "Float " ++ x.text ++ " has no engine literal."
  | .noText k => kindWord k ++ " values cannot be written as engine text."
  | .itemsOfOwnTypes h => "Fixed-shape tuples are not supported: " ++ h.shortName ++ "."
  | .unknownEngineValue got => "Unknown engine value: " ++ got ++ "."
  | .notAShape => "register_shape requires a ShapeDescriptor."
  | .annotations owner reason => "Cannot resolve annotations of " ++ owner ++ ": " ++ reason
  | .signature name => "Cannot inspect the signature of " ++ name ++ "."
  | .keywordOnly name p => name ++ ": keyword-only parameter " ++ p ++ " has no default."
  | .functionName shown => shown ++ " is not a valid engine function name."
  | .reflectionInProgress name => name ++ " is still being reflected."
  | .notAStruct shown => shown ++ " is not a struct type."
  | .className name => "Class name " ++ Text.shown name ++ " is not a valid engine symbol."
  | .slotTwice owner slot => owner ++ " maps two fields to slot " ++ Text.shown slot ++ "."
  | .slotName owner field name =>
    owner ++ "." ++ field ++ ": " ++ Text.shown name ++ " is not a usable slot name."
  | .nestedSequence owner field =>
    owner ++ "." ++ field ++ ": nested sequences are not supported."
  | .noSlotKind owner field h =>
    owner ++ "." ++ field ++ ": no slot kind for " ++ h.fullText ++ "."
  | .engineSymbol role shown => role.word ++ " " ++ shown ++ " is not a valid engine symbol."
  | .extractionSource got => "Cannot extract from " ++ got ++ "."
  | .instanceDestination h =>
    "Instances extract into structs or mappings, not " ++ h.fullText ++ "."
  | .factDestination h =>
    "Facts extract into structs, mappings or sequences, not " ++ h.fullText ++ "."
  | .extractionDestination shown => "Unsupported extraction destination: " ++ shown ++ "."
  | .insertion got => "Cannot insert " ++ got ++ ": not a struct type."
  | .generatedName k => "gensym* returned " ++ kindWord k ++ "."
  | .notNative k => kindWord k ++ " values cannot be handed back to the engine."

/-- The text of an integer that does not fit. -/
def OutOfRange.message : OutOfRange → String
  | .engine n => "Integer " ++ toString n ++ " does not fit in 64 bits."
  | .type n t =>
    "Integer " ++ toString n ++ " is out of range for " ++ t.name ++ " [" ++ toString t.low ++
      ", " ++ toString t.high ++ "]."

/-- The text of a misfit. -/
def Mismatch.message : Mismatch → String
  | .classMissing name => "Class " ++ name ++ " is not defined."
  | .slotMissing name slot => "Class " ++ name ++ " has no slot " ++ slot ++ "."
  | .cardinality name slot multi =>
    "Class " ++ name ++ " slot " ++ slot ++ " is not a " ++
      (if multi then "multislot" else "single slot") ++ "."
  | .sequenceExpected slot name => "Slot " ++ slot ++ " expects a sequence of " ++ name ++ "."
  | .structExpected slot expected got =>
    "Slot " ++ slot ++ " expects " ++ expected ++ ", got " ++ got ++ "."
  | .orderedIntoStruct i =>
    "Ordered fact f-" ++ toString i ++ " extracts into a sequence or mapping."
  | .templateIntoSequence i =>
    "Template fact f-" ++ toString i ++ " cannot extract into a sequence."
  | .notOrdered i => "Fact f-" ++ toString i ++ " is not an ordered fact."
  | .orderedModified => "Ordered facts cannot be modified; assert a new fact."
  | .orderedByPosition => "Ordered facts are indexed by position."
  | .wrongFactKind template ordered =>
    "Template " ++ template ++ " builds " ++ (if ordered then "ordered" else "template") ++
      " facts."

/-- The text of a reference that refers to nothing. -/
def Stale.message : Stale → String
  | .instanceGone name => "Instance [" ++ name ++ "] no longer exists."
  | .factGone i => "Fact f-" ++ toString i ++ " no longer exists."
  | .templateGone name => "Template " ++ name ++ " no longer exists."
  | .classGone name => "Class " ++ name ++ " no longer exists."
  | .asserted => "Fact was already asserted."
  | .assertedEdited => "Fact was already asserted; build a new one."
  | .closed => "The engine environment has been closed."

/-- The text of what the engine did not do. -/
def Construction.message : Construction → String
  | .construct => "Engine rejected construct"
  | .expression => "Engine rejected expression"
  | .function name => "Engine rejected function " ++ name
  | .loading path => "Engine failed to load " ++ path
  | .batching path => "Engine failed to batch " ++ path
  | .creation => "Engine did not create the instance"
  | .assertion => "Engine did not assert the fact"
  | .deletion name => "Engine refused to delete [" ++ name ++ "]"
  | .unmaking name => "Engine refused to unmake [" ++ name ++ "]"
  | .modification i => "Engine refused to modify f-" ++ toString i
  | .undefinition kind name => "Engine refused to undefine " ++ kind.word ++ " " ++ name

/-- The text of a wrong setting. -/
def Setting.message : Setting → String
  | .blankTag field => field ++ " must be a non-empty string."
  | .sameTags => "binding_tag and serialization_tag must differ."
  | .superclass shown => "superclass must be a class name, got " ++ shown ++ "."
  | .patternMatch => "pattern_match must be one of ['non-reactive', 'reactive']."
  | .autoSynthesize => "auto_synthesize must be a bool."
  | .loadPaths => "load_paths must be a sequence of paths, not a string."
  | .truthWord source raw =>
    source ++ " must be a boolean word, got " ++ Text.shown raw ++ "."

/-- A message with the engine's own text behind it, if there is one. -/
def withDiagnostic (message diagnostic : String) : String :=
  if diagnostic.isEmpty then message else message ++ ": " ++ diagnostic

namespace ErrorClass

/-- The text of an error of a class by what it was raised with. Only what the engine did not do has
the engine's text behind it. -/
def textOf (c : ErrorClass) (message diagnostic : String) : String :=
  if c = .construction then withDiagnostic message diagnostic else message

/-- What an error of a class can be raised with besides its message. -/
def details : ErrorClass → List String
  | .construction => ["command", "diagnostic"]
  | .call => ["function"]
  | _ => []

/-- How an error of a class with a text is shown. -/
def shownWith (c : ErrorClass) (text : String) : String := c.name ++ "(" ++ Text.shown text ++ ")"

end ErrorClass

namespace Error

/-- The name of the class of an error. -/
def className : Error → String
  | .host fault => fault.className
  | .engine _ => "CLIPSError"
  | e => (e.class?.map ErrorClass.name).getD ""

mutual

/-- The text of an error. -/
def message : Error → String
  | .unsupported cause => cause.message
  | .outOfRange cause => cause.message
  | .precisionLoss x => "Float " ++ x.text ++ " has a fractional part."
  | .mismatch cause => cause.message
  | .stale cause => cause.message
  | .construction cause _ diagnostic => withDiagnostic cause.message diagnostic
  | .call failure _ => failureMessage failure
  | .setting cause => cause.message
  | .host fault => fault.message
  | .engine diagnostic => diagnostic

/-- The text of a failed call. -/
def failureMessage : CallFailure → String
  | .reentered operation =>
    operation ++ " cannot run while a bridged function is executing."
  | .arity name required declared variadic got =>
    name ++ " takes " ++ toString required ++ ".." ++ toString declared ++
      (if variadic then "+" else "") ++ " arguments, got " ++ toString got ++ "."
  | .argument name position kind cause =>
    name ++ ": argument " ++ toString (position + 1) ++ " (" ++ kindWord kind ++ "): " ++
      message cause
  | .reported name text => name ++ " failed: " ++ text
  | .noErrorSlot name => name ++ " returned no error slot."
  | .result name cause => name ++ " returned an unconvertible value: " ++ message cause
  | .raised name cause => name ++ " raised " ++ shown cause
  | .carried cause => message cause

/-- How an error is shown: its class and what it was raised with. -/
def shown : Error → String
  | .unsupported cause => "UnsupportedTypeError(" ++ Text.shown cause.message ++ ")"
  | .outOfRange cause => "OutOfRangeError(" ++ Text.shown cause.message ++ ")"
  | .precisionLoss x =>
    "PrecisionLossError(" ++ Text.shown ("Float " ++ x.text ++ " has a fractional part.") ++ ")"
  | .mismatch cause => "SchemaMismatchError(" ++ Text.shown cause.message ++ ")"
  | .stale cause => "InvalidReferenceError(" ++ Text.shown cause.message ++ ")"
  | .construction cause _ diagnostic =>
    "ConstructionError(" ++ Text.shown (withDiagnostic cause.message diagnostic) ++ ")"
  | .call failure _ => "CallbackError(" ++ Text.shown (failureMessage failure) ++ ")"
  | .setting cause => "ConfigError(" ++ Text.shown cause.message ++ ")"
  | .host fault => fault.className ++ "(" ++ Text.shown fault.argument ++ ")"
  | .engine diagnostic => "CLIPSError(" ++ Text.shown diagnostic ++ ")"

end

end Error

/-- A result in two parts that is there has both parts. -/
theorem Except.ok_of_bind {ε α β : Type} {found : Except ε α} {next : α → Except ε β} {b : β}
    (hfound : found >>= next = .ok b) : ∃ a, found = .ok a ∧ next a = .ok b := by
  cases found with
  | error e => cases hfound
  | ok a => exact ⟨a, rfl, hfound⟩

end RuleMarshal
