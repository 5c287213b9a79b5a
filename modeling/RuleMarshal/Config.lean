import RuleMarshal.Host.Equality
import RuleMarshal.Host.Shown
import RuleMarshal.Text.SafeSymbol
/-!
Settings of an environment. Two tags say under which keys fields keep their engine names, two
settings shape the classes that are defined, one says whether missing classes are defined at all,
and a list names the files to load at the start. Settings come from values of the host program or
from variables of the process.
-/

set_option autoImplicit false
set_option relaxedAutoImplicit false

namespace RuleMarshal

/-- The settings of an environment. -/
structure Config where
  bindingTag : HostText := .plain "clips"
  serializationTag : HostText := .plain "json"
  superclass : HostText := .plain "USER"
  patternMatch : HostText := .plain "reactive"
  autoSynthesize : Bool := true
  loadPaths : List String := []

/-- What is supplied for the settings, as values of the host program. -/
structure Supplied where
  bindingTag : Value := .text "clips"
  serializationTag : Value := .text "json"
  superclass : Value := .text "USER"
  patternMatch : Value := .text "reactive"
  autoSynthesize : Value := .bool true
  loadPaths : Value := .tuple []

/-- The ways in which synthesized classes may take part in pattern matching. -/
def patternMatchModes : List String := ["reactive", "non-reactive"]

/-- The values that a walk over a value yields. -/
def Value.iterated (heap : Heap) (v : Value) : Except Error (List Value) :=
  match heap.content v with
  | .list items | .tuple items => .ok items
  | .mapping id => .ok ((heap.entries id).map (·.1))
  | .text s | .symbol s | .instanceName s =>
    .ok (s.toList.map fun c ↦ .text (String.singleton c))
  | .engine (.multifield items) => .ok (items.map .engine)
  | .stranger .bytes | .stranger .set => .ok []
  | v => .error (.host (.typing ("'" ++ v.typeName ++ "' object is not iterable")))

/-- Refuses a value that cannot be looked for in a set. A set itself can be looked for, although
no set can hold it. -/
def Value.soughtInSet (table : TypeTable) (heap : Heap) : Value → Except Error Unit
  | .stranger .set => .ok ()
  | v => v.countable table heap

namespace Config

/-- The keys under which fields keep their names. -/
def tags (config : Config) : Tags :=
  ⟨config.bindingTag.content, config.serializationTag.content⟩

/-- A tag has to be a text that is not blank. -/
def checkTag (field : String) (v : Value) : Except Error HostText :=
  match v.hostText? with
  | some t =>
    if Text.isAllBlank t.content then .error (.setting (.blankTag field)) else .ok t
  | none => .error (.setting (.blankTag field))

/-- The tags have to differ. -/
def checkTags (bindingTag serializationTag : Value) : Except Error (HostText × HostText) := do
  let binding ← checkTag "binding_tag" bindingTag
  let serialization ← checkTag "serialization_tag" serializationTag
  if binding.content = serialization.content then throw (.setting .sameTags)
  return (binding, serialization)

/-- A superclass has to be a symbol. -/
def checkSuperclass (table : TypeTable) (heap : Heap) (v : Value) : Except Error HostText :=
  match v.hostText?.filter fun t ↦ Text.SafeSymbol.accepts t.content with
  | some t => .ok t
  | none => do throw (.setting (.superclass (← v.shown table heap)))

/-- A way to take part in pattern matching has to be one that there is; it is looked for among
them. -/
def checkPatternMatch (table : TypeTable) (heap : Heap) (v : Value) : Except Error HostText := do
  v.soughtInSet table heap
  match v.hostText?.filter fun t ↦ patternMatchModes.contains t.content with
  | some t => return t
  | none => throw (.setting .patternMatch)

/-- Whether to define missing classes has to be a truth value. -/
def checkAutoSynthesize : Value → Except Error Bool
  | .bool b => .ok b
  | _ => .error (.setting .autoSynthesize)

/-- Paths are the texts of what a value yields that is no text itself. -/
def checkLoadPaths (table : TypeTable) (heap : Heap) (v : Value) : Except Error (List String) := do
  if v.text?.isSome then throw (.setting .loadPaths)
  (← v.iterated heap).mapM (Value.written table heap)

/-- The settings that were supplied, checked one after the other. -/
def check (table : TypeTable) (heap : Heap) (supplied : Supplied) : Except Error Config := do
  let tags ← checkTags supplied.bindingTag supplied.serializationTag
  let superclass ← checkSuperclass table heap supplied.superclass
  let patternMatch ← checkPatternMatch table heap supplied.patternMatch
  let autoSynthesize ← checkAutoSynthesize supplied.autoSynthesize
  let loadPaths ← checkLoadPaths table heap supplied.loadPaths
  return {
    bindingTag := tags.1, serializationTag := tags.2, superclass, patternMatch,
      autoSynthesize, loadPaths }

/-- Words for truth and falsehood. -/
def truthWord? (word : String) : Option Bool :=
  if ["1", "true", "yes", "on"].contains word then some true
  else if ["0", "false", "no", "off"].contains word then some false
  else none

/-- The truth value that a variable of the process gives. -/
def readTruth (source raw : String) : Except Error Bool :=
  match truthWord? (String.ofList ((Text.strip raw).toList.map Char.toLower)) with
  | some b => .ok b
  | none => .error (.setting (.truthWord source raw))

/-- The settings that variables of the process give; one that is missing or empty gives none. -/
def ofVariables (process : List (String × String)) : Except Error Config := do
  let given (name : String) : Option String :=
    (process.lookup name).filter fun s ↦ !s.isEmpty
  let text (name fallback : String) : Value := .text ((given name).getD fallback)
  let autoSynthesize ←
    match given "CLIPSBRIDGE_AUTO_SYNTHESIZE" with
    | some raw => readTruth "CLIPSBRIDGE_AUTO_SYNTHESIZE" raw
    | none => pure true
  let paths := ((given "CLIPSBRIDGE_LOAD").map fun raw ↦
    (raw.splitOn ":").filter fun path ↦ !path.isEmpty).getD []
  check {} {}
    { bindingTag := text "CLIPSBRIDGE_BINDING_TAG" "clips"
      serializationTag := text "CLIPSBRIDGE_SERIALIZATION_TAG" "json"
      superclass := text "CLIPSBRIDGE_SUPERCLASS" "USER"
      autoSynthesize := .bool autoSynthesize
      loadPaths := .tuple (paths.map .text) }

end Config

end RuleMarshal
