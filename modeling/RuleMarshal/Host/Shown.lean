import RuleMarshal.Host.Heap
import RuleMarshal.Shape.Basic
/-!
How host values are shown in messages. A container shows what it holds; one that is met again
inside itself is cut short. A text is shown between quotes, and written as it is where a message
asks for the text of a value. An object that lacks one of its attributes cannot be shown.
-/

set_option autoImplicit false
set_option relaxedAutoImplicit false

namespace RuleMarshal

/-- How a template handle is shown. -/
def TemplateHandle.shown (h : TemplateHandle) : String := "Template(" ++ h.name ++ ")"

/-- How a class handle is shown. -/
def ClassHandle.shown (h : ClassHandle) : String := "Class(" ++ h.name ++ ")"

/-- A list of texts between brackets. -/
def bracketed (left right : String) (texts : List String) : String :=
  left ++ ", ".intercalate texts ++ right

/-- Texts as a tuple: a single one has a comma behind it. -/
def tupleText : List String → String
  | [t] => "(" ++ t ++ ",)"
  | texts => bracketed "(" ")" texts

/-- Whether something is so, as it is shown. -/
def truthText (b : Bool) : String := if b then "True" else "False"

/-- How a hint is shown where there may be none. -/
def optionalHintText (h : Option Hint) : String := (h.map Hint.fullText).getD "None"

/-- Named texts between parentheses behind a name. -/
def recordText (name : String) (fields : List (String × String)) : String :=
  name ++ bracketed "(" ")" (fields.map fun p ↦ p.1 ++ "=" ++ p.2)

/-- How a signature is shown. -/
def Signature.shown (s : Signature) : String :=
  recordText "CallableSignature"
    [("name", s.text.shown), ("params", tupleText (s.params.map Hint.fullText)),
      ("required", toString s.required), ("variadic", optionalHintText s.variadic),
      ("returns", s.returns.fullText), ("error_terminal", truthText s.errorTerminal)]

/-- How a slot of a schema is shown. -/
def SlotSchema.shown (s : SlotSchema) : String :=
  recordText "SlotSchema"
    [("name", Text.shown s.name), ("attr", Text.shown s.attr), ("kind", Text.shown s.kind.word),
      ("cardinality", Text.shown (if s.multi then "multi" else "single")),
      ("referenced_class", (s.reference.map fun r ↦ Text.shown r.2).getD "None"),
      ("optional", truthText s.optional), ("hint", s.hint.fullText),
      ("referenced_type", optionalHintText (s.reference.map (·.1)))]

/-- How the schema of a class is shown. -/
def ClassSchema.shown (s : ClassSchema) : String :=
  recordText "ClassSchema"
    [("name", Text.shown s.name), ("host_type", s.hostType.fullText),
      ("slots", tupleText (s.slots.map SlotSchema.shown))]

/-- The attributes that an object shows, in the order of declaration. An object whose fields carry
metadata has to have them all; of any other those that are set are shown. -/
def TypeTable.shownAttrs (table : TypeTable) (struct : String) (attrs : List (String × Value)) :
    Except Error (List (String × Value)) :=
  match table.find? struct with
  | some t =>
    if table.kindOf t = .annotated then
      (table.declaredFields t).mapM fun f ↦
        match attrs.lookup f.attr with
        | some v => .ok (f.attr, v)
        | none => .error (.host (.noAttribute
            ("'" ++ struct ++ "' object has no attribute '" ++ f.attr ++ "'")))
    else
      .ok ((table.declaredFields t).filterMap fun f ↦ (attrs.lookup f.attr).map fun v ↦ (f.attr, v))
  | none => .ok []

mutual

/-- How a value is shown inside the given cells, at most the given number of cells deep. -/
def Value.shownWithin (table : TypeTable) (heap : Heap) (depth : Nat) (around : List Nat) :
    Value → Except Error String
  | .none => .ok "None"
  | .bool b => .ok (truthText b)
  | .int _ n => .ok (toString n)
  | .float x => .ok x.text
  | .text s => .ok (Text.shown s)
  | .symbol s => .ok ("Symbol(" ++ Text.shown s ++ ")")
  | .instanceName s => .ok ("InstanceName(" ++ Text.shown s ++ ")")
  | .list items => do return bracketed "[" "]" (← shownEach table heap depth around items)
  | .tuple items => do return tupleText (← shownEach table heap depth around items)
  | .held id =>
    match depth with
    | 0 => .ok "..."
    | depth + 1 => (heap.heldIn id).shownWithin table heap depth around
  | .mapping id =>
    match depth with
    | 0 => .ok "\x7b...\x7d"
    | depth + 1 =>
      if around.contains id then .ok "\x7b...\x7d"
      else do
        let entries ← shownEntries table heap depth (id :: around) (heap.entries id)
        return bracketed "\x7b" "\x7d" entries
  | .object struct id =>
    match depth with
    | 0 => .ok "..."
    | depth + 1 =>
      if around.contains id then .ok "..."
      else
        match table.shownAttrs struct (heap.attrs id) with
        | .ok attrs => do
          return struct ++
            bracketed "(" ")" (← shownAttrs table heap depth (id :: around) attrs)
        | .error e => .error e
  | .builder id =>
    .ok ("FactBuilder(" ++ ((heap.builder? id).map (·.template.name)).getD "" ++ ")")
  | .engine v => .ok v.shown
  | .hint h => .ok h.fullText
  | .exception kind text => .ok (kind.name ++ "(" ++ Text.shown text ++ ")")
  | .external label => .ok label
  | .stranger .bytes => .ok "b''"
  | .stranger .set => .ok "set()"
  | .stranger .complex => .ok "0j"
  | .stranger .object => .ok "Unknown"
  | .stranger .bare => .ok "<object object>"
  | .instanceHandle h => .ok h.shown
  | .factHandle h => .ok h.shown
  | .templateHandle h => .ok h.shown
  | .classHandle h => .ok h.shown
  | .templateSlot owner name _ => .ok ("TemplateSlot(" ++ owner.name ++ "." ++ name ++ ")")
  | .classSlot owner name _ => .ok ("ClassSlot(" ++ owner.name ++ "." ++ name ++ ")")
  | .function f => .ok ("<function " ++ f.name.getD "" ++ ">")
  | .signature s => .ok s.shown
  | .schema s => .ok s.shown
  | .construct kind => .ok kind.typeName
  | .environment => .ok "Environment"
termination_by v => (depth, sizeOf v)

/-- How the values of a list are shown. -/
def shownEach (table : TypeTable) (heap : Heap) (depth : Nat) (around : List Nat) :
    List Value → Except Error (List String)
  | [] => .ok []
  | v :: rest => do
    let first ← v.shownWithin table heap depth around
    let others ← shownEach table heap depth around rest
    return first :: others
termination_by vs => (depth, sizeOf vs)

/-- How the entries of a mapping are shown. -/
def shownEntries (table : TypeTable) (heap : Heap) (depth : Nat) (around : List Nat) :
    List (Value × Value) → Except Error (List String)
  | [] => .ok []
  | (k, v) :: rest => do
    let key ← k.shownWithin table heap depth around
    let value ← v.shownWithin table heap depth around
    let others ← shownEntries table heap depth around rest
    return (key ++ ": " ++ value) :: others
termination_by es => (depth, sizeOf es)

/-- How the attributes of an object are shown. -/
def shownAttrs (table : TypeTable) (heap : Heap) (depth : Nat) (around : List Nat) :
    List (String × Value) → Except Error (List String)
  | [] => .ok []
  | (name, v) :: rest => do
    let value ← v.shownWithin table heap depth around
    let others ← shownAttrs table heap depth around rest
    return (name ++ "=" ++ value) :: others
termination_by as => (depth, sizeOf as)

end

/-- How a value is shown. A way through the heap that visits no cell twice is no longer than the
heap. -/
def Value.shown (table : TypeTable) (heap : Heap) (v : Value) : Except Error String :=
  v.shownWithin table heap (heap.cells.size + 1) []

/-- Whether values of a struct type are models. -/
def TypeTable.isModel (table : TypeTable) (struct : String) : Bool :=
  ((table.find? struct).map table.kindOf) = some .model

/-- The text of a value: a text as it is, an exception by what it was raised with, a model by its
attributes without its name, and every other value as it is shown. -/
def Value.written (table : TypeTable) (heap : Heap) (v : Value) : Except Error String :=
  match heap.content v with
  | .text s | .symbol s | .instanceName s => .ok s
  | .exception kind argument => .ok (HostFault.raised kind argument).message
  | .object struct id =>
    if table.isModel struct then do
      let attrs ← table.shownAttrs struct (heap.attrs id)
      return " ".intercalate (← shownAttrs table heap heap.cells.size [id] attrs)
    else (Value.object struct id).shown table heap
  | v => v.shown table heap

end RuleMarshal
