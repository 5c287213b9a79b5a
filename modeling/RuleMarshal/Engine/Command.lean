import RuleMarshal.Engine.Render
/-!
What is sent to the engine and what comes back. An expression is a question or an order in the
engine's own language; each has a form of its own here and one text. A reply holds the calls of
host functions that the engine made while it worked, and how the work ended.
-/

set_option autoImplicit false
set_option relaxedAutoImplicit false

namespace RuleMarshal

/-- Facets of a slot of a template that can be asked for. -/
inductive TemplateFacet where
  | isMulti | types | default | allowedValues | range | cardinality
  deriving DecidableEq, Repr

/-- The engine's function for a facet of a template slot. -/
def TemplateFacet.function : TemplateFacet → String
  | .isMulti => "deftemplate-slot-multip"
  | .types => "deftemplate-slot-types"
  | .default => "deftemplate-slot-default-value"
  | .allowedValues => "deftemplate-slot-allowed-values"
  | .range => "deftemplate-slot-range"
  | .cardinality => "deftemplate-slot-cardinality"

/-- Facets of a slot of a class that can be asked for. -/
inductive ClassFacet where
  | all | types | allowedClasses | default | allowedValues | range | cardinality | isWritable
  deriving DecidableEq, Repr

/-- The engine's function for a facet of a class slot. -/
def ClassFacet.function : ClassFacet → String
  | .all => "slot-facets"
  | .types => "slot-types"
  | .allowedClasses => "slot-allowed-classes"
  | .default => "slot-default-value"
  | .allowedValues => "slot-allowed-values"
  | .range => "slot-range"
  | .cardinality => "slot-cardinality"
  | .isWritable => "slot-writablep"

/-- What can be asked about a class. -/
inductive ClassQuery where
  | isDefined | isAbstract | isReactive | superclasses | subclasses
  deriving DecidableEq, Repr

/-- The engine's function for a question about a class. -/
def ClassQuery.function : ClassQuery → String
  | .isDefined => "class-existp"
  | .isAbstract => "class-abstractp"
  | .isReactive => "class-reactivep"
  | .superclasses => "class-superclasses"
  | .subclasses => "class-subclasses"

/-- The content of a new fact: values in order, or values in named slots. -/
inductive FactContent where
  | ordered (values : List Term)
  | slots (values : List (String × Term))

/-- An expression for the engine to evaluate. -/
inductive Expression where
  /-- A text that the host program wrote itself. -/
  | written (text : String)
  /-- Something else that the host program gave in the place of a text. -/
  | other (given : Native)
  | freshName
  | classQuery (query : ClassQuery) (name : String)
  | classSlots (name : String)
  | classFacet (facet : ClassFacet) (name slot : String)
  | classList
  | instancesOf (name : String)
  | makeInstance (name : Option String) (className : String) (overrides : List (String × Term))
  | instanceExists (name : String)
  | classOf (name : String)
  | readSlot (name slot : String)
  | writeSlot (name slot : String) (value : Term)
  | send (name message : String) (args : List Term)
  | deleteInstance (name : String)
  | unmakeInstance (name : String)
  | factList
  | factExists (index : Int)
  | factRelation (index : Int)
  | factSlotNames (index : Int)
  | factSlot (index : Int) (slot : String)
  | retract (index : Int)
  | modify (index : Int) (changes : List (String × Term))
  | assertText (fact : String)
  | assertFact (template : String) (content : FactContent)
  | templateList
  | isListedTemplate (name : String)
  | templateSlots (name : String)
  | templateFacet (facet : TemplateFacet) (name slot : String)
  | undefine (isClass : Bool) (name : String)
  | isFunction (name : String)

/-- Terms in a row, a space in front of each. -/
def spacedTerms (terms : List Term) : String := String.join (terms.map fun t ↦ " " ++ t.text)

/-- A slot with its value. -/
def slotText (slot : String × Term) : String := "(" ++ slot.1 ++ " " ++ slot.2.text ++ ")"

/-- Slots with their values in a row, a space in front of each. -/
def spacedSlots (slots : List (String × Term)) : String :=
  String.join (slots.map fun s ↦ " " ++ slotText s)

/-- The text of a new fact. -/
def FactContent.text (template : String) : FactContent → String
  | .ordered values => "(assert (" ++ template ++ spacedTerms values ++ "))"
  | .slots values => "(assert (" ++ template ++ spacedSlots values ++ "))"

/-- The text of an expression; what is no text has none. -/
def Expression.text : Expression → String
  | .written text => text
  | .other _ => ""
  | .freshName => "(gensym*)"
  | .classQuery query name => "(" ++ query.function ++ " " ++ name ++ ")"
  | .classSlots name => "(class-slots " ++ name ++ " inherit)"
  | .classFacet facet name slot => "(" ++ facet.function ++ " " ++ name ++ " " ++ slot ++ ")"
  | .classList => "(get-defclass-list)"
  | .instancesOf name => "(find-all-instances ((?i " ++ name ++ ")) TRUE)"
  | .makeInstance name className overrides =>
    "(make-instance " ++ (name.map fun n ↦ renderInstanceName n ++ " ").getD "" ++ "of " ++
      className ++ spacedSlots overrides ++ ")"
  | .instanceExists name => "(instance-existp " ++ renderInstanceName name ++ ")"
  | .classOf name => "(class " ++ renderInstanceName name ++ ")"
  | .readSlot name slot => "(send " ++ renderInstanceName name ++ " get-" ++ slot ++ ")"
  | .writeSlot name slot value =>
    "(send " ++ renderInstanceName name ++ " put-" ++ slot ++ " " ++ value.text ++ ")"
  | .send name message args =>
    "(send " ++ renderInstanceName name ++ " " ++ message ++ spacedTerms args ++ ")"
  | .deleteInstance name => "(send " ++ renderInstanceName name ++ " delete)"
  | .unmakeInstance name => "(unmake-instance " ++ renderInstanceName name ++ ")"
  | .factList => "(get-fact-list)"
  | .factExists i => "(fact-existp " ++ toString i ++ ")"
  | .factRelation i => "(fact-relation " ++ toString i ++ ")"
  | .factSlotNames i => "(fact-slot-names " ++ toString i ++ ")"
  | .factSlot i slot => "(fact-slot-value " ++ toString i ++ " " ++ slot ++ ")"
  | .retract i => "(retract " ++ toString i ++ ")"
  | .modify i changes => "(modify " ++ toString i ++ spacedSlots changes ++ ")"
  | .assertText fact => "(assert-string " ++ Text.EngineString.quote fact ++ ")"
  | .assertFact template content => content.text template
  | .templateList => "(get-deftemplate-list)"
  | .isListedTemplate name => "(member$ " ++ name ++ " (get-deftemplate-list))"
  | .templateSlots name => "(deftemplate-slot-names " ++ name ++ ")"
  | .templateFacet facet name slot => "(" ++ facet.function ++ " " ++ name ++ " " ++ slot ++ ")"
  | .undefine isClass name =>
    "(" ++ (if isClass then "undefclass" else "undeftemplate") ++ " " ++ name ++ ")"
  | .isFunction name =>
    "(or (member$ " ++ name ++ " (get-function-list)) (member$ " ++ name ++
      " (get-deffunction-list)))"

/-- What is sent for an expression: its text, or what was given in its place. -/
def Expression.sent : Expression → Native
  | .other given => given
  | e => .text e.text

/-- A command to the engine. -/
inductive Command where
  | build (construct : Native)
  | evaluate (expression : Expression)
  | load (path : String)
  | batch (path : String)
  | bindFunction (name : String)
  | run (limit : Native)
  | reset
  | clear

/-- A call of a host function by the engine. -/
structure EngineCall where
  name : String
  args : List Native

/-- The engine's reply to a command: the host functions that it lost, the calls that it made on the
way, and then a value or the engine's own error text. -/
structure Reply where
  forgets : List String := []
  calls : List EngineCall := []
  outcome : Except String Native := .ok .null

mutual

/-- An engine value in the form that the binding takes. An address of an instance goes as the
instance's name. -/
def EngineValue.toNative : EngineValue → Except Error Native
  | .integer n _ => .ok (.int n)
  | .float x => .ok (.float x)
  | .string s => .ok (.text s)
  | .symbol s => .ok (.symbol s)
  | .instanceName s => .ok (.instanceName s)
  | .multifield items => do return .list (← toNativeEach items)
  | .instanceAddress h => .ok (.instanceName h.name)
  | .externalAddress label => .ok (.external label)
  | v => .error (.unsupported (.notNative v.kind?))

/-- Engine values in the form that the binding takes. -/
def toNativeEach : List EngineValue → Except Error (List Native)
  | [] => .ok []
  | v :: rest => do
    let first ← v.toNative
    let others ← toNativeEach rest
    return first :: others

end

end RuleMarshal
