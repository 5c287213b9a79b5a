/-!
The operations that a step of a host program can call, each with its word. Some are operations of
environments, some of handles, builders and slots, and some are questions that a session answers
itself.
-/

set_option autoImplicit false
set_option relaxedAutoImplicit false

namespace RuleMarshal

/-- Operations of environments, handles, builders and slots, and questions to a session. -/
inductive Method where
  | build | eval | extractEval | load | batch | reset | run | clear | close | closed
  | defineFunction | insert | extract | makeInstance | assertString | assertCommand
  | facts | templates | findTemplate | instances | findInstance | classes | findClass
  | instanceHandle | factHandle | templateHandle | classHandle | guardMutation | enter | leave
  | synthesize | verify | reflect | functionNames | signature | epochFor | letValue | eq
  | identical | countDistinct | shown | sameEnvironment
  | name | ref | present | instanceClass | slotNames | slots | slot | setSlot | send | delete
  | unmake | index | template | implied | values | retract | modify | asserted | append
  | extend | set | update | render | assertFact | newFact | undefine | abstract | reactive
  | superclasses | subclasses | newInstance | multifield | types | allowedClasses
  | defaultValue | allowedValues | range | cardinality | writable
  deriving DecidableEq, Repr

namespace Method

/-- The operations by their words. -/
def words : List (String × Method) :=
  [("build", .build), ("eval", .eval), ("extract_eval", .extractEval), ("load", .load),
    ("batch_star", .batch), ("reset", .reset), ("run", .run), ("clear", .clear),
    ("close", .close), ("closed", .closed), ("define_function", .defineFunction),
    ("insert", .insert), ("extract", .extract), ("make_instance", .makeInstance),
    ("assert_string", .assertString), ("assert_command", .assertCommand), ("facts", .facts),
    ("templates", .templates), ("find_template", .findTemplate), ("instances", .instances),
    ("find_instance", .findInstance), ("classes", .classes), ("find_class", .findClass),
    ("instance_handle", .instanceHandle), ("fact_handle", .factHandle),
    ("template_handle", .templateHandle), ("class_handle", .classHandle),
    ("guard_mutation", .guardMutation), ("__enter__", .enter), ("exit", .leave),
    ("synthesize", .synthesize), ("verify", .verify), ("reflect", .reflect),
    ("function_names", .functionNames), ("signature", .signature), ("epoch_for", .epochFor),
    ("let", .letValue), ("eq", .eq), ("is", .identical), ("distinct", .countDistinct),
    ("repr", .shown), ("same_env", .sameEnvironment), ("name", .name), ("ref", .ref),
    ("exists", .present), ("instance_class", .instanceClass), ("slot_names", .slotNames),
    ("slots", .slots), ("slot", .slot), ("set_slot", .setSlot), ("send", .send),
    ("delete", .delete), ("unmake", .unmake), ("index", .index), ("template", .template),
    ("implied", .implied), ("values", .values), ("retract", .retract), ("modify", .modify),
    ("asserted", .asserted), ("append", .append), ("extend", .extend), ("set", .set),
    ("update", .update), ("render", .render), ("assert_fact", .assertFact),
    ("new_fact", .newFact), ("undefine", .undefine), ("abstract", .abstract),
    ("reactive", .reactive), ("superclasses", .superclasses), ("subclasses", .subclasses),
    ("new_instance", .newInstance), ("multifield", .multifield), ("types", .types),
    ("allowed_classes", .allowedClasses), ("default_value", .defaultValue),
    ("allowed_values", .allowedValues), ("range", .range), ("cardinality", .cardinality),
    ("writable", .writable)]

/-- The operation of a word. -/
def ofWord? (word : String) : Option Method := words.lookup word

/-- The word of an operation. -/
def word (m : Method) : String := ((words.find? fun p ↦ p.2 = m).map (·.1)).getD ""

/-- Whether an operation tells apart things that are equal, so that its arguments are the very
things that were given. -/
def keepsIdentity : Method → Bool
  | .letValue | .eq | .identical | .countDistinct | .insert | .extract | .extractEval => true
  | _ => false

end Method

end RuleMarshal
