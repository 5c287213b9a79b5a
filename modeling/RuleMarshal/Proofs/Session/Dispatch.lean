import RuleMarshal.Proofs.Environment.Operation
import RuleMarshal.Session.Run
/-!
Every operation that a step can call concludes under the contracts that operations rely on
(`concludes_callReceiver`), and all but those that report absence meet them as parts of operations
do (`meets_callReceiver`). What a step or the body of a host function does besides is to read, to
hold and to name values, so it keeps every relation that leaves the host program free and that the
operations keep (`Step.keeps_run`, `Callable.keeps_run`).
-/

set_option autoImplicit false
set_option relaxedAutoImplicit false

namespace RuleMarshal

open Act

/-- Whether an operation reports of some receiver that something is not there where others fail:
whether it exists, what is found by its name, and whether its removal was refused. -/
def Method.reportsAbsence : Method → Bool
  | .present | .findTemplate | .undefine => true
  | _ => false

variable {world : World} {C C₀ : Contract}

/-! ### Answers -/

theorem meets_newMapping (hfree : LeavesHostFree C.answered) (entries : List (String × Value)) :
    (newMapping entries).Meets C world :=
  .map _ (.of_keeps (keeps_alloc hfree _))

theorem meets_done {act : Act Unit} (hact : act.Meets C world) : (done act).Meets C world :=
  hact.bind fun _ ↦ .pure _

theorem meets_noMethod {α : Type} (receiver : Value) (word : String) :
    (noMethod receiver word : Act α).Meets C world :=
  .throw _

theorem meets_equalValues (v w : Value) : (equalValues v w).Meets C world :=
  .bind .read fun _ ↦ .bind .get fun _ ↦ .ofExcept _

theorem meets_typeGiven (v : Value) : (typeGiven v).Meets C world := by
  refine .bind (.of_keeps (.requireKey v)) fun _ ↦ ?_
  split
  · exact .pure _
  · split
    · exact meets_noMethod _ _
    · exact .throw _
  · exact meets_noMethod _ _

theorem Environment.meets_epochFor (v : Value) : (epochFor v).Meets C world := by
  refine .bind .get fun s ↦ ?_
  split <;> exact .pure _

/-! ### Operations of handles, builders and slots -/

section

variable (hC : Governing C C₀ world)
include hC

theorem meets_slotValues {α : Type} (owner : α) (make : α → String → Nat → Value)
    (names : List String) : (slotValues owner make names).Meets C world :=
  .bind (.mapM names fun _ _ ↦ hC.nextSerial.bind fun _ ↦ .pure _) fun _ ↦ .pure _

theorem meets_callInstance (h : InstanceHandle) (method : Method) (b : Bound) :
    (callInstance h method b).Meets C world := by
  have hI := hC.toInquiring
  have hO := hC.toCommanding
  cases method with
  | name => exact .pure _
  | ref => exact .pure _
  | present => exact (h.meets_isAlive hI).bind fun _ ↦ .pure _
  | instanceClass => exact (h.meets_instanceClass hI).bind fun _ ↦ .pure _
  | slotNames => exact (h.meets_slotNames hI).bind fun _ ↦ .pure _
  | slots => exact (h.meets_slots hI).bind fun _ ↦ meets_newMapping hC.free _
  | slot => exact (h.meets_slot hI _).bind fun _ ↦ .pure _
  | setSlot => exact meets_done (h.meets_setSlot hO _ _)
  | send => exact (h.meets_send hI _ _).bind fun _ ↦ .pure _
  | delete => exact meets_done (h.meets_delete hO)
  | unmake => exact meets_done (h.meets_unmake hO)
  | extract => exact hC.extract _ _
  | _ => exact meets_noMethod _ _

theorem meets_callFact (h : FactHandle) (method : Method) (b : Bound) :
    (callFact h method b).Meets C world := by
  have hI := hC.toInquiring
  have hO := hC.toCommanding
  cases method with
  | index => exact .pure _
  | present => exact (h.meets_isAlive hI).bind fun _ ↦ .pure _
  | template => exact (h.meets_template hI).bind fun _ ↦ .pure _
  | implied => exact (h.meets_isOrdered hI).bind fun _ ↦ .pure _
  | slotNames => exact (h.meets_slotNames hI).bind fun _ ↦ .pure _
  | slot => exact (h.meets_slot hI _).bind fun _ ↦ .pure _
  | values => exact (h.meets_values hI).bind fun _ ↦ .pure _
  | slots =>
    refine (h.meets_slots hI).bind fun content ↦ ?_
    cases content with
    | ordered values => exact .pure _
    | slots values => exact meets_newMapping hC.free _
  | retract => exact meets_done (h.meets_retract hO)
  | modify => exact (h.meets_modify hO _).bind fun _ ↦ .pure _
  | extract => exact hC.extract _ _
  | _ => exact meets_noMethod _ _

theorem meets_callBuilder (id : Nat) (method : Method) (b : Bound) :
    (callBuilder id method b).Meets C world := by
  have hO := hC.toCommanding
  cases method with
  | template => exact (Builder.meets_read id).bind fun _ ↦ .pure _
  | asserted => exact (Builder.meets_read id).bind fun _ ↦ .pure _
  | append => exact (Builder.meets_append hO id _).bind fun _ ↦ .pure _
  | extend => exact (Builder.meets_extend hO id _).bind fun _ ↦ .pure _
  | set => exact (Builder.meets_set hO id _ _).bind fun _ ↦ .pure _
  | update => exact (Builder.meets_update hO id _).bind fun _ ↦ .pure _
  | render => exact (Builder.meets_render id).bind fun _ ↦ .pure _
  | assertFact => exact (Builder.meets_assertFact hO id).bind fun _ ↦ .pure _
  | _ => exact meets_noMethod _ _

theorem meets_callTemplate (h : TemplateHandle) {method : Method}
    (hmethod : method.reportsAbsence = false) : (callTemplate h method).Meets C world := by
  have hI := hC.toInquiring
  cases method with
  | present | undefine => cases hmethod
  | name => exact .pure _
  | implied => exact (h.meets_isOrdered hI).bind fun _ ↦ .pure _
  | slots => exact (h.meets_slots hI).bind fun _ ↦ meets_slotValues hC h _ _
  | facts => exact (h.meets_facts hI).bind fun _ ↦ .pure _
  | newFact => exact (Builder.meets_ofTemplate hC.toCommanding h).bind fun _ ↦ .pure _
  | _ => exact meets_noMethod _ _

theorem concludes_callTemplate (h : TemplateHandle) (method : Method) :
    (callTemplate h method).Concludes C world := by
  cases method with
  | present => exact (hC.templateAlive h).answering _
  | undefine => exact (h.concludes_undefine hC).answering _
  | findTemplate => exact .of_meets (meets_noMethod _ _)
  | _ => exact .of_meets (meets_callTemplate hC h rfl)

theorem meets_callClass (h : ClassHandle) (method : Method) (b : Bound) :
    (callClass h method b).Meets C world := by
  have hI := hC.toInquiring
  cases method with
  | name => exact .pure _
  | present => exact (h.meets_isAlive hI).bind fun _ ↦ .pure _
  | abstract => exact (h.meets_isAbstract hI).bind fun _ ↦ .pure _
  | reactive => exact (h.meets_isReactive hI).bind fun _ ↦ .pure _
  | superclasses => exact (h.meets_superclasses hI).bind fun _ ↦ .pure _
  | subclasses => exact (h.meets_subclasses hI).bind fun _ ↦ .pure _
  | slots => exact (h.meets_slots hI).bind fun _ ↦ meets_slotValues hC h _ _
  | instances => exact (h.meets_instances hI).bind fun _ ↦ .pure _
  | newInstance => exact (h.meets_newInstance hC.toCommanding _ _).bind fun _ ↦ .pure _
  | undefine => exact meets_done (h.meets_undefine hC)
  | _ => exact meets_noMethod _ _

theorem meets_callTemplateSlot (owner : TemplateHandle) (name : String) (serial : Nat)
    (method : Method) : (callTemplateSlot owner name serial method).Meets C world := by
  cases method with
  | name => exact .pure _
  | multifield | types | defaultValue | allowedValues | range | cardinality =>
    exact (owner.meets_facet hC.toInquiring name _).bind fun _ ↦ .pure _
  | _ => exact meets_noMethod _ _

theorem meets_callClassSlot (owner : ClassHandle) (name : String) (serial : Nat)
    (method : Method) : (callClassSlot owner name serial method).Meets C world := by
  have hI := hC.toInquiring
  cases method with
  | name => exact .pure _
  | multifield => exact (owner.meets_isMulti hI name).bind fun _ ↦ .pure _
  | types | allowedClasses | defaultValue | allowedValues | range | cardinality =>
    exact (owner.meets_facet hI name _).bind fun _ ↦ .pure _
  | writable => exact (owner.meets_isWritable hI name).bind fun _ ↦ .pure _
  | _ => exact meets_noMethod _ _

/-! ### Operations of an environment -/

theorem meets_callEnvironment {method : Method} (hmethod : method.reportsAbsence = false)
    (b : Bound) :
    (callEnvironment method b).Meets C world := by
  have hO := hC.toCommanding
  cases method with
  | findTemplate => cases hmethod
  | build => exact meets_done (Environment.meets_build hO _)
  | eval => exact (Environment.meets_evaluate hO.toInquiring _).bind fun _ ↦ .pure _
  | extractEval => exact Environment.meets_extractFrom hO _ _
  | load =>
    exact .bind (.of_keeps (.written _)) fun path ↦ meets_done (Environment.meets_load hO path)
  | batch =>
    exact .bind (.of_keeps (.written _)) fun path ↦ meets_done (Environment.meets_batch hO path)
  | reset => exact meets_done (Environment.meets_reset hC)
  | run => exact (Environment.meets_run hO _).bind fun _ ↦ .pure _
  | clear => exact meets_done (Environment.meets_clear hC)
  | close => exact meets_done (Environment.meets_close hC)
  | leave => exact meets_done (Environment.meets_close hC)
  | closed => exact .bind .get fun _ ↦ .pure _
  | enter => exact .pure _
  | defineFunction => exact (Environment.meets_register hC _ _).bind fun _ ↦ .pure _
  | insert => exact (meets_insert hO _ _).bind fun _ ↦ .pure _
  | extract => exact hC.extract _ _
  | makeInstance => exact (Environment.meets_makeInstance hO _).bind fun _ ↦ .pure _
  | assertString => exact (Environment.meets_assertText hO _).bind fun _ ↦ .pure _
  | assertCommand => exact (Environment.meets_assertBy hO _).bind fun _ ↦ .pure _
  | facts => exact hC.facts.bind fun _ ↦ .pure _
  | templates => exact (Environment.meets_templates hO).bind fun _ ↦ .pure _
  | instances => exact (Environment.meets_instances hO).bind fun _ ↦ .pure _
  | findInstance =>
    exact .bind (.of_keeps (.written _)) fun name ↦
      (Environment.meets_findInstance hO name).bind fun _ ↦ .pure _
  | classes => exact (Environment.meets_classes hO).bind fun _ ↦ .pure _
  | findClass => exact (Environment.meets_findClass hO _).bind fun _ ↦ .pure _
  | instanceHandle =>
    exact .bind (.of_keeps (.written _)) fun name ↦ (hC.instanceHandle name).bind fun _ ↦ .pure _
  | factHandle =>
    exact .bind (.ofExcept _) fun index ↦ (hC.factHandle index).bind fun _ ↦ .pure _
  | templateHandle => exact (hC.templateHandle _).bind fun _ ↦ .pure _
  | classHandle => exact (hC.classHandle _).bind fun _ ↦ .pure _
  | guardMutation =>
    exact .bind (.of_keeps (.written _)) fun operation ↦
      meets_done (meets_guardMutation hO operation)
  | synthesize =>
    exact (meets_typeGiven _).bind fun h ↦ (hC.synthesize h).bind fun _ ↦ .pure _
  | verify =>
    exact (meets_typeGiven _).bind fun h ↦ (hC.schemaOf h).bind fun schema ↦
      meets_done (hC.verify schema)
  | reflect =>
    exact (meets_typeGiven _).bind fun h ↦ (hC.schemaOf h).bind fun _ ↦ .pure _
  | functionNames => exact .bind (.bind .get fun _ ↦ .pure _) fun _ ↦ .pure _
  | signature =>
    refine .bind (.of_keeps (.requireKey _)) fun _ ↦ ?_
    split
    · exact .bind (.bind .get fun _ ↦ .pure _) fun _ ↦ .pure _
    · exact .pure _
  | epochFor => exact (Environment.meets_epochFor _).bind fun _ ↦ .pure _
  | letValue => exact .pure _
  | eq => exact (meets_equalValues _ _).bind fun _ ↦ .pure _
  | identical => exact .pure _
  | countDistinct =>
    exact .bind .read fun _ ↦ .bind .get fun _ ↦ .bind (.ofExcept _) fun _ ↦ .pure _
  | shown => exact .bind (.of_keeps (.shown _)) fun _ ↦ .pure _
  | sameEnvironment =>
    unfold callEnvironment
    dsimp only
    split <;> first | exact .pure _ | exact meets_noMethod _ _
  | _ => exact meets_noMethod _ _

theorem concludes_callEnvironment (method : Method) (b : Bound) :
    (callEnvironment method b).Concludes C world := by
  cases method with
  | findTemplate => exact (Environment.concludes_findTemplate hC.toCommanding _).answering _
  | present | undefine => exact .of_meets (meets_noMethod _ _)
  | _ => exact .of_meets (meets_callEnvironment hC rfl b)

/-- Every operation of an environment and of what belongs to it concludes. -/
theorem concludes_callReceiver (receiver : Value) (method : Method) (b : Bound) :
    (callReceiver receiver method b).Concludes C world := by
  unfold callReceiver
  split
  · exact .of_meets (meets_callInstance hC _ method b)
  · exact .of_meets (meets_callFact hC _ method b)
  · exact .of_meets (meets_callBuilder hC _ method b)
  · exact concludes_callTemplate hC _ method
  · exact .of_meets (meets_callClass hC _ method b)
  · exact .of_meets (meets_callTemplateSlot hC _ _ _ method)
  · exact .of_meets (meets_callClassSlot hC _ _ _ method)
  · exact concludes_callEnvironment hC method b
  · exact .of_meets (meets_noMethod _ _)

/-- An operation that does not report absence meets what parts of operations meet. -/
theorem meets_callReceiver (receiver : Value) {method : Method}
    (hmethod : method.reportsAbsence = false) (b : Bound) :
    (callReceiver receiver method b).Meets C world := by
  unfold callReceiver
  split
  · exact meets_callInstance hC _ method b
  · exact meets_callFact hC _ method b
  · exact meets_callBuilder hC _ method b
  · exact meets_callTemplate hC _ hmethod
  · exact meets_callClass hC _ method b
  · exact meets_callTemplateSlot hC _ _ _ method
  · exact meets_callClassSlot hC _ _ _ method
  · exact meets_callEnvironment hC hmethod b
  · exact meets_noMethod _ _

end

/-! ### Steps and bodies -/

section

variable {R : State → State → Prop} [IsPreorder State R] (hfree : LeavesHostFree R)
include hfree

theorem keeps_read (l : Literal) : l.read.Keeps R world :=
  l.keeps_readWithin hfree.building callLimit

theorem Hint.keeps_make (h : Hint) (args : List Value) : (h.make args).Keeps R world := by
  refine .bind .get fun s ↦ ?_
  dsimp only
  split
  all_goals first
    | exact .pure _
    | exact .throw _
    | exact .ofExcept _
    | exact .bind (.ofExcept _) fun _ ↦ .pure _
    | exact (Keeps.written _).bind fun _ ↦ .pure _
    | exact keeps_read hfree _

omit hfree in
theorem Step.keeps_receiverValue (name : String) (item : Option Int) :
    (receiverValue name item).Keeps R world := by
  refine .bind .get fun s ↦ (keeps_valueOf name item).bind fun v ↦ ?_
  split
  · exact .throw _
  · exact .pure _

omit hfree in
theorem Step.keeps_call (receiver : Value) (word : String) (found : Option (Method × Access))
    (args : List Value) (keywords : List (String × Value)) {perform : Method → Bound → Act Value}
    (hperform : ∀ method b, (perform method b).Keeps R world) :
    (Step.call receiver word found args keywords perform).Keeps R world := by
  unfold Step.call
  split
  · exact .throw _
  · exact .bind (.ofExcept _) fun bound ↦ .bind .get fun s ↦ hperform _ _

variable (hcall : ∀ receiver method b, (callReceiver receiver method b).Keeps R world)
include hcall

/-- A step keeps what the operations keep. -/
theorem Step.keeps_run (step : Step) : step.run.Keeps R world := by
  obtain ⟨word, args, keywords, receiver, store⟩ := step
  unfold Step.run
  refine .bind (.mapM args fun l _ ↦ keeps_read hfree l) fun args ↦ ?_
  refine .bind (.mapM keywords fun p _ ↦ (keeps_read hfree p.2).bind fun _ ↦ .pure _) fun named ↦ ?_
  dsimp only
  split
  case' h_1 => refine (keeps_call _ word _ args _ (hcall .environment)).bind fun answer ↦ ?_
  case' h_2 =>
    refine (keeps_receiverValue _ _).bind fun v ↦ ?_
    split
    case' h_1 => refine .bind .get fun s ↦ ?_
    all_goals
      refine .bind (.pure _) fun kept ↦ ?_
      split
      case' h_1 => refine .bind (.pure _) fun answer ↦ ?_
      case' h_2 => refine (keeps_call _ word _ args _ (hcall _)).bind fun answer ↦ ?_
  -- whoever answered, what is answered may be stored
  all_goals
    split
    · exact .pure _
    · exact (keeps_remember hfree _ _).bind fun _ ↦ keeps_valueOf _ none

variable (hstepFailed : ∀ e, (note (.stepFailed e)).Keeps R world)
include hstepFailed

/-- The body of a host function keeps what the operations and its notes keep. -/
theorem Body.keeps_run (args : List Value) (body : Body) : (body.run args).Keeps R world := by
  obtain ⟨raised, steps, swallow, ans⟩ := body
  cases raised with
  | some p => exact .throw _
  | none =>
    refine .bind (.forM steps fun step _ ↦ .tryCatch (step.keeps_run hfree hcall).discard fun e ↦
      (hstepFailed e).bind fun _ ↦ .ite (.throw e) (.pure _)) fun _ ↦ ?_
    cases ans with
    | argument i => exact .ofExcept _
    | arguments => exact .pure _
    | count => exact .pure _
    | value l => exact keeps_read hfree l

theorem Callable.keeps_run (hinvoked : ∀ name args, (note (.invoked name args)).Keeps R world)
    (f : Callable) (args : List Value) : (f.run args).Keeps R world := by
  cases f with
  | function f =>
    exact .bind .read fun _ ↦ .bind .get fun _ ↦ (hinvoked _ _).bind fun _ ↦
      f.body.keeps_run hfree hcall hstepFailed args
  | type h => exact h.keeps_make hfree args
  | other => exact .throw _

end

end RuleMarshal
