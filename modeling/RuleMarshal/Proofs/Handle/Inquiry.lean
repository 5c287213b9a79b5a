import RuleMarshal.Handle.Builder
import RuleMarshal.Handle.Class
import RuleMarshal.Handle.Instance
import RuleMarshal.Proofs.Computation.Contract
import RuleMarshal.Proofs.Environment.Frame
/-!
Inquiries. What is asked of instances, facts, templates and classes meets every contract that its
commands meet (`Inquiring`): it sends no guarded command and changes nothing else. So does the
synthesis of classes. In particular inquiries keep to every frame (`Frame.inquiring`).
-/

set_option autoImplicit false
set_option relaxedAutoImplicit false

namespace RuleMarshal

open Act

variable {world : World} {allowed : Command → Prop} {R : State → State → Prop}

section

variable [IsPreorder State R]

/-! ### Names and values in engine text -/

namespace Act.Keeps

theorem shown (v : Value) : (Act.shown v).Keeps R world :=
  .bind .read fun _ ↦ .bind .get fun _ ↦ .ofExcept _

theorem written (v : Value) : (Act.written v).Keeps R world :=
  .bind .read fun _ ↦ .bind .get fun _ ↦ .ofExcept _

theorem requireKey (v : Value) : (Act.requireKey v).Keeps R world :=
  .bind .read fun _ ↦ .bind .get fun _ ↦ .ofExcept _

theorem symbolText (role : NameRole) (v : Value) : (Act.symbolText role v).Keeps R world := by
  have hrefused : Act.Keeps R world (do
      MonadExcept.throw (Error.unsupported (.engineSymbol role (← Act.shown v))) : Act HostText) :=
    (shown v).bind fun _ ↦ .throw _
  unfold Act.symbolText
  cases v.hostText? with
  | none => exact hrefused
  | some t => exact .ite (.pure t) hrefused

theorem symbol (role : NameRole) (v : Value) : (Act.symbol role v).Keeps R world :=
  (symbolText role v).bind fun _ ↦ .pure _

theorem encode (v : Value) : (Act.encode v).Keeps R world := .bind .get fun _ ↦ .ofExcept _

theorem term (v : Value) : (Act.term v).Keeps R world := (encode v).bind fun _ ↦ .ofExcept _

theorem slotTerms : ∀ slots : List (String × Value), (Act.slotTerms slots).Keeps R world
  | [] => .pure _
  | (name, v) :: rest => (symbol .slot (.text name)).bind fun _ ↦ (term v).bind fun _ ↦
      (slotTerms rest).bind fun _ ↦ .pure _

theorem content (v : EngineValue) : (Act.content v).Keeps R world := by
  unfold Act.content
  cases v.content? with
  | none => exact .throw _
  | some s => exact .pure s

theorem factIn (v : EngineValue) (refusal : Error) : (Act.factIn v refusal).Keeps R world := by
  cases v <;> first | exact .pure _ | exact .throw _

end Act.Keeps

end

/-! ### What inquiries rely on -/

/-- A contract that is met by sending allowed commands, among them all that may be sent while a host
function runs, by taking up what is parked, by reflecting a type, by numbering a handle, and by
asking whether a template exists. -/
structure Inquiring (C : Contract) (world : World) (allowed : Command → Prop) : Prop where
  unguarded : ∀ c, c.isGuarded = false → allowed c
  serial : ∀ s n, C.answered s { s with serial := n }
  schemaOf : ∀ h, (RuleMarshal.schemaOf h).Meets C world
  send : ∀ c, allowed c → ∀ refusal sent, (Channel.send c refusal sent).Meets C world
  checked : ∀ {α : Type} {act : Act α}, act.Meets C world → act.checked.Meets C world
  templateAlive : ∀ h : TemplateHandle, h.isAlive.Decides C world (.stale (.templateGone h.name))

theorem Frame.keeps_templateAlive {R : State → State → Prop} [IsPreorder State R]
    (hF : Frame world allowed R) (h : TemplateHandle) : h.isAlive.Keeps R world := by
  refine .bind .get fun s ↦ .ite (.pure _) ?_
  refine (hF.evalTrue (hF.unguarded _ rfl)).bind fun listed ↦ .ite (.pure _) ?_
  exact .tryCatch ((hF.eval (hF.unguarded _ rfl)).bind fun _ ↦ .pure _)
    fun e ↦ .ite (.pure _) (.throw e)

/-- A frame is a contract that inquiries rely on. -/
theorem Frame.inquiring {R : State → State → Prop} [IsPreorder State R]
    (hF : Frame world allowed R) : Inquiring (.ofRelation R) world allowed where
  unguarded := hF.unguarded
  serial := hF.serial
  schemaOf h := Meets.iff_keeps.mpr (hF.schemaOf h)
  send _ hallowed refusal sent := Meets.iff_keeps.mpr (hF.send hallowed refusal sent)
  checked hact := Meets.iff_keeps.mpr (hF.checked (Meets.iff_keeps.mp hact))
  templateAlive h := .of_meets (Meets.iff_keeps.mpr (hF.keeps_templateAlive h))

section

variable {C : Contract} (hC : Inquiring C world allowed)
include hC

namespace Inquiring

/-! ### Questions and definitions -/

theorem evaluate {e : Expression} (hallowed : allowed (.evaluate e)) :
    (Channel.evaluate e).Meets C world :=
  (hC.send _ hallowed _ _).bind fun v ↦ .of_keeps (v.keeps_toEngine hC.serial)

theorem eval {e : Expression} (hallowed : allowed (.evaluate e)) : (Act.eval e).Meets C world :=
  hC.checked (hC.evaluate hallowed)

theorem evalTrue {e : Expression} (hallowed : allowed (.evaluate e)) :
    (Act.evalTrue e).Meets C world :=
  (hC.eval hallowed).bind fun _ ↦ .pure _

theorem isTrue {e : Expression} (hallowed : allowed (.evaluate e)) :
    (Channel.isTrue e).Meets C world :=
  (hC.evaluate hallowed).bind fun _ ↦ .pure _

theorem names {e : Expression} (hallowed : allowed (.evaluate e)) :
    (Channel.names e).Meets C world :=
  (hC.evaluate hallowed).bind fun _ ↦ .pure _

theorem build (construct : Native) : (Channel.build construct).Meets C world :=
  (hC.send _ (hC.unguarded _ rfl) _ _).discard

/-! ### Synthesis -/

theorem classIsDefined (name : String) : (RuleMarshal.classIsDefined name).Meets C world :=
  hC.isTrue (hC.unguarded _ rfl)

theorem synthesizeWithin (depth : Nat) (schema : ClassSchema) :
    Carrying.Meets C world (RuleMarshal.synthesizeWithin depth schema) := by
  induction depth generalizing schema with
  | zero => exact .throw _
  | succ depth ih =>
    unfold RuleMarshal.synthesizeWithin
    refine .bind .get fun progress ↦ .ite (.pure _) ?_
    refine (Carrying.Meets.lift (hC.classIsDefined schema.name)).bind fun defined ↦
      .ite (.pure _) ?_
    refine (Carrying.Meets.modify _).bind fun _ ↦ .bind (.foldlM _ _ fun forward nested _ ↦ ?_) ?_
    · refine (Carrying.Meets.lift (hC.schemaOf nested)).bind fun nestedSchema ↦
        .bind .get fun now ↦ ?_
      exact .ite (.pure _) ((ih nestedSchema).bind fun _ ↦ .pure _)
    · intro forward
      refine (Carrying.Meets.lift .read).bind fun world ↦ ?_
      exact (Carrying.Meets.lift (hC.build _)).bind fun _ ↦ .modify _

theorem synthesize (h : Hint) : (RuleMarshal.synthesize h).Meets C world :=
  (hC.schemaOf h).bind fun schema ↦ .bind .read fun _ ↦
    (hC.synthesizeWithin _ schema {}).bind fun _ ↦ .pure _

theorem verifySlot (className : String) (present : List String) (slot : SlotSchema) :
    (RuleMarshal.verifySlot className present slot).Meets C world := by
  refine .ite (.bind (.throw _) fun _ ↦ ?_) ?_ <;>
    exact (hC.names (hC.unguarded _ rfl)).bind fun _ ↦ .ite (.throw _) (.pure _)

theorem verify (schema : ClassSchema) : (RuleMarshal.verify schema).Meets C world := by
  refine (hC.classIsDefined schema.name).bind fun defined ↦ .refuse ?_
  exact (hC.names (hC.unguarded _ rfl)).bind fun present ↦
    .forM _ fun slot _ ↦ hC.verifySlot schema.name present slot

/-! ### Handles on constructs -/

theorem nextSerial : Act.nextSerial.Meets C world := .of_keeps (keeps_nextSerial hC.serial)

theorem instanceHandle (name : String) : (Act.instanceHandle name).Meets C world :=
  .of_keeps (keeps_instanceHandle hC.serial name)

theorem factHandle (index : Int) : (Act.factHandle index).Meets C world :=
  .of_keeps (keeps_factHandle hC.serial index)

theorem templateHandle (name : Value) : (Act.templateHandle name).Meets C world :=
  .bind (.of_keeps (.requireKey name)) fun _ ↦ .bind .get fun _ ↦
    .bind (.of_keeps (.symbolText .template name)) fun _ ↦ hC.nextSerial.bind fun _ ↦ .pure _

theorem classHandle (name : Value) : (Act.classHandle name).Meets C world :=
  .bind (.of_keeps (.requireKey name)) fun _ ↦ .bind .get fun _ ↦
    .bind (.of_keeps (.symbolText .defclass name)) fun _ ↦ hC.nextSerial.bind fun _ ↦ .pure _

theorem classHandles (names : List String) : (Act.classHandles names).Meets C world :=
  .mapM names fun name _ ↦ hC.classHandle (.text name)

theorem instancesIn (v : EngineValue) : (Act.instancesIn v).Meets C world := by
  refine .bind (.mapM _ fun item _ ↦ ?_) fun _ ↦ .pure _
  cases item <;>
    first | exact .pure _ | exact (hC.instanceHandle _).bind fun _ ↦ .pure _

theorem facts : Act.facts.Meets C world := by
  refine (hC.eval (hC.unguarded _ rfl)).bind fun v ↦ ?_
  cases v <;> exact .pure _

end Inquiring

/-! ### Instances -/

namespace InstanceHandle

variable (h : InstanceHandle)

theorem meets_isAlive : h.isAlive.Meets C world :=
  .bind .get fun _ ↦ .ite (hC.evalTrue (hC.unguarded _ rfl)) (.pure _)

theorem meets_check : h.check.Meets C world :=
  (meets_isAlive hC h).bind fun _ ↦ .ite (.throw _) (.pure _)

theorem meets_instanceClass : h.instanceClass.Meets C world :=
  (meets_check hC h).bind fun _ ↦ (hC.eval (hC.unguarded _ rfl)).bind fun v ↦
    .bind (.of_keeps (.content v)) fun _ ↦ hC.classHandle _

theorem meets_slotNames : h.slotNames.Meets C world :=
  (meets_check hC h).bind fun _ ↦ (hC.eval (hC.unguarded _ rfl)).bind fun v ↦
    .bind (.of_keeps (.content v)) fun _ ↦ (hC.eval (hC.unguarded _ rfl)).bind fun _ ↦ .pure _

theorem meets_slot (name : Value) : (h.slot name).Meets C world :=
  (meets_check hC h).bind fun _ ↦ .bind (.of_keeps (.symbol .slot name)) fun _ ↦
    hC.eval (hC.unguarded _ rfl)

theorem meets_slots : h.slots.Meets C world :=
  (meets_slotNames hC h).bind fun names ↦ .foldlM names _ fun _ name _ ↦
    (meets_slot hC h (.text name)).bind fun _ ↦ .pure _

theorem meets_send (message : Value) (args : List Value) :
    (h.send message args).Meets C world :=
  (meets_check hC h).bind fun _ ↦ .bind (.mapM args fun v _ ↦ .of_keeps (.term v)) fun _ ↦
    .bind (.of_keeps (.symbol .message message)) fun _ ↦ hC.eval (hC.unguarded _ rfl)

end InstanceHandle

/-! ### Templates -/

namespace TemplateHandle

variable (h : TemplateHandle)

theorem meets_check : h.check.Meets C world := (hC.templateAlive h).require

theorem meets_slotLexemes : h.slotLexemes.Meets C world :=
  (hC.eval (hC.unguarded _ rfl)).bind fun _ ↦ .pure _

theorem meets_isOrdered : h.isOrdered.Meets C world :=
  (meets_check hC h).bind fun _ ↦ (meets_slotLexemes hC h).bind fun _ ↦ .pure _

theorem meets_slots : h.slots.Meets C world :=
  (meets_isOrdered hC h).bind fun _ ↦ .ite (.pure _) (meets_slotLexemes hC h)

theorem meets_facet (slot : String) (f : TemplateFacet) : (h.facet slot f).Meets C world :=
  (meets_check hC h).bind fun _ ↦ hC.eval (hC.unguarded _ rfl)

end TemplateHandle

/-! ### Facts -/

namespace FactHandle

variable (h : FactHandle)

theorem meets_isAlive : h.isAlive.Meets C world :=
  .bind .get fun _ ↦ .ite (hC.evalTrue (hC.unguarded _ rfl)) (.pure _)

theorem meets_check : h.check.Meets C world :=
  (meets_isAlive hC h).bind fun _ ↦ .ite (.throw _) (.pure _)

theorem meets_template : h.template.Meets C world :=
  (meets_check hC h).bind fun _ ↦ (hC.eval (hC.unguarded _ rfl)).bind fun v ↦
    .bind (.of_keeps (.content v)) fun _ ↦ hC.templateHandle _

theorem meets_slotNames : h.slotNames.Meets C world :=
  (meets_check hC h).bind fun _ ↦ (hC.eval (hC.unguarded _ rfl)).bind fun _ ↦ .pure _

theorem meets_isOrdered : h.isOrdered.Meets C world :=
  (meets_slotNames hC h).bind fun _ ↦ .pure _

theorem meets_slot (name : Value) : (h.slot name).Meets C world :=
  (meets_check hC h).bind fun _ ↦ .bind (.of_keeps (.symbol .slot name)) fun _ ↦
    hC.eval (hC.unguarded _ rfl)

theorem meets_values : h.values.Meets C world := by
  refine (meets_isOrdered hC h).bind fun ordered ↦ .refuse ?_
  refine (meets_slot hC h (.text orderedSlot)).bind fun v ↦ ?_
  cases v <;> exact .pure _

theorem meets_slots : h.slots.Meets C world := by
  refine (meets_slotNames hC h).bind fun names ↦ .ite ?_ ?_
  · exact (meets_values hC h).bind fun _ ↦ .pure _
  · exact .bind (.foldlM names _ fun _ name _ ↦ (meets_slot hC h (.text name)).bind
      fun _ ↦ .pure _) fun _ ↦ .pure _

end FactHandle

theorem TemplateHandle.meets_facts (h : TemplateHandle) : h.facts.Meets C world :=
  (meets_check hC h).bind fun _ ↦ hC.facts.bind fun found ↦
    .filterM found fun fact _ ↦ (fact.meets_template hC).bind fun _ ↦ .pure _

/-! ### Classes -/

namespace ClassHandle

variable (h : ClassHandle)

theorem meets_isAlive : h.isAlive.Meets C world :=
  .bind .get fun _ ↦ .ite (hC.evalTrue (hC.unguarded _ rfl)) (.pure _)

theorem meets_check : h.check.Meets C world :=
  (meets_isAlive hC h).bind fun _ ↦ .ite (.throw _) (.pure _)

theorem meets_isAbstract : h.isAbstract.Meets C world :=
  (meets_check hC h).bind fun _ ↦ hC.evalTrue (hC.unguarded _ rfl)

theorem meets_isReactive : h.isReactive.Meets C world :=
  (meets_check hC h).bind fun _ ↦ hC.evalTrue (hC.unguarded _ rfl)

theorem meets_superclasses : h.superclasses.Meets C world :=
  (meets_check hC h).bind fun _ ↦ (hC.eval (hC.unguarded _ rfl)).bind fun _ ↦ hC.classHandles _

theorem meets_subclasses : h.subclasses.Meets C world :=
  (meets_check hC h).bind fun _ ↦ (hC.eval (hC.unguarded _ rfl)).bind fun _ ↦ hC.classHandles _

theorem meets_slots : h.slots.Meets C world :=
  (meets_check hC h).bind fun _ ↦ (hC.eval (hC.unguarded _ rfl)).bind fun _ ↦ .pure _

theorem meets_instances : h.instances.Meets C world :=
  (meets_check hC h).bind fun _ ↦ (hC.eval (hC.unguarded _ rfl)).bind fun _ ↦ hC.instancesIn _

theorem meets_facet (slot : String) (f : ClassFacet) : (h.facet slot f).Meets C world :=
  (meets_check hC h).bind fun _ ↦ hC.eval (hC.unguarded _ rfl)

theorem meets_isMulti (slot : String) : (h.isMulti slot).Meets C world :=
  (meets_facet hC h slot .all).bind fun _ ↦ .pure _

theorem meets_isWritable (slot : String) : (h.isWritable slot).Meets C world :=
  hC.evalTrue (hC.unguarded _ rfl)

end ClassHandle

end

end RuleMarshal
