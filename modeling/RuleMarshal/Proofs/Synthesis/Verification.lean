import RuleMarshal.Proofs.Environment.Sending
import RuleMarshal.Proofs.Synthesis.Course
/-!
Verification. That a class of the engine can hold the values of a schema is found out by questions
alone: whether it is defined, which slots it has, and of each slot of the schema whether it takes
one value or many. Between the states in which a verification began and ended without an error, each
of these questions was asked and answered as it has to be (`verified_of_verify`), and it stays so
later on (`ClassSchema.Verified.extend`). A synthesis sends definitions beside questions, and all of
them are definitions of schemas (`Sends.keeps_synthesize`).
-/

set_option autoImplicit false
set_option relaxedAutoImplicit false

namespace RuleMarshal

open Act

/-- Between two states the engine was asked about the class of a schema, and answered each question
as it has to be for the class to hold the values of the schema. -/
structure ClassSchema.Verified (world : World) (schema : ClassSchema) (s t : State) : Prop where
  isDefined : ∃ v, Answered world s t (.classQuery .isDefined schema.name) v ∧ v.isTrue = true
  hasSlots : ∃ v, Answered world s t (.classSlots schema.name) v ∧ ∀ slot ∈ schema.slots,
    slot.name ∈ v.lexemes
  fits : ∀ slot ∈ schema.slots, ∃ v, Answered world s t (.classFacet .all schema.name slot.name) v ∧
    listsMulti v.lexemes = slot.multi

section

variable {world : World} {permitted : State → Command → Prop} {s t : State} {schema : ClassSchema}
variable {e : Expression}

theorem ClassSchema.Verified.extend (hverified : schema.Verified world s t) {before after : State}
    (hbefore : Proceeds world before s) (hafter : Proceeds world t after) :
    schema.Verified world before after where
  isDefined := by
    obtain ⟨v, hanswered, hv⟩ := hverified.isDefined
    exact ⟨v, hanswered.extend hbefore hafter, hv⟩
  hasSlots := by
    obtain ⟨v, hanswered, hv⟩ := hverified.hasSlots
    exact ⟨v, hanswered.extend hbefore hafter, hv⟩
  fits slot hslot := by
    obtain ⟨v, hanswered, hv⟩ := hverified.fits slot hslot
    exact ⟨v, hanswered.extend hbefore hafter, hv⟩

/-! ### What is sent -/

/-- Whether questions are permitted at all times. -/
def PermitsQuestions (permitted : State → Command → Prop) : Prop :=
  ∀ s e, e.isGuarded = false → permitted s (.evaluate e)

section

variable (hquestions : PermitsQuestions permitted)
include hquestions

theorem Sends.keeps_evaluate (he : e.isGuarded = false) :
    (Channel.evaluate e).Keeps (Sends world permitted) world :=
  fun s ↦ .of_evaluate (hquestions s e he)

theorem Sends.keeps_names (he : e.isGuarded = false) :
    (Channel.names e).Keeps (Sends world permitted) world :=
  (keeps_evaluate hquestions he).bind fun _ ↦ .pure _

theorem Sends.keeps_classIsDefined (name : String) :
    (classIsDefined name).Keeps (Sends world permitted) world :=
  (keeps_evaluate hquestions rfl).bind fun _ ↦ .pure _

theorem Sends.keeps_verifySlot (className : String) (present : List String) (slot : SlotSchema) :
    (verifySlot className present slot).Keeps (Sends world permitted) world := by
  refine .ite (.bind (.throw _) fun _ ↦ ?_) ?_ <;>
    exact (keeps_names hquestions rfl).bind fun _ ↦ .ite (.throw _) (.pure _)

theorem Sends.keeps_verify (schema : ClassSchema) :
    (verify schema).Keeps (Sends world permitted) world := by
  refine (keeps_classIsDefined hquestions schema.name).bind fun defined ↦
    .ite (.bind (.throw _) fun _ ↦ ?_) ?_ <;>
    exact (keeps_names hquestions rfl).bind fun present ↦
      .forM _ fun slot _ ↦ keeps_verifySlot hquestions schema.name present slot

section

variable (hdefines : ∀ s schema pending,
  permitted s (.build (.text (world.definition schema pending))))
include hdefines

/-- Where definitions of classes are permitted at all times, a synthesis sends what is permitted. -/
theorem Sends.keeps_synthesizeWithin (depth : Nat) (schema : ClassSchema) :
    Carrying.Keeps (Sends world permitted) world (synthesizeWithin depth schema) := by
  induction depth generalizing schema with
  | zero => exact .throw _
  | succ depth ih =>
    rw [synthesizeWithin_succ]
    refine Carrying.Meets.iff_keeps.mp (.bind .get fun progress ↦ .ite (.pure _) ?_)
    have hasked : (classIsDefined schema.name).Meets (.ofRelation (Sends world permitted)) world :=
      Meets.iff_keeps.mpr (keeps_classIsDefined hquestions schema.name)
    refine (Carrying.Meets.lift hasked).bind fun defined ↦ .ite (.pure _) ?_
    refine (Carrying.Meets.modify _).bind fun _ ↦
      .bind (.foldlM _ _ fun forward nested _ ↦ ?_) fun forward ↦ ?_
    · have hschema : (schemaOf nested).Meets (.ofRelation (Sends world permitted)) world :=
        Meets.iff_keeps.mpr (keeps_schemaOf nested)
      refine (Carrying.Meets.lift hschema).bind fun nestedSchema ↦ .bind .get fun now ↦ ?_
      exact .ite (.pure _) ((Carrying.Meets.iff_keeps.mpr (ih nestedSchema)).bind fun _ ↦ .pure _)
    · have hbuilt : (Channel.build (.text (world.definition schema forward))).Meets
          (.ofRelation (Sends world permitted)) world :=
        .discard (Meets.iff_keeps.mpr fun s ↦ of_send (hdefines s schema forward) _ _)
      exact .reading ((Carrying.Meets.lift hbuilt).bind fun _ ↦ .modify _)

theorem Sends.keeps_synthesize (h : Hint) : (synthesize h).Keeps (Sends world permitted) world :=
  (keeps_schemaOf h).bind fun schema ↦ .bind .read fun _ ↦
    (keeps_synthesizeWithin hquestions hdefines _ schema {}).bind fun _ ↦ .pure _

end

end

/-! ### What a verification has found out -/

theorem exists_answered_of_names {names : List String}
    (hrun : (Channel.names e).runIn world s = (.ok names, t)) :
    ∃ v, Answered world s t e v ∧ v.lexemes = names := by
  obtain ⟨v, u, hevaluate, hreturn⟩ := ok_of_bind hrun
  cases hreturn
  exact ⟨v, answered_of_evaluate hevaluate, rfl⟩

/-- A slot that a verification has passed is among the slots of the class, and takes as many
values. -/
theorem ok_of_verifySlot {className : String} {present : List String} {slot : SlotSchema}
    (hrun : (verifySlot className present slot).runIn world s = (.ok ⟨⟩, t)) :
    slot.name ∈ present ∧
      ∃ v, Answered world s t (.classFacet .all className slot.name) v ∧
        listsMulti v.lexemes = slot.multi := by
  unfold verifySlot at hrun
  obtain ⟨hpresent, hasking⟩ := ok_of_refuse hrun
  obtain ⟨facets, u, hnames, hcompared⟩ := ok_of_bind hasking
  obtain ⟨v, hanswered, rfl⟩ := exists_answered_of_names hnames
  refine ⟨by simpa using hpresent, v, ?_⟩
  split at hcompared
  · cases hcompared
  · rename_i hsame
    cases hcompared
    exact ⟨hanswered, not_not.mp hsame⟩

/-- A walk along a list that ends with an answer has gone on after each item. -/
theorem exists_runIn_of_forM {R : State → State → Prop} [IsPreorder State R] {γ : Type}
    {f : γ → Act PUnit} {items : List γ} (hf : ∀ c ∈ items, (f c).Keeps R world)
    (hrun : (items.forM f).runIn world s = (.ok ⟨⟩, t)) :
    ∀ c ∈ items, ∃ u v, R s u ∧ (f c).runIn world u = (.ok ⟨⟩, v) ∧ R v t := by
  induction items generalizing s with
  | nil => exact nofun
  | cons first rest ih =>
    obtain ⟨⟨⟩, w, hfirst, hrest⟩ := ok_of_bind hrun
    have hrestKeeps := fun c hc ↦ hf c (List.mem_cons_of_mem first hc)
    intro c hc
    obtain rfl | hc := List.mem_cons.mp hc
    · exact ⟨s, w, refl_of R s, hfirst, (Act.Keeps.forM rest hrestKeeps).of_runIn hrest⟩
    · obtain ⟨u, v, hbefore, hc, hafter⟩ := ih hrestKeeps hrest c hc
      exact ⟨u, v, trans_of R ((hf first List.mem_cons_self).of_runIn hfirst) hbefore, hc, hafter⟩

/-- What a verification that ends without an error leaves is a class that was verified. -/
theorem verified_of_verify (hrun : (verify schema).runIn world s = (.ok ⟨⟩, t)) :
    schema.Verified world s t := by
  have hquestions : PermitsQuestions fun _ _ ↦ True := fun _ _ _ ↦ trivial
  obtain ⟨defined, u, hdefined, hexists⟩ := ok_of_bind hrun
  obtain ⟨htrue, hasking⟩ := ok_of_refuse hexists
  obtain ⟨present, w, hnames, hwalk⟩ := ok_of_bind hasking
  have hslots := exists_runIn_of_forM (R := Proceeds world)
    (fun slot _ ↦ Sends.keeps_verifySlot hquestions schema.name present slot) hwalk
  have hsu : Proceeds world s u :=
    (Sends.keeps_classIsDefined hquestions schema.name).of_runIn hdefined
  have huw : Proceeds world u w := (Sends.keeps_names hquestions rfl).of_runIn hnames
  have hwt : Proceeds world w t :=
    (Act.Keeps.forM _ fun slot _ ↦
      Sends.keeps_verifySlot hquestions schema.name present slot).of_runIn hwalk
  obtain ⟨answer, x, hevaluate, hreturn⟩ := ok_of_bind hdefined
  cases hreturn
  obtain ⟨v, hanswered, rfl⟩ := exists_answered_of_names hnames
  refine ⟨⟨answer, ?_, by simpa using htrue⟩, ⟨v, ?_, fun slot hslot ↦ ?_⟩, fun slot hslot ↦ ?_⟩
  · exact (answered_of_evaluate hevaluate).extend (.refl s) (huw.trans hwt)
  · exact hanswered.extend hsu hwt
  · obtain ⟨_, _, -, hpassed, -⟩ := hslots slot hslot
    exact (ok_of_verifySlot hpassed).1
  · obtain ⟨x, y, hbefore, hpassed, hafter⟩ := hslots slot hslot
    obtain ⟨w, hanswered, hsame⟩ := (ok_of_verifySlot hpassed).2
    exact ⟨w, hanswered.extend (hsu.trans (huw.trans hbefore)) hafter, hsame⟩

end

end RuleMarshal
