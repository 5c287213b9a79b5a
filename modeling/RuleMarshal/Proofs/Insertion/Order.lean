import RuleMarshal.Proofs.Insertion.Interruption
/-!
What an order to make an instance says of an object. A slot that refers to no objects is given what
stands for the content of its field (`SlotSchema.given`), and one that refers to objects has for
each of them the symbol of absence or the name of an instance (`StandsFor`). An order is one for an
object if it is of the class of the object's schema and has such values, slot by slot
(`OrderedFor`).
-/

set_option autoImplicit false
set_option relaxedAutoImplicit false

namespace RuleMarshal

open Act

section

variable {slot : SlotSchema} {insertNested : Value → Inserting String} {world : World}
variable {i j : Insertion} {s t : State} {v : Value} {e : EngineValue} {expected : Hint}

/-- What a slot that refers to no objects is given for a value. -/
def SlotSchema.given (slot : SlotSchema) (v : Value) : Except Error EngineValue :=
  match slot.multi, v with
  | true, .none => .ok (.multifield [])
  | _, v => slot.hint.encode v

/-- An insertion gives a slot that refers to no objects what stands for the content of the field,
and does no more. -/
theorem runIn_slotValue (hreference : slot.reference = none) :
    Carrying.runIn (slotValue insertNested slot v) world i s =
      ((slot.given (s.heap.content v)).map fun e ↦ (e, i), s) := by
  have hget : Carrying.runIn (getThe State : Inserting State) world i s = (.ok (s, i), s) := rfl
  unfold slotValue SlotSchema.given
  rw [Carrying.runIn_bind_of_ok hget, hreference]
  dsimp only
  generalize s.heap.content v = content
  cases slot.multi <;> cases content <;> first | exact Carrying.runIn_ofExcept _ world i s | rfl

theorem given_of_slotValue (hreference : slot.reference = none)
    (hrun : Carrying.runIn (slotValue insertNested slot v) world i s = (.ok (e, j), t)) :
    slot.given (s.heap.content v) = .ok e := by
  rw [runIn_slotValue hreference, Prod.mk.injEq] at hrun
  cases hgiven : slot.given (s.heap.content v) with
  | error problem =>
    rw [hgiven] at hrun
    cases hrun.1
  | ok found =>
    rw [hgiven] at hrun
    cases hrun.1
    rfl

/-- What stands in a slot for an object: the symbol of absence if it is absent, the name of an
instance else. -/
inductive StandsFor (heap : Heap) (v : Value) : EngineValue → Prop
  | absent (hv : heap.opened v = .none) : StandsFor heap v .nil
  | present (hv : heap.opened v ≠ .none) (name : String) : StandsFor heap v (.instanceName name)

/-- A reference does not look at whether its slot may be empty. -/
theorem standsFor_of_referenceTo {v : Value} {e : EngineValue}
    (hrun : Carrying.runIn (referenceTo insertNested slot expected v) world i s = (.ok (e, j), t)) :
    StandsFor s.heap v e := by
  obtain ⟨_, _, _, hget, hopened⟩ := Carrying.ok_of_bind hrun
  obtain ⟨rfl, rfl, rfl⟩ := Carrying.ok_of_getThe hget
  split at hopened
  · rename_i habsent
    obtain ⟨rfl, -, -⟩ := Carrying.ok_of_pure hopened
    exact .absent habsent
  · rename_i hpresent
    obtain ⟨_, _, _, hread, hchecked⟩ := Carrying.ok_of_bind hopened
    obtain ⟨-, hgiven⟩ := Carrying.ok_of_refuse hchecked
    obtain ⟨found, _, _, -, hvalue⟩ := Carrying.ok_of_bind hgiven
    split at hvalue
    · obtain ⟨name, _, _, -, hreturn⟩ := Carrying.ok_of_bind hvalue
      obtain ⟨rfl, -, -⟩ := Carrying.ok_of_pure hreturn
      exact .present hpresent name
    · obtain ⟨name, _, _, -, hreturn⟩ := Carrying.ok_of_bind hvalue
      obtain ⟨rfl, -, -⟩ := Carrying.ok_of_pure hreturn
      exact .present hpresent name

end

/-! ### An order for an object -/

/-- What a slot has for the value of its field, where what stands for an object is found on a heap
that was kept. -/
inductive SlotSchema.Puts (keep : Heap → Prop) (slot : SlotSchema) (heap : Heap) (v : Value) :
    EngineValue → Prop
  | plain {e : EngineValue} (hreference : slot.reference = none)
      (hgiven : slot.given (heap.content v) = .ok e) : Puts keep slot heap v e
  | reference {values : List EngineValue} {e : EngineValue}
      (hreference : slot.reference.isSome = true)
      (hcarries : slot.Carries values e)
      (hstand : List.Forall₂ (fun w u ↦ ∃ now, keep now ∧ StandsFor now w u) (slot.targets heap v)
        values) : Puts keep slot heap v e

/-- A slot of an order, and what it has for the value of the field of an object. -/
def PutsFor (keep : Heap → Prop) (owner : Value) (slot : SlotSchema) (given : String × Term) :
    Prop :=
  given.1 = slot.name ∧ ∃ heap field, keep heap ∧ heap.attribute? owner slot.attr = some field ∧
    slot.Puts keep heap field given.2.value

/-- An order for an object: it is of the class of the object's schema, and has for every slot of the
schema, in order, what stands for the field of the object. -/
structure OrderedFor (g : ObjectGraph) (keep : Heap → Prop) (v : Value) (schema : ClassSchema)
    (className : String) (slots : List (String × Term)) : Prop where
  hasSchema : HasSchema g keep v schema
  className : className = schema.name
  slots : List.Forall₂ (PutsFor keep v) schema.slots slots

end RuleMarshal
