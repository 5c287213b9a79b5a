import RuleMarshal.Proofs.Insertion.Fit
import RuleMarshal.Proofs.Insertion.Inheritance
import RuleMarshal.Proofs.Synthesis.Constraint
/-!
Absent objects in rows. The definition of a slot for many objects lists the symbol of absence
exactly if the items of its field may be absent (`exists_item_of_row`). What an insertion puts there
does not ask: an item becomes that symbol exactly if it is absent, whatever its type says
(`standsFor_of_slotValue`). So what a row holds is what its definition lists if the items may be
absent or none of them is (`lists_iff_of_slotValue`), and an absent item of another type is let
through (`absent_item_let_through`). Rows of scalars are encoded under the type of their items and
have no such gap (`takes_of_slotValue`).
-/

set_option autoImplicit false
set_option relaxedAutoImplicit false

namespace RuleMarshal

open Act

variable {table : TypeTable} {owner className : String} {f : Field} {slot : SlotSchema}
variable {expected : Hint}
variable {insertNested : Value → Inserting String} {world : World} {i j : Insertion} {s t : State}

/-! ### What the definition lists -/

/-- The facet by which a slot takes the symbol of absence and no other. -/
def absenceFacet : String := "(allowed-symbols nil)"

namespace SlotSchema

/-- A slot that refers to objects lists the symbol of absence if its values may be that symbol. -/
theorem absenceFacet_mem_facets_iff (hkind : slot.kind = .classReference) (constrainClass : Bool) :
    absenceFacet ∈ slot.facets constrainClass ↔ slot.nullable = true := by
  have hclass : ∀ name, absenceFacet ≠ "(allowed-classes " ++ name ++ ")" := fun name ↦
    (classConstraint_ne (by decide)).symm
  have hothers : absenceFacet ∉ (if slot.nullable && !slot.multi then ["(default nil)"] else []) ++
      ["(create-accessor read-write)"] := by
    split <;> simp [absenceFacet]
  unfold facets typeFacets
  rw [hkind, List.append_assoc, List.mem_append, or_iff_left hothers, List.mem_append]
  by_cases hnullable : slot.nullable = true
  · rw [if_pos hnullable]
    exact iff_of_true (.inl (by simp [absenceFacet])) hnullable
  · rw [if_neg hnullable]
    refine iff_of_false ?_ hnullable
    rintro (htype | hconstraint)
    · exact absurd htype (by decide)
    · split at hconstraint
      · split at hconstraint
        · exact hclass _ (List.mem_singleton.mp hconstraint)
        · cases hconstraint
      · cases hconstraint

/-- What the definition of a slot that refers to objects lists: names of instances, and the symbol
of absence where a facet says so. -/
inductive Lists (slot : SlotSchema) (constrainClass : Bool) : EngineValue → Prop
  | instanceName (name : String) : Lists slot constrainClass (.instanceName name)
  | absence (hfacet : absenceFacet ∈ slot.facets constrainClass) : Lists slot constrainClass .nil

theorem lists_nil_iff {constrainClass : Bool} :
    slot.Lists constrainClass .nil ↔ absenceFacet ∈ slot.facets constrainClass := by
  constructor
  · intro hlists
    cases hlists
    assumption
  · exact .absence

end SlotSchema

/-- A slot for many objects is that of a field of rows, and it lists the symbol of absence exactly
if the type of the items lets them be absent. -/
theorem exists_item_of_row (hslot : reflectField table owner f = .ok slot)
    (hkind : slot.kind = .classReference) (hmulti : slot.multi = true) :
    ∃ asTuple item, f.hint.unwrapOptional.1.items = .each asTuple item ∧
      ∀ constrainClass, absenceFacet ∈ slot.facets constrainClass ↔
        item.unwrapOptional.2 = true := by
  obtain ⟨-, m, optional, multi, hreading, hholding⟩ := exists_slotHolding_of_reflectField hslot
  obtain ⟨kind, referred, reference, -, -, rfl⟩ := eq_of_slotHolding hholding
  obtain rfl : multi = true := hmulti
  cases hreading with
  | @row h item _ wide _ asTuple hrow hitems hunwrap =>
    refine ⟨asTuple, item, by rw [hrow, hitems], fun constrainClass ↦ ?_⟩
    rw [SlotSchema.absenceFacet_mem_facets_iff hkind, hunwrap]
    simp [SlotSchema.nullable]

/-! ### What an insertion puts there -/

/-- What stands for items of a row, each on the heap that its turn finds. -/
def StandForEach (items : List Value) (es : List EngineValue) : Prop :=
  List.Forall₂ (fun v e ↦ ∃ u : State, StandsFor u.heap v e) items es

theorem standForEach_of_mapM {items : List Value} {es : List EngineValue}
    (hrun : Carrying.runIn (items.mapM (referenceTo insertNested slot expected)) world i s =
      (.ok (es, j), t)) :
    StandForEach items es := by
  induction items generalizing i s es with
  | nil =>
    obtain ⟨rfl, -, -⟩ := Carrying.ok_of_pure hrun
    exact .nil
  | cons v rest ih =>
    rw [List.mapM_cons] at hrun
    obtain ⟨e, _, _, hfirst, hmore⟩ := Carrying.ok_of_bind hrun
    obtain ⟨others, _, _, hrest, hreturn⟩ := Carrying.ok_of_bind hmore
    obtain ⟨rfl, rfl, rfl⟩ := Carrying.ok_of_pure hreturn
    exact .cons ⟨_, standsFor_of_referenceTo hfirst⟩ (ih hrest)

/-- A slot for many objects gets a row: an empty one if there is no row, and else nil for the items
that are absent and names for the others. -/
theorem standsFor_of_slotValue {v : Value} {e : EngineValue}
    (hreference : slot.reference = some (expected, className)) (hmulti : slot.multi = true)
    (hrun : Carrying.runIn (slotValue insertNested slot v) world i s = (.ok (e, j), t)) :
    (s.heap.opened v = .none ∧ e = .multifield []) ∨
      ∃ asTuple items es, s.heap.opened v = .row asTuple items ∧ e = .multifield es ∧
        StandForEach items es := by
  obtain ⟨_, _, _, hget, hvalue⟩ := Carrying.ok_of_bind hrun
  obtain ⟨rfl, rfl, rfl⟩ := Carrying.ok_of_getThe hget
  rw [hreference, hmulti] at hvalue
  dsimp only at hvalue
  split at hvalue
  · rename_i hnone
    obtain ⟨rfl, -, -⟩ := Carrying.ok_of_pure hvalue
    exact .inl ⟨hnone, rfl⟩
  · rename_i items _ hitems
    obtain ⟨es, _, _, hmap, hreturn⟩ := Carrying.ok_of_bind hvalue
    obtain ⟨rfl, -, -⟩ := Carrying.ok_of_pure hreturn
    exact .inr ⟨false, items, es, hitems, rfl, standForEach_of_mapM hmap⟩
  · rename_i items _ hitems
    obtain ⟨es, _, _, hmap, hreturn⟩ := Carrying.ok_of_bind hvalue
    obtain ⟨rfl, -, -⟩ := Carrying.ok_of_pure hreturn
    exact .inr ⟨true, items, es, hitems, rfl, standForEach_of_mapM hmap⟩
  · exact absurd hvalue Carrying.ok_of_throw
  · rename_i hsingle
    cases hsingle

/-- What stands in a row is what the definition of its slot lists exactly if that lists the symbol
of absence or nothing in the row is absent. -/
theorem lists_row_iff {items : List Value} {es : List EngineValue} (hstand : StandForEach items es)
    (constrainClass : Bool) : (∀ e ∈ es, slot.Lists constrainClass e) ↔
      absenceFacet ∈ slot.facets constrainClass ∨ .nil ∉ es := by
  constructor
  · intro hlists
    by_cases hnil : .nil ∈ es
    · exact .inl (SlotSchema.lists_nil_iff.mp (hlists _ hnil))
    · exact .inr hnil
  · intro hagrees
    induction hstand with
    | nil => exact List.forall_mem_nil _
    | @cons v e items es hfirst _ ih =>
      obtain ⟨u, hfirst⟩ := hfirst
      refine List.forall_mem_cons.mpr
        ⟨?_, ih (hagrees.imp_right fun hnil hmem ↦ hnil (List.mem_cons_of_mem _ hmem))⟩
      cases hfirst with
      | absent hv =>
        rcases hagrees with hfacet | hnil
        · exact .absence hfacet
        · exact absurd List.mem_cons_self hnil
      | present hv name => exact .instanceName name

/-- What an insertion puts into a slot for many objects is what the definition lists exactly if the
type of the items lets them be absent or none of them is. -/
theorem lists_iff_of_slotValue {v : Value} {es : List EngineValue}
    (hslot : reflectField table owner f = .ok slot) (hkind : slot.kind = .classReference)
    (hreference : slot.reference = some (expected, className)) (hmulti : slot.multi = true)
    (hrun : Carrying.runIn (slotValue insertNested slot v) world i s =
      (.ok (.multifield es, j), t)) :
    ∃ asTuple item, f.hint.unwrapOptional.1.items = .each asTuple item ∧ ∀ constrainClass,
      (∀ e ∈ es, slot.Lists constrainClass e) ↔ (item.unwrapOptional.2 = true ∨ .nil ∉ es) := by
  obtain ⟨asTuple, item, hitems, hlisted⟩ := exists_item_of_row hslot hkind hmulti
  have hstand : ∃ items, StandForEach items es := by
    rcases standsFor_of_slotValue hreference hmulti hrun
      with ⟨-, hempty⟩ | ⟨-, items, others, -, hrow, hstand⟩
    · cases hempty
      exact ⟨[], .nil⟩
    · cases hrow
      exact ⟨items, hstand⟩
  obtain ⟨items, hstand⟩ := hstand
  refine ⟨asTuple, item, hitems, fun constrainClass ↦ ?_⟩
  rw [lists_row_iff hstand, hlisted]

/-! ### An absent item of a type that must be present -/

/-- A struct type, and one whose objects have a row of its objects. -/
def kidsTypes : TypeTable where
  types := [{ name := "Leaf", kind := .described, fields := [] },
    { name := "Root", kind := .described,
      fields := [{ attr := "kids", hint := .listOf (.struct "Leaf") }] }]

/-- An object whose row holds nothing but an absent item. -/
def kidsState : State where
  heap.cells := #[.object [("kids", .list [.none])]]

/-- An engine that has the classes that were defined and makes every instance. -/
def kidsEngine (history : Array Event) : Command → Reply
  | .evaluate .freshName => { outcome := .ok (.symbol "gen1") }
  | .evaluate (.makeInstance (some name) _ _) => { outcome := .ok (.instanceName name) }
  | .evaluate (.classQuery .isDefined name) =>
    { outcome := .ok (.bool (decide (IsRecorded history name))) }
  | .evaluate (.classSlots "Root") => { outcome := .ok (.list [.symbol "kids"]) }
  | .evaluate (.classFacet ..) => { outcome := .ok (.list [.symbol "MLT"]) }
  | _ => {}

def kidsWorld : World := .ofDepth kidsTypes {} kidsEngine 0

/-- The field of the row. -/
def kidsField : Field := { attr := "kids", hint := .listOf (.struct "Leaf") }

/-- Its slot. -/
def kidsSlot : SlotSchema :=
  { name := "kids", attr := "kids", kind := .classReference, multi := true, optional := false,
    hint := kidsField.hint, reference := some (.struct "Leaf", "Leaf") }

/-- The schema of objects with a row of others. -/
def kidsSchema : ClassSchema := ⟨"Root", .struct "Root", [kidsSlot]⟩

/-- The insertion of the object. -/
def kidsRun :
    Except Error InstanceHandle × State :=
  (insert (.object "Root" 0) .none).runIn kidsWorld kidsState

/-- A row of objects with an absent item. The type of the items does not let them be absent, and the
definition that the insertion sends lists no symbols. The insertion succeeds all the same, and its
order carries the symbol of absence in the row. An absent item of a row of texts is refused. -/
theorem absent_item_let_through :
    kidsRun.1.toOption.isSome = true ∧
    reflectField kidsTypes "Root" kidsField = .ok kidsSlot ∧
      (Hint.struct "Leaf").unwrapOptional.2 = false ∧
    some (kidsWorld.definition kidsSchema []) ∈ kidsRun.2.constructs.map Native.written? ∧
    absenceFacet ∉ kidsSlot.facets (kidsSlot.constrained []) ∧
    kidsSlot.render (kidsSlot.constrained []) =
      "(multislot kids (type INSTANCE-NAME) (allowed-classes Leaf) (create-accessor read-write))" ∧
    kidsRun.2.creations.map
      (fun order ↦ (order.name, order.className, order.slots.map fun p ↦ (p.1, p.2.text))) =
      [(some "gen1", "Root", [("kids", "(create$ nil)")])] ∧
    ((Hint.listOf .text).encode (.list [.none])).toOption.isSome = false := by
  have hname : kidsState.heap.content .none = .none := by simp [Heap.content, Value.settledWithin]
  unfold kidsRun
  rw [runIn_insert _ _ rfl rfl, hname]
  refine ⟨by decide +kernel, rfl, rfl, by decide +kernel, by decide, by decide +kernel,
    by decide +kernel, rfl⟩

end RuleMarshal
