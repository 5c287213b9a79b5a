import RuleMarshal.Proofs.Convert.Plain
import Mathlib.Data.List.Forall2
import Mathlib.Data.List.Nodup
/-!
Slots of fields. A schema has one slot for each field of its type, in order
(`exists_fields_of_buildSchema`), under names of their own. A field of one value has a slot of one
value, and a row one of many; the slot refers to objects if the value, or each value of the row, is
of a struct type (`SlotOf`).
-/

set_option autoImplicit false
set_option relaxedAutoImplicit false

namespace RuleMarshal

variable {table : TypeTable} {tags : Tags} {owner : String} {f : Field} {slot : SlotSchema}

/-- Whether a slot holds single values of a hint or many, as a field's hint says. -/
inductive SlotShape (declared : Hint) : Bool → Hint → Prop
  | single {m : Hint} {optional : Bool} (hunwrap : declared.unwrapOptional = (m, optional))
      (hitems : m.items = .none) : SlotShape declared false m
  | row {h item m : Hint} {wide optional asTuple : Bool}
      (hrow : declared.unwrapOptional = (h, wide))
      (hitems : h.items = .each asTuple item) (hunwrap : item.unwrapOptional = (m, optional)) :
      SlotShape declared true m

/-- How a slot reads a field's hint: whether it holds many values, of which hint these are, and
whether one of them may be absent. -/
inductive SlotReading (declared : Hint) : Bool → Hint → Bool → Prop
  | single {m : Hint} {optional : Bool} (hunwrap : declared.unwrapOptional = (m, optional))
      (hitems : m.items = .none) : SlotReading declared false m optional
  | row {h item m : Hint} {wide optional asTuple : Bool}
      (hrow : declared.unwrapOptional = (h, wide))
      (hitems : h.items = .each asTuple item) (hunwrap : item.unwrapOptional = (m, optional)) :
      SlotReading declared true m optional

section

variable {declared item m found : Hint} {optional multi asTuple : Bool}

theorem SlotReading.shape (hreading : SlotReading declared multi m optional) :
    SlotShape declared multi m := by
  cases hreading with
  | single hunwrap hitems => exact .single hunwrap hitems
  | row hrow hitems hunwrap => exact .row hrow hitems hunwrap

theorem Hint.unwrapOptional_of_items (hitems : declared.items = .each asTuple item) :
    declared.unwrapOptional = (declared, false) := by
  cases declared <;> first | rfl | cases hitems

theorem SlotShape.eq_of_single (hshape : SlotShape declared multi m)
    (hunwrap : declared.unwrapOptional = (found, optional)) (hitems : found.items = .none) :
    multi = false ∧ m = found := by
  cases hshape with
  | single hdeclared _ =>
    rw [hunwrap] at hdeclared
    cases hdeclared
    exact ⟨rfl, rfl⟩
  | row hrow hsome _ =>
    rw [hunwrap] at hrow
    cases hrow
    rw [hitems] at hsome
    cases hsome

theorem SlotShape.eq_of_row (hshape : SlotShape declared multi m)
    (hitems : declared.items = .each asTuple item)
    (hunwrap : item.unwrapOptional = (found, optional)) :
    multi = true ∧ m = found := by
  have hdeclared := Hint.unwrapOptional_of_items hitems
  cases hshape with
  | single hsingle hnone =>
    rw [hdeclared] at hsingle
    cases hsingle
    rw [hitems] at hnone
    cases hnone
  | row hrow hsome hitem =>
    rw [hdeclared] at hrow
    cases hrow
    rw [hitems] at hsome
    cases hsome
    rw [hunwrap] at hitem
    cases hitem
    exact ⟨rfl, rfl⟩

end

/-- Whether a slot is that of a field. -/
structure SlotOf (table : TypeTable) (f : Field) (slot : SlotSchema) : Prop where
  name : slot.name = f.engineName
  accepted : Text.SafeSymbol.accepts slot.name = true
  attr : slot.attr = f.attr
  hint : slot.hint = f.hint
  shape : ∃ m kind referred, SlotShape f.hint slot.multi m ∧
    slotKind? table m = some (kind, referred) ∧ slot.reference.isSome = referred.isSome

section

variable {item m : Hint} {struct : String} {optional asTuple : Bool} {v : Value}

theorem slotKind?_of_isScalar (table : TypeTable) (hm : m.isScalar = true) :
    ∃ kind, slotKind? table m = some (kind, none) := by
  obtain ⟨a, rfl⟩ := Hint.atom_of_isScalar hm
  cases a <;> first | exact ⟨_, rfl⟩ | cases hm

theorem slotKind?_struct {kind : SlotKind} {referred : Option Hint}
    (hkind : slotKind? table (.struct struct) = some (kind, referred)) :
    table.isStruct (.struct struct) = true ∧ referred = some (.struct struct) := by
  unfold slotKind? at hkind
  dsimp only at hkind
  split at hkind
  · rename_i hstruct
    cases hkind
    exact ⟨hstruct, rfl⟩
  · cases hkind

theorem SlotOf.reference_eq_none (hslot : SlotOf table f slot)
    (hshape : ∀ m, SlotShape f.hint slot.multi m → m.isScalar = true) : slot.reference = none := by
  obtain ⟨m, kind, referred, hm, hkind, hreference⟩ := hslot.shape
  obtain ⟨known, hknown⟩ := slotKind?_of_isScalar table (hshape m hm)
  rw [hknown] at hkind
  cases hkind
  exact Option.not_isSome_iff_eq_none.mp (by simp [hreference])

/-- The slot of a field of plain values refers to nothing, and holds one value unless that is a
row. -/
theorem SlotOf.plain (hslot : SlotOf table f slot) (hv : PlainOf f.hint v) :
    slot.reference = none ∧ (slot.multi = true → v ≠ .none) := by
  have hsingle : ∀ {found : Hint} {optional : Bool}, f.hint.unwrapOptional = (found, optional) →
      found.isScalar = true → slot.reference = none ∧ slot.multi = false := by
    intro found optional hunwrap hfound
    have hsingle : ∀ m, SlotShape f.hint slot.multi m → slot.multi = false ∧ m = found :=
      fun m hm ↦ hm.eq_of_single hunwrap (Hint.items_of_isScalar hfound)
    obtain ⟨m, -, -, hm, -⟩ := hslot.shape
    exact ⟨hslot.reference_eq_none fun m hm ↦ (hsingle m hm).2 ▸ hfound, (hsingle m hm).1⟩
  cases hv with
  | item hv =>
    obtain ⟨hunwrap, hscalar, -⟩ := hv
    obtain ⟨hreference, hmulti⟩ := hsingle hunwrap hscalar.isScalar_eq
    exact ⟨hreference, by simp [hmulti]⟩
  | absent hunwrap hfound =>
    obtain ⟨hreference, hmulti⟩ := hsingle hunwrap hfound
    exact ⟨hreference, by simp [hmulti]⟩
  | @row asTuple _ _ _ _ hitems hunwrap hfound _ =>
    refine ⟨hslot.reference_eq_none fun m hm ↦ ?_, fun _ ↦ by cases asTuple <;> simp [Value.row]⟩
    exact (hm.eq_of_row hitems hunwrap).2 ▸ hfound

/-- The slot of a field of a struct type refers to objects, one at a time. -/
theorem SlotOf.single (hslot : SlotOf table f slot)
    (hunwrap : f.hint.unwrapOptional = (.struct struct, optional)) :
    slot.reference.isSome ∧ slot.multi = false ∧ table.isStruct (.struct struct) = true := by
  obtain ⟨m, kind, referred, hm, hkind, hreference⟩ := hslot.shape
  obtain ⟨hmulti, rfl⟩ := hm.eq_of_single hunwrap rfl
  obtain ⟨hstruct, rfl⟩ := slotKind?_struct hkind
  exact ⟨hreference, hmulti, hstruct⟩

/-- The slot of a field of rows of objects refers to objects, many at a time. -/
theorem SlotOf.row (hslot : SlotOf table f slot)
    (hitems : f.hint.items = .each asTuple (.struct struct)) :
    slot.reference.isSome ∧ slot.multi = true ∧ table.isStruct (.struct struct) = true := by
  obtain ⟨m, kind, referred, hm, hkind, hreference⟩ := hslot.shape
  obtain ⟨hmulti, rfl⟩ := hm.eq_of_row hitems rfl
  obtain ⟨hstruct, rfl⟩ := slotKind?_struct hkind
  exact ⟨hreference, hmulti, hstruct⟩

end

/-- The slot of a field whose values are of a hint. -/
def Field.slotHolding (table : TypeTable) (owner : String) (f : Field) (m : Hint)
    (optional multi : Bool) :
    Except Error SlotSchema :=
  match slotKind? table m with
  | none => throw (.unsupported (.noSlotKind owner f.attr m))
  | some (kind, referred) => do
    let reference ← referred.mapM fun h ↦ do return (h, ← table.className h)
    return { name := f.engineName, attr := f.attr, kind, multi, optional,
             hint := f.hint, reference }

/-- What a slot for values of a hint says. -/
theorem eq_of_slotHolding {m : Hint} {optional multi : Bool}
    (hslot : f.slotHolding table owner m optional multi = .ok slot) :
    ∃ kind referred reference, slotKind? table m = some (kind, referred) ∧
      reference.isSome = referred.isSome ∧
      slot = ⟨f.engineName, f.attr, kind, multi, optional, f.hint, reference⟩ := by
  unfold Field.slotHolding at hslot
  split at hslot
  · cases hslot
  · rename_i kind referred hkind
    cases referred with
    | none =>
      cases hslot
      exact ⟨kind, none, none, hkind, rfl, rfl⟩
    | some h =>
      obtain ⟨reference, hreference, hreturn⟩ := Except.ok_of_bind hslot
      cases hreturn
      obtain ⟨named, -, hnamed⟩ := Except.ok_of_bind hreference
      cases hnamed
      exact ⟨kind, some h, some named, hkind, rfl, rfl⟩

theorem slotOf_of_slotHolding {m : Hint} {optional multi : Bool} (hshape : SlotShape f.hint multi m)
    (haccepted : Text.SafeSymbol.accepts f.engineName = true)
    (hslot : f.slotHolding table owner m optional multi = .ok slot) : SlotOf table f slot := by
  obtain ⟨kind, referred, reference, hkind, hreference, rfl⟩ := eq_of_slotHolding hslot
  exact ⟨rfl, haccepted, rfl, rfl, m, kind, referred, hshape, hkind, hreference⟩

/-- A field that is reflected has a name that can be used, and a slot for the values that its hint
has. -/
theorem exists_slotHolding_of_reflectField (hslot : reflectField table owner f = .ok slot) :
    Text.SafeSymbol.accepts f.engineName = true ∧ ∃ m optional multi,
      SlotReading f.hint multi m optional ∧
      f.slotHolding table owner m optional multi = .ok slot := by
  unfold reflectField at hslot
  dsimp only at hslot
  split at hslot
  · cases hslot
  · rename_i haccepted
    rw [Bool.not_eq_true, Bool.or_eq_false_iff, Bool.or_eq_false_iff,
      Bool.not_eq_false'] at haccepted
    refine ⟨haccepted.1.1, ?_⟩
    split at hslot
    · cases hslot
    · rename_i hitems
      exact ⟨_, _, _, .single rfl hitems, hslot⟩
    · rename_i hitems
      split at hslot
      · exact ⟨_, _, _, .row rfl hitems rfl, hslot⟩
      · cases hslot
      · cases hslot

theorem slotOf_of_reflectField (hslot : reflectField table owner f = .ok slot) :
    SlotOf table f slot := by
  obtain ⟨haccepted, m, optional, multi, hreading, hholding⟩ :=
    exists_slotHolding_of_reflectField hslot
  exact slotOf_of_slotHolding hreading.shape haccepted hholding

theorem slotsOf_of_reflectFields {fields : List Field} {slots all : List SlotSchema}
    (hall : reflectFields table owner fields slots = .ok all)
    (hnodup : (slots.map (·.name)).Nodup) :
    (all.map (·.name)).Nodup ∧ ∃ new,
      all = slots ++ new ∧ List.Forall₂ (SlotOf table) fields new := by
  induction fields generalizing slots with
  | nil =>
    cases hall
    exact ⟨hnodup, [], (List.append_nil _).symm, .nil⟩
  | cons f rest ih =>
    obtain ⟨slot, hslot, hrest⟩ := Except.ok_of_bind hall
    dsimp only at hrest
    split at hrest
    · cases hrest
    · rename_i hnew
      have hdistinct : ((slots ++ [slot]).map (·.name)).Nodup := by
        rw [List.map_append, List.nodup_append]
        refine ⟨hnodup, List.nodup_singleton _, fun a ha b hb heq ↦ hnew ?_⟩
        obtain ⟨other, hother, rfl⟩ := List.mem_map.mp ha
        rw [List.any_eq_true]
        exact ⟨other, hother, by simpa using heq.trans (List.mem_singleton.mp hb)⟩
      obtain ⟨hnames, new, rfl, hslots⟩ := ih hrest hdistinct
      exact ⟨hnames, slot :: new, by simp, .cons (slotOf_of_reflectField hslot) hslots⟩

/-- A schema has a slot for each field of its type, under names of their own. -/
theorem exists_fields_of_buildSchema {h : Hint} {schema : ClassSchema}
    (hbuilt : buildSchema table tags h = .ok schema) :
    ∃ fields, table.fields tags h = .ok fields ∧ (schema.slots.map (·.name)).Nodup ∧
      List.Forall₂ (SlotOf table) fields schema.slots := by
  unfold buildSchema at hbuilt
  obtain ⟨name, -, hnamed⟩ := Except.ok_of_bind hbuilt
  dsimp only at hnamed
  split at hnamed
  · cases hnamed
  · obtain ⟨fields, hfields, hfound⟩ := Except.ok_of_bind hnamed
    obtain ⟨slots, hslots, hreturn⟩ := Except.ok_of_bind hfound
    cases hreturn
    obtain ⟨hnodup, new, rfl, hnew⟩ := slotsOf_of_reflectFields hslots .nil
    exact ⟨fields, hfields, hnodup, hnew⟩

theorem map_engineName_eq {fields : List Field} {slots : List SlotSchema}
    (hslots : List.Forall₂ (SlotOf table) fields slots) :
    fields.map (·.engineName) = slots.map (·.name) := by
  induction hslots with
  | nil => rfl
  | cons hfirst _ ih => rw [List.map_cons, List.map_cons, ih, hfirst.name]

end RuleMarshal
