import RuleMarshal.Proofs.Schema.Slot
import Mathlib.Data.Finset.Dedup
/-!
What a schema refers to. A schema can be built for struct types alone
(`mem_structs_of_buildSchema`), of which there are finitely many, and it is called as its type is
(`className_of_buildSchema`). A slot that refers to objects does so by a struct type and the name of
its class (`SlotSchema.RefersTo`), and the types of these slots are what the schema refers to
(`mem_references_iff`).
-/

set_option autoImplicit false
set_option relaxedAutoImplicit false

namespace RuleMarshal

variable {table : TypeTable} {tags : Tags} {h g : Hint} {schema : ClassSchema} {slot : SlotSchema}

/-! ### Struct types -/

namespace TypeTable

/-- The struct types that there are: those that are declared, and those of engine values. -/
def structs (table : TypeTable) : List HintAtom :=
  table.types.map (.struct ·.name) ++ ValueKind.all.map (.engineValue ∘ some)

theorem length_structs (table : TypeTable) : table.structs.length = table.types.length + 9 := by
  simp [structs, ValueKind.all]

theorem struct_mem_structs {name : String} {t : StructType} (hfound : table.find? name = some t) :
    .struct name ∈ table.structs := by
  have hname : t.name = name := by simpa using List.find?_some hfound
  have hmem : t ∈ table.types := List.mem_of_find?_eq_some hfound
  exact List.mem_append_left _ (List.mem_map.mpr ⟨t, hmem, by rw [hname]⟩)

theorem engineValue_mem_structs (kind : ValueKind) : .engineValue (some kind) ∈ table.structs := by
  have hmem : kind ∈ ValueKind.all := by cases kind <;> decide
  exact List.mem_append_right _ (List.mem_map.mpr ⟨kind, hmem, rfl⟩)

theorem exists_mem_structs_of_isStruct (hstruct : table.isStruct h = true) :
    ∃ a ∈ table.structs, h = .atom a := by
  unfold isStruct at hstruct
  split at hstruct
  · rename_i name
    cases hfound : table.find? name with
    | none => simp [hfound] at hstruct
    | some t => exact ⟨_, struct_mem_structs hfound, rfl⟩
  · obtain ⟨kind, rfl⟩ := Option.isSome_iff_exists.mp hstruct
    exact ⟨_, engineValue_mem_structs kind, rfl⟩
  · cases hstruct

/-- What has fields is a struct type. -/
theorem exists_mem_structs_of_fields {fields : List Field}
    (hfields : table.fields tags h = .ok fields) :
    ∃ a ∈ table.structs, h = .atom a := by
  unfold TypeTable.fields at hfields
  dsimp only at hfields
  split at hfields
  · split at hfields
    · rename_i hfound
      exact ⟨_, struct_mem_structs hfound, rfl⟩
    · cases hfields
  · exact ⟨_, engineValue_mem_structs _, rfl⟩
  · cases hfields

end TypeTable

/-! ### The schema of a struct type -/

theorem exists_of_buildSchema (hbuilt : buildSchema table tags h = .ok schema) :
    table.className h = .ok schema.name ∧ ∃ fields, table.fields tags h = .ok fields ∧
      reflectFields table h.shortName fields [] = .ok schema.slots := by
  unfold buildSchema at hbuilt
  obtain ⟨name, hname, hnamed⟩ := Except.ok_of_bind hbuilt
  dsimp only at hnamed
  split at hnamed
  · cases hnamed
  · obtain ⟨fields, hfields, hfound⟩ := Except.ok_of_bind hnamed
    obtain ⟨slots, hslots, hreturn⟩ := Except.ok_of_bind hfound
    cases hreturn
    exact ⟨hname, fields, hfields, hslots⟩

/-- A schema is called as its type is. -/
theorem className_of_buildSchema (hbuilt : buildSchema table tags h = .ok schema) :
    table.className h = .ok schema.name :=
  (exists_of_buildSchema hbuilt).1

/-- The name of a schema is one that may be written without quoting. -/
theorem accepts_of_buildSchema (hbuilt : buildSchema table tags h = .ok schema) :
    Text.SafeSymbol.accepts schema.name = true := by
  obtain ⟨hname, -⟩ := exists_of_buildSchema hbuilt
  unfold buildSchema at hbuilt
  obtain ⟨name, hfound, hnamed⟩ := Except.ok_of_bind hbuilt
  obtain rfl := Except.ok.inj (hfound.symm.trans hname)
  cases haccepts : Text.SafeSymbol.accepts schema.name with
  | true => rfl
  | false => simp [haccepts] at hnamed; cases hnamed

/-- Schemas are those of struct types. -/
theorem mem_structs_of_buildSchema (hbuilt : buildSchema table tags h = .ok schema) :
    ∃ a ∈ table.structs, h = .atom a := by
  obtain ⟨-, fields, hfields, -⟩ := exists_of_buildSchema hbuilt
  exact TypeTable.exists_mem_structs_of_fields hfields

/-! ### Slots that refer to objects -/

/-- Whether a slot refers to objects of a struct type, by the name of its class. -/
structure SlotSchema.RefersTo (table : TypeTable) (slot : SlotSchema) (g : Hint) (name : String) :
    Prop where
  reference : slot.reference = some (g, name)
  kind : slot.kind = .classReference
  isStruct : table.isStruct g = true
  className : table.className g = .ok name

theorem slotKind?_referred {m : Hint} {kind : SlotKind}
    (hkind : slotKind? table m = some (kind, some g)) :
    kind = .classReference ∧ table.isStruct g = true := by
  unfold slotKind? at hkind
  split at hkind
  all_goals first
    | cases hkind
    | (split at hkind
       · rename_i hstruct
         cases hkind
         exact ⟨rfl, hstruct⟩
       · split at hkind <;> cases hkind)

theorem Field.refersTo_of_slotHolding {f : Field} {owner name : String} {m : Hint}
    {optional multi : Bool} (hslot : f.slotHolding table owner m optional multi = .ok slot)
    (hreference : slot.reference = some (g, name)) : slot.RefersTo table g name := by
  unfold slotHolding at hslot
  split at hslot
  · cases hslot
  · rename_i kind referred hkind
    cases referred with
    | none =>
      cases hslot
      cases hreference
    | some h =>
      obtain ⟨reference, hfound, hreturn⟩ := Except.ok_of_bind hslot
      obtain ⟨named, hnamed, hpair⟩ := Except.ok_of_bind hfound
      cases hpair
      obtain ⟨text, htext, hnamed⟩ := Except.ok_of_bind hnamed
      cases hnamed
      cases hreturn
      cases hreference
      obtain ⟨hclass, hstruct⟩ := slotKind?_referred hkind
      exact ⟨rfl, hclass, hstruct, htext⟩

/-- Slots are those of their fields. -/
theorem exists_slotHolding_of_reflectFields {owner : String} {fields : List Field}
    {slots all : List SlotSchema} (hall : reflectFields table owner fields slots = .ok all)
    (hslot : slot ∈ all) : slot ∈ slots ∨ ∃ (f : Field) (m : Hint) (optional multi : Bool),
      f.slotHolding table owner m optional multi = .ok slot := by
  induction fields generalizing slots with
  | nil =>
    cases hall
    exact .inl hslot
  | cons f rest ih =>
    obtain ⟨first, hfirst, hrest⟩ := Except.ok_of_bind hall
    dsimp only at hrest
    split at hrest
    · cases hrest
    · obtain hmem | hheld := ih hrest
      · obtain hbefore | hnew := List.mem_append.mp hmem
        · exact .inl hbefore
        · obtain rfl := List.mem_singleton.mp hnew
          obtain ⟨-, m, optional, multi, -, hheld⟩ := exists_slotHolding_of_reflectField hfirst
          exact .inr ⟨f, m, optional, multi, hheld⟩
      · exact .inr hheld

/-- A slot of a schema that refers to anything refers to objects of a struct type. -/
theorem refersTo_of_buildSchema {name : String} (hbuilt : buildSchema table tags h = .ok schema)
    (hslot : slot ∈ schema.slots) (hreference : slot.reference = some (g, name)) :
    slot.RefersTo table g name := by
  obtain ⟨-, fields, -, hslots⟩ := exists_of_buildSchema hbuilt
  obtain hnone | ⟨f, m, optional, multi, hheld⟩ := exists_slotHolding_of_reflectFields hslots hslot
  · cases hnone
  · exact f.refersTo_of_slotHolding hheld hreference

/-! ### What a schema refers to -/

namespace Hint

/-- What is kept of some hints is among them, and every class that is among them is kept. -/
theorem mem_foldl_distinct (hints kept : List Hint) :
    (∀ h ∈ hints.foldl (fun kept h ↦ if kept.any (same h) then kept else h :: kept) kept,
      h ∈ kept ∨ h ∈ hints) ∧
    ∀ a, .atom a ∈ kept ∨ .atom a ∈ hints →
      .atom a ∈ hints.foldl (fun kept h ↦ if kept.any (same h) then kept else h :: kept) kept := by
  induction hints generalizing kept with
  | nil => exact ⟨fun h hmem ↦ .inl hmem, fun a hmem ↦ hmem.elim id nofun⟩
  | cons first rest ih =>
    rw [List.foldl_cons]
    obtain ⟨honly, hall⟩ := ih (if kept.any (same first) then kept else first :: kept)
    refine ⟨fun h hmem ↦ ?_, fun a hmem ↦ hall a ?_⟩
    · obtain hkept | hrest := honly h hmem
      · split at hkept
        · exact .inl hkept
        · obtain rfl | hkept := List.mem_cons.mp hkept
          · exact .inr List.mem_cons_self
          · exact .inl hkept
      · exact .inr (List.mem_cons_of_mem _ hrest)
    · rw [List.mem_cons] at hmem
      split
      · rename_i hseen
        obtain hkept | rfl | hrest := hmem
        · exact .inl hkept
        · obtain ⟨other, hother, hsame⟩ := List.any_eq_true.mp hseen
          exact .inl (atom_same.mp hsame ▸ hother)
        · exact .inr hrest
      · obtain hkept | rfl | hrest := hmem
        · exact .inl (List.mem_cons_of_mem _ hkept)
        · exact .inl List.mem_cons_self
        · exact .inr hrest

theorem mem_of_mem_distinct {hints : List Hint} (hmem : h ∈ distinct hints) : h ∈ hints := by
  unfold distinct at hmem
  rw [List.mem_reverse] at hmem
  exact ((mem_foldl_distinct hints []).1 h hmem).resolve_left List.not_mem_nil

theorem atom_mem_distinct {hints : List Hint} {a : HintAtom} (hmem : .atom a ∈ hints) :
    .atom a ∈ distinct hints := by
  unfold distinct
  rw [List.mem_reverse]
  exact (mem_foldl_distinct hints []).2 a (.inr hmem)

end Hint

/-- A schema that was built refers to the struct types of its slots. -/
theorem mem_references_iff (hbuilt : buildSchema table tags h = .ok schema) :
    g ∈ schema.references ↔ ∃ slot ∈ schema.slots, ∃ name, slot.RefersTo table g name := by
  constructor
  · intro hmem
    obtain ⟨slot, hslot, hreference⟩ := List.mem_filterMap.mp (Hint.mem_of_mem_distinct hmem)
    obtain ⟨⟨g, name⟩, hfound, rfl⟩ := Option.map_eq_some_iff.mp hreference
    exact ⟨slot, hslot, name, refersTo_of_buildSchema hbuilt hslot hfound⟩
  · rintro ⟨slot, hslot, name, hrefers⟩
    obtain ⟨a, -, rfl⟩ := TypeTable.exists_mem_structs_of_isStruct hrefers.isStruct
    refine Hint.atom_mem_distinct (List.mem_filterMap.mpr ⟨slot, hslot, ?_⟩)
    rw [hrefers.reference]
    rfl

end RuleMarshal
