import RuleMarshal.Shape.Basic
import Mathlib.Data.List.Nodup
/-!
Fields of struct types. A field that is declared again keeps its place, so no two fields of a type
share an attribute (`TypeTable.attr_nodup_of_fields`).
-/

set_option autoImplicit false
set_option relaxedAutoImplicit false

namespace RuleMarshal.TypeTable

theorem mem_attr_putField {fields : List FieldDeclaration} {f : FieldDeclaration} {attr : String}
    (hmem : attr ∈ (putField fields f).map (·.attr)) :
    attr = f.attr ∨ attr ∈ fields.map (·.attr) := by
  induction fields with
  | nil => simpa [putField] using hmem
  | cons g rest ih =>
    rw [putField] at hmem
    split at hmem
    · rcases List.mem_cons.mp hmem with rfl | hrest
      · exact .inl rfl
      · exact .inr (List.mem_cons_of_mem _ hrest)
    · rcases List.mem_cons.mp hmem with rfl | hrest
      · exact .inr List.mem_cons_self
      · exact (ih hrest).imp_right (List.mem_cons_of_mem _)

theorem attr_nodup_putField {fields : List FieldDeclaration} {f : FieldDeclaration}
    (hnodup : (fields.map (·.attr)).Nodup) : ((putField fields f).map (·.attr)).Nodup := by
  induction fields with
  | nil => simp [putField]
  | cons g rest ih =>
    rw [List.map_cons, List.nodup_cons] at hnodup
    rw [putField]
    split
    case isTrue heq =>
      have hnew : f.attr ∉ rest.map (·.attr) := heq ▸ hnodup.1
      exact List.nodup_cons.mpr ⟨hnew, hnodup.2⟩
    case isFalse hne =>
      refine List.nodup_cons.mpr ⟨fun hmem ↦ ?_, ih hnodup.2⟩
      exact (mem_attr_putField hmem).elim hne hnodup.1

theorem attr_nodup_declaredFields (table : TypeTable) (t : StructType) :
    ((table.declaredFields t).map (·.attr)).Nodup := by
  have hfold : ∀ (declared kept : List FieldDeclaration), (kept.map (·.attr)).Nodup →
      ((declared.foldl putField kept).map (·.attr)).Nodup := by
    intro declared
    induction declared with
    | nil => exact fun _ hkept ↦ hkept
    | cons f rest ih => exact fun _ hkept ↦ ih _ (attr_nodup_putField hkept)
  exact hfold _ [] List.nodup_nil

theorem attr_eq_of_structFields {table : TypeTable} {tags : Tags} {t : StructType}
    {fields : List Field} (hfields : table.structFields tags t = .ok fields) :
    fields.map (·.attr) = (table.declaredFields t).map (·.attr) := by
  unfold structFields at hfields
  dsimp only at hfields
  split at hfields
  · cases hhints : (table.resolvedHints t).mapError (HostFault.inDeclaration t.name) with
    | error e =>
      rw [hhints] at hfields
      cases hfields
    | ok hints =>
      rw [hhints] at hfields
      cases hfields
      simp [Function.comp_def]
  · cases hfields
    simp [Function.comp_def]
  · cases hfields
    simp [Function.comp_def]
  · cases hfields

/-- No two fields of a type share an attribute. -/
theorem attr_nodup_of_fields {table : TypeTable} {tags : Tags} {h : Hint} {fields : List Field}
    (hfields : table.fields tags h = .ok fields) : (fields.map (·.attr)).Nodup := by
  unfold TypeTable.fields at hfields
  dsimp only at hfields
  split at hfields
  · split at hfields
    · rw [attr_eq_of_structFields hfields]
      exact attr_nodup_declaredFields table _
    · cases hfields
  · rename_i kind
    cases kind <;> cases hfields <;> exact List.nodup_singleton _
  · cases hfields

end RuleMarshal.TypeTable
