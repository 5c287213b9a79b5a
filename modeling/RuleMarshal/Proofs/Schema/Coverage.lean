import Mathlib.Data.Finset.Card
import Mathlib.Data.Finset.Filter
import Mathlib.Logic.Relation
import RuleMarshal.Proofs.Schema.Reference
/-!
The graph of types, and how much of it is remembered. A type refers to others by the slots of its
schema, and reaches what these refer to in turn (`TypeTable.Reaches`). A memory covers types when it
remembers them and what it remembers anew is reached from them, without gaps but for types that are
still being reflected (`Memo.Covers`). What covers all that a type refers to covers the type
(`Memo.Covers.root_of_references`).
-/

set_option autoImplicit false
set_option relaxedAutoImplicit false

namespace RuleMarshal

/-! ### Types and the types that they refer to -/

section

variable (table : TypeTable) (tags : Tags)

namespace TypeTable

/-- Whether a type has a schema. -/
def Buildable (h : Hint) : Prop := ∃ schema, buildSchema table tags h = .ok schema

/-- Whether a type has a schema that refers to another type. -/
def Refers (h g : Hint) : Prop :=
  ∃ schema, buildSchema table tags h = .ok schema ∧ g ∈ schema.references

/-- Whether a type refers to another one, by itself or through others. -/
def Reaches : Hint → Hint → Prop := Relation.ReflTransGen (table.Refers tags)

end TypeTable

/-! ### Memories -/

namespace Memo

/-- Whether a type is remembered. -/
def Knows (memo : Memo) (h : Hint) : Prop := (memo.find? h).isSome = true

/-- The struct types that are not being reflected. -/
def unbegun (memo : Memo) : Finset HintAtom :=
  table.structs.toFinset.filter fun a ↦ memo.isInProgress (.atom a) = false

/-- What a reflection of some types that succeeded has done: it forgot nothing, it remembers each of
the types but those in progress, and what it remembers anew is reached from them and has no gaps but
for types in progress. -/
structure Covers (memo : Memo) (roots : List Hint) (after : Memo) : Prop where
  kept : ∀ a, memo.Knows (.atom a) → after.Knows (.atom a)
  root : ∀ a, .atom a ∈ roots → after.Knows (.atom a) ∨ .atom a ∈ memo.inProgress
  reached : ∀ a, after.Knows (.atom a) →
    memo.Knows (.atom a) ∨ ∃ root ∈ roots, table.Reaches tags root (.atom a)
  closed : ∀ a b, after.Knows (.atom a) → ¬memo.Knows (.atom a) →
    table.Refers tags (.atom a) (.atom b) →
    after.Knows (.atom b) ∨ .atom b ∈ memo.inProgress

end Memo

end

section

variable {table : TypeTable} {tags : Tags} {memo after : Memo} {h g : Hint} {a b : HintAtom}
  {schema : ClassSchema} {roots : List Hint} {depth : Nat}

namespace TypeTable

theorem Refers.exists_atom (hrefers : table.Refers tags h g) :
    ∃ a ∈ table.structs, g = .atom a := by
  obtain ⟨schema, hbuilt, hmem⟩ := hrefers
  obtain ⟨slot, -, name, hslot⟩ := (mem_references_iff hbuilt).mp hmem
  exact exists_mem_structs_of_isStruct hslot.isStruct

theorem Buildable.exists_atom (hbuildable : table.Buildable tags h) :
    ∃ a ∈ table.structs, h = .atom a := by
  obtain ⟨schema, hbuilt⟩ := hbuildable
  exact mem_structs_of_buildSchema hbuilt

end TypeTable

theorem exists_atom_of_mem_references (hbuilt : buildSchema table tags h = .ok schema) :
    ∀ g ∈ schema.references, ∃ b, g = .atom b :=
  fun _ hg ↦ (TypeTable.Refers.exists_atom ⟨schema, hbuilt, hg⟩).imp fun _ hb ↦ hb.2

/-- Where some things are left and then fewer, one step less is enough. -/
theorem card_lt_of_subset_of_mem {α : Type} {left before : Finset α} {c : α}
    (hsubset : left ⊆ before) (hmem : c ∈ before) (hdone : c ∉ left)
    (hroom : before.card < depth + 1) : left.card < depth :=
  lt_of_lt_of_le (Finset.card_lt_card ((Finset.ssubset_iff_of_subset hsubset).mpr ⟨c, hmem, hdone⟩))
    (Nat.le_of_lt_succ hroom)

namespace Memo

theorem isInProgress_iff : memo.isInProgress (.atom a) = true ↔ .atom a ∈ memo.inProgress := by
  unfold isInProgress
  rw [List.any_eq_true]
  constructor
  · rintro ⟨g, hmem, hsame⟩
    exact Hint.atom_same.mp hsame ▸ hmem
  · exact fun hmem ↦ ⟨_, hmem, Hint.atom_same.mpr rfl⟩

theorem mem_start :
    .atom a ∈ (memo.start h).inProgress ↔ h = .atom a ∨ .atom a ∈ memo.inProgress := by
  simp [start, eq_comm]

theorem mem_finish :
    .atom a ∈ (memo.finish h).inProgress ↔ .atom a ∈ memo.inProgress ∧ h ≠ .atom a := by
  have hsame : (Hint.atom a).same h = false ↔ h ≠ .atom a := by
    rw [← Bool.not_eq_true, Hint.atom_same]
  simp [finish, hsame]

theorem knows_remember :
    (memo.remember h schema).Knows (.atom a) ↔ h = .atom a ∨ memo.Knows (.atom a) := by
  by_cases hsame : h = .atom a
  · subst hsame
    simp [Knows, find?, remember, Hint.same_atom.mpr]
  · have hfalse : h.same (.atom a) = false := Bool.eq_false_iff.mpr fun htrue ↦
      hsame (Hint.same_atom.mp htrue)
    simp [Knows, find?, remember, hfalse, hsame]

theorem mem_unbegun : a ∈ memo.unbegun table ↔ a ∈ table.structs ∧ .atom a ∉ memo.inProgress := by
  unfold unbegun
  rw [Finset.mem_filter, List.mem_toFinset, ← isInProgress_iff, Bool.not_eq_true]

theorem unbegun_congr (hsame : ∀ a, .atom a ∈ after.inProgress ↔ .atom a ∈ memo.inProgress) :
    after.unbegun table = memo.unbegun table := by
  ext a
  rw [mem_unbegun, mem_unbegun, hsame]

/-- With every struct type that is begun there are fewer left. -/
theorem card_unbegun_start (hstruct : a ∈ table.structs) (hnew : .atom a ∉ memo.inProgress)
    (hroom : (memo.unbegun table).card < depth + 1) :
    ((memo.start (.atom a)).unbegun table).card < depth := by
  refine card_lt_of_subset_of_mem (fun b hb ↦ ?_) (mem_unbegun.mpr ⟨hstruct, hnew⟩)
    (fun hself ↦ ?_) hroom
  · rw [mem_unbegun, mem_start, not_or] at hb
    exact mem_unbegun.mpr ⟨hb.1, hb.2.2⟩
  · exact (mem_unbegun.mp hself).2 (mem_start.mpr (.inl rfl))

theorem card_unbegun_le : (memo.unbegun table).card ≤ table.types.length + 9 :=
  calc (memo.unbegun table).card
    _ ≤ table.structs.toFinset.card := Finset.card_filter_le _ _
    _ ≤ table.structs.length := table.structs.toFinset_card_le
    _ = table.types.length + 9 := table.length_structs

/-! ### What is covered -/

theorem Covers.refl
    (hknown : ∀ a, .atom a ∈ roots → memo.Knows (.atom a) ∨ .atom a ∈ memo.inProgress) :
    memo.Covers table tags roots memo where
  kept _ hknows := hknows
  root := hknown
  reached _ hknows := .inl hknows
  closed _ _ hknows hnew := absurd hknows hnew

/-- What covers a type, and then others, covers all of them. -/
theorem Covers.cons {between : Memo} {root : Hint} (hfirst : memo.Covers table tags [root] between)
    (hsame : ∀ a, .atom a ∈ between.inProgress ↔ .atom a ∈ memo.inProgress)
    (hrest : between.Covers table tags roots after) :
    memo.Covers table tags (root :: roots) after where
  kept a hknows := hrest.kept a (hfirst.kept a hknows)
  root a hmem := by
    obtain rfl | hmem := List.mem_cons.mp hmem
    · exact (hfirst.root a List.mem_cons_self).imp_left (hrest.kept a)
    · exact (hrest.root a hmem).imp_right (hsame a).mp
  reached a hknows := by
    obtain hknows | ⟨g, hg, hreaches⟩ := hrest.reached a hknows
    · refine (hfirst.reached a hknows).imp_right ?_
      rintro ⟨g, hg, hreaches⟩
      obtain rfl := List.mem_singleton.mp hg
      exact ⟨g, List.mem_cons_self, hreaches⟩
    · exact .inr ⟨g, List.mem_cons_of_mem _ hg, hreaches⟩
  closed a b hknows hnew hrefers := by
    by_cases hbetween : between.Knows (.atom a)
    · exact (hfirst.closed a b hbetween hnew hrefers).imp_left (hrest.kept b)
    · exact (hrest.closed a b hknows hbetween hrefers).imp_right (hsame b).mp

/-- What covers all that a type refers to, once the type is remembered and in progress, covers the
type. -/
theorem Covers.root_of_references (hbuilt : buildSchema table tags (.atom a) = .ok schema)
    (hcovers : ((memo.start (.atom a)).remember (.atom a) schema).Covers table tags
      schema.references after) :
    memo.Covers table tags [.atom a] (after.finish (.atom a)) := by
  have hself : after.Knows (.atom a) := hcovers.kept a (knows_remember.mpr (.inl rfl))
  -- only the type itself is in progress now and was not
  have hbefore : ∀ b, after.Knows (.atom b) ∨
      .atom b ∈ ((memo.start (.atom a)).remember (.atom a) schema).inProgress →
        after.Knows (.atom b) ∨ .atom b ∈ memo.inProgress := by
    rintro b (hknows | hprogress)
    · exact .inl hknows
    · obtain heq | hprogress := mem_start.mp hprogress
      · exact .inl (heq ▸ hself)
      · exact .inr hprogress
  refine ⟨fun b hknows ↦ hcovers.kept b (knows_remember.mpr (.inr hknows)), fun b hmem ↦ ?_,
    fun b hknows ↦ ?_, fun b c hknows hnew hrefers ↦ ?_⟩
  · obtain rfl := Hint.atom.inj (List.mem_singleton.mp hmem)
    exact .inl hself
  · obtain hknows | ⟨g, hg, hreaches⟩ := hcovers.reached b hknows
    · obtain heq | hknows := knows_remember.mp hknows
      · exact .inr ⟨.atom a, List.mem_cons_self, heq ▸ .refl⟩
      · exact .inl hknows
    · exact .inr ⟨.atom a, List.mem_cons_self, .head ⟨schema, hbuilt, hg⟩ hreaches⟩
  · apply hbefore c
    by_cases hfirst : a = b
    · subst hfirst
      obtain ⟨found, hfound, hmem⟩ := hrefers
      obtain rfl : schema = found := Except.ok.inj (hbuilt.symm.trans hfound)
      exact hcovers.root c hmem
    · refine hcovers.closed b c hknows (fun hstarted ↦ ?_) hrefers
      obtain heq | hknown := knows_remember.mp hstarted
      · exact hfirst (Hint.atom.inj heq)
      · exact hnew hknown

end Memo

end

end RuleMarshal
