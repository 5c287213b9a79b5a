import RuleMarshal.Proofs.Schema.Coverage
import RuleMarshal.Proofs.Schema.Memory
/-!
One reflection. Whatever a reflection meets, it leaves no type in progress that was not; where it
succeeds, it has covered the type, and where it fails, the type reaches one that has no schema
(`reflectWithin_leaves`). The bound on types that are reflected one inside the other is never what
it fails by (`reflectWithin_enough`). What its steps leave alone, it leaves alone
(`reflectWithin_keeps`).
-/

set_option autoImplicit false
set_option relaxedAutoImplicit false

namespace RuleMarshal

variable {table : TypeTable} {tags : Tags} {memo after : Memo} {h g : Hint} {a b : HintAtom}
  {schema : ClassSchema} {roots : List Hint} {depth : Nat}

/-- How a reflection of some types leaves the memory: what is in progress is what was; it has
covered the types, or it failed by a type without a schema that they reach. -/
structure Memo.Leaves (table : TypeTable) (tags : Tags) {α : Type} (memo : Memo) (roots : List Hint)
    (ended : Except Error α × Memo) : Prop where
  inProgress : ∀ a, .atom a ∈ ended.2.inProgress ↔ .atom a ∈ memo.inProgress
  covers : ∀ found, ended.1 = .ok found → memo.Covers table tags roots ended.2
  fails : ∀ e, ended.1 = .error e →
    ∃ root ∈ roots, ∃ g, table.Reaches tags root g ∧ ¬table.Buildable tags g

/-! ### Reflection of a type -/

namespace Memo

/-- What is left by types of which one is reflected first and then the others. -/
theorem Leaves.cons {root : Hint} {f : Hint → Reflecting PUnit}
    (hfirst : memo.Leaves table tags [root] ((f root).run memo))
    (hrest : ∀ after : Memo, (∀ a, .atom a ∈ after.inProgress ↔ .atom a ∈ memo.inProgress) →
      after.Leaves table tags roots (ExceptT.run (roots.forM f) after)) :
    memo.Leaves table tags (root :: roots) (ExceptT.run ((root :: roots).forM f) memo) := by
  rw [Reflecting.run_forM_cons]
  cases hrun : (f root).run memo with
  | mk answer between =>
    rw [hrun] at hfirst
    cases answer with
    | error e =>
      refine ⟨hfirst.inProgress, nofun, fun e he ↦ ?_⟩
      obtain ⟨g, hg, hfails⟩ := hfirst.fails e he
      obtain rfl := List.mem_singleton.mp hg
      exact ⟨g, List.mem_cons_self, hfails⟩
    | ok found =>
      have hlater := hrest between hfirst.inProgress
      refine ⟨fun a ↦ (hlater.inProgress a).trans (hfirst.inProgress a),
        fun found' hok ↦ ?_, fun e he ↦ ?_⟩
      · exact (hfirst.covers found rfl).cons hfirst.inProgress (hlater.covers found' hok)
      · obtain ⟨g, hg, hfails⟩ := hlater.fails e he
        exact ⟨g, List.mem_cons_of_mem _ hg, hfails⟩

theorem leaves_reflectNested (hnested : ¬memo.Knows (.atom a) → .atom a ∉ memo.inProgress →
      memo.Leaves table tags [.atom a] ((reflectWithin table tags depth (.atom a)).run memo)) :
    memo.Leaves table tags [.atom a] ((reflectNested table tags depth (.atom a)).run memo) := by
  rw [run_reflectNested]
  split
  · rename_i hneeded
    rw [Bool.and_eq_true, Bool.not_eq_true', ← Bool.not_eq_true, isInProgress_iff] at hneeded
    obtain ⟨hinProgress, hcovers, hfails⟩ :=
      hnested (by simpa [Knows] using hneeded.1) hneeded.2
    refine ⟨hinProgress, fun found hok ↦ ?_, fun e he ↦ hfails e ?_⟩
    · cases hrun : ((reflectWithin table tags depth (.atom a)).run memo).1 with
      | error e => simp [hrun, Except.map] at hok
      | ok schema => exact hcovers schema hrun
    · cases hrun : ((reflectWithin table tags depth (.atom a)).run memo).1 with
      | error e' => simpa [hrun, Except.map] using he
      | ok schema => simp [hrun, Except.map] at he
  · rename_i hdone
    refine ⟨fun _ ↦ Iff.rfl, fun _ _ ↦ .refl fun b hb ↦ ?_, fun _ he ↦ by cases he⟩
    obtain rfl := Hint.atom.inj (List.mem_singleton.mp hb)
    rw [Bool.and_eq_true, Bool.not_eq_true', ← Bool.not_eq_true, isInProgress_iff, not_and_or,
      not_not, Option.isNone_iff_eq_none, ← ne_eq, ← Option.isSome_iff_ne_none] at hdone
    exact hdone

/-- What the types leave that a schema refers to. -/
theorem leaves_references {items : List Hint} (hatoms : ∀ g ∈ items, ∃ a, g = .atom a)
    (hnested : ∀ (a : HintAtom) (m : Memo), (m.unbegun table).card < depth →
      .atom a ∉ m.inProgress →
      m.Leaves table tags [.atom a] ((reflectWithin table tags depth (.atom a)).run m))
    (hroom : (memo.unbegun table).card < depth) :
    memo.Leaves table tags items
      (ExceptT.run (items.forM (reflectNested table tags depth)) memo) := by
  induction items generalizing memo with
  | nil => exact ⟨fun _ ↦ Iff.rfl, fun _ _ ↦ .refl nofun, nofun⟩
  | cons g rest ih =>
    obtain ⟨a, rfl⟩ := hatoms g List.mem_cons_self
    refine Leaves.cons (leaves_reflectNested fun _ ↦ hnested a memo hroom) fun after hsame ↦ ?_
    exact ih (fun g hg ↦ hatoms g (List.mem_cons_of_mem _ hg)) (by rwa [unbegun_congr hsame])

end Memo

/-- What a reflection leaves of a type that is not in progress, as long as it may go as deep as
there are types not in progress. -/
theorem reflectWithin_leaves (hroom : (memo.unbegun table).card < depth)
    (hnew : ∀ a, h = .atom a → .atom a ∉ memo.inProgress) :
    memo.Leaves table tags [h] ((reflectWithin table tags depth h).run memo) := by
  induction depth generalizing h memo with
  | zero => exact absurd hroom (Nat.not_lt_zero _)
  | succ depth ih =>
    -- whether it failed or not, the type itself is taken off again
    have hback : ∀ {after : Memo},
        (∀ a, .atom a ∈ after.inProgress ↔ .atom a ∈ (memo.start h).inProgress) →
        ∀ a, .atom a ∈ (after.finish h).inProgress ↔ .atom a ∈ memo.inProgress := by
      intro after hsame a
      rw [Memo.mem_finish, hsame, Memo.mem_start]
      constructor
      · exact fun hmem ↦ hmem.1.resolve_left hmem.2
      · exact fun hmem ↦ ⟨.inr hmem, fun heq ↦ hnew a heq hmem⟩
    rw [run_reflectWithin_succ]
    cases hfind : memo.find? h with
    | some schema =>
      refine ⟨fun _ ↦ Iff.rfl, fun _ _ ↦ .refl fun b hb ↦ .inl ?_, fun _ he ↦ by cases he⟩
      rw [List.mem_singleton.mp hb, Memo.Knows, hfind]
      rfl
    | none =>
      dsimp only
      split
      · rename_i hprogress
        refine ⟨fun _ ↦ Iff.rfl, fun _ hok ↦ (by cases hok),
          fun _ _ ↦ ⟨h, List.mem_cons_self, h, .refl, fun hbuildable ↦ ?_⟩⟩
        obtain ⟨a, -, rfl⟩ := hbuildable.exists_atom
        exact hnew a rfl (Memo.isInProgress_iff.mp hprogress)
      · rw [run_reflectBegun]
        cases hbuilt : buildSchema table tags h with
        | error e =>
          refine ⟨hback fun _ ↦ Iff.rfl, fun _ hok ↦ (by cases hok),
            fun _ _ ↦ ⟨h, List.mem_cons_self, h, .refl, ?_⟩⟩
          rintro ⟨schema, hschema⟩
          rw [hbuilt] at hschema
          cases hschema
        | ok schema =>
          obtain ⟨a, hstruct, rfl⟩ := mem_structs_of_buildSchema hbuilt
          have hless :
              (((memo.start (.atom a)).remember (.atom a) schema).unbegun table).card < depth :=
            Memo.card_unbegun_start hstruct (hnew a rfl) hroom
          have hatoms := exists_atom_of_mem_references hbuilt
          obtain ⟨hinProgress, hcovers, hfails⟩ := Memo.leaves_references hatoms
            (fun b m hroom hnew ↦ ih hroom fun c hc ↦ Hint.atom.inj hc ▸ hnew) hless
          dsimp only
          cases hrun : ExceptT.run (schema.references.forM (reflectNested table tags depth))
              ((memo.start (.atom a)).remember (.atom a) schema) with
          | mk answer after =>
            rw [hrun] at hinProgress hcovers hfails
            cases answer with
            | ok found =>
              refine ⟨hback hinProgress,
                fun _ _ ↦ (hcovers found rfl).root_of_references hbuilt, fun _ he ↦ ?_⟩
              cases he
            | error e =>
              refine ⟨hback hinProgress, fun _ hok ↦ (by cases hok), fun _ _ ↦ ?_⟩
              obtain ⟨g, hg, target, hreaches, hfailed⟩ := hfails e rfl
              exact ⟨.atom a, List.mem_cons_self, target,
                .head ⟨schema, hbuilt, hg⟩ hreaches, hfailed⟩

theorem run_forM_reflectNested_congr {other : Nat} {items : List Hint}
    (hatoms : ∀ g ∈ items, ∃ a, g = .atom a)
    (hsame : ∀ (a : HintAtom) (m : Memo), (m.unbegun table).card < depth → .atom a ∉ m.inProgress →
      (reflectWithin table tags other (.atom a)).run m =
      (reflectWithin table tags depth (.atom a)).run m)
    (hroom : (memo.unbegun table).card < depth) :
    ExceptT.run (items.forM (reflectNested table tags other)) memo =
      ExceptT.run (items.forM (reflectNested table tags depth)) memo := by
  induction items generalizing memo with
  | nil => rfl
  | cons g rest ih =>
    obtain ⟨a, rfl⟩ := hatoms g List.mem_cons_self
    have hleaves : memo.Leaves table tags [.atom a]
        ((reflectNested table tags depth (.atom a)).run memo) :=
      Memo.leaves_reflectNested fun _ hnew ↦ reflectWithin_leaves hroom fun b hb ↦
        Hint.atom.inj hb ▸ hnew
    have hfirst : (reflectNested table tags other (.atom a)).run memo =
        (reflectNested table tags depth (.atom a)).run memo := by
      rw [run_reflectNested, run_reflectNested]
      split
      · rename_i hneeded
        rw [Bool.and_eq_true, Bool.not_eq_true', ← Bool.not_eq_true,
          Memo.isInProgress_iff] at hneeded
        rw [hsame a memo hroom hneeded.2]
      · rfl
    rw [Reflecting.run_forM_cons, Reflecting.run_forM_cons, hfirst]
    cases hrun : (reflectNested table tags depth (.atom a)).run memo with
    | mk answer after =>
      rw [hrun] at hleaves
      cases answer with
      | error e => rfl
      | ok found =>
        exact ih (fun g hg ↦ hatoms g (List.mem_cons_of_mem _ hg))
          (by rwa [Memo.unbegun_congr hleaves.inProgress])

/-- A reflection that may go as deep as there are types not in progress never goes deeper. -/
theorem reflectWithin_enough (hroom : (memo.unbegun table).card < depth)
    (hnew : ∀ a, h = .atom a → .atom a ∉ memo.inProgress) (more : Nat) :
    (reflectWithin table tags (depth + more) h).run memo =
      (reflectWithin table tags depth h).run memo := by
  induction depth generalizing h memo with
  | zero => exact absurd hroom (Nat.not_lt_zero _)
  | succ depth ih =>
    rw [Nat.succ_add, run_reflectWithin_succ, run_reflectWithin_succ]
    cases memo.find? h with
    | some schema => rfl
    | none =>
      dsimp only
      split
      · rfl
      · rw [run_reflectBegun, run_reflectBegun]
        cases hbuilt : buildSchema table tags h with
        | error e => rfl
        | ok schema =>
          obtain ⟨a, hstruct, rfl⟩ := mem_structs_of_buildSchema hbuilt
          have hless :
              (((memo.start (.atom a)).remember (.atom a) schema).unbegun table).card < depth :=
            Memo.card_unbegun_start hstruct (hnew a rfl) hroom
          have hatoms := exists_atom_of_mem_references hbuilt
          dsimp only
          rw [run_forM_reflectNested_congr hatoms
            (fun b m hroom hnew ↦ ih hroom fun c hc ↦ Hint.atom.inj hc ▸ hnew) hless]

/-! ### What every reflection keeps -/

/-- What marks, what is built and what is forgotten leave alone, every reflection leaves alone. -/
theorem reflectWithin_keeps {P : Memo → Prop} (hstart : ∀ m g, P m → P (m.start g))
    (hfinish : ∀ m g, P m → P (m.finish g)) (hforget : ∀ m g, P m → P (m.forget g))
    (hremember : ∀ m g schema, buildSchema table tags g = .ok schema → P m →
      P (m.remember g schema))
    (hmemo : P memo) : P ((reflectWithin table tags depth h).run memo).2 := by
  induction depth generalizing h memo with
  | zero => exact hmemo
  | succ depth ih =>
    have hnested : ∀ g m, P m → P ((reflectNested table tags depth g).run m).2 := fun g m hm ↦ by
      rw [run_reflectNested]
      split
      · exact ih hm
      · exact hm
    rw [run_reflectWithin_succ]
    cases memo.find? h with
    | some schema => exact hmemo
    | none =>
      dsimp only
      split
      · exact hmemo
      · rw [run_reflectBegun]
        cases hbuilt : buildSchema table tags h with
        | error e => exact hfinish _ h (hforget _ h (hstart memo h hmemo))
        | ok schema =>
          have hwalked := Reflecting.forM_keeps hnested schema.references
            (hremember _ h schema hbuilt (hstart memo h hmemo))
          dsimp only
          cases hrun : ExceptT.run (schema.references.forM (reflectNested table tags depth))
              ((memo.start h).remember h schema) with
          | mk answer after =>
            rw [hrun] at hwalked
            cases answer with
            | error e => exact hfinish _ h (hforget _ h hwalked)
            | ok found => exact hfinish _ h hwalked

end RuleMarshal
