import RuleMarshal.Proofs.Computation.Carrying
import RuleMarshal.Proofs.Synthesis.Classes
/-!
The course of a synthesis. A class is begun already, or exists, or is defined once all that its
schema refers to was gone through (`Defines`); a type that a schema refers to is not named where its
class was begun, and is defined else (`Meets`). A run that ends with an answer took one of these
courses (`defines_of_synthesizeWithin`, `meets_of_synthesizeNested`).

With each class that is begun one struct type less is left, so that a synthesis that may go as deep
as there are names of classes never goes deeper (`synthesizeWithin_enough`).
-/

set_option autoImplicit false
set_option relaxedAutoImplicit false

namespace RuleMarshal

open Carrying

/-! ### Synthesis of one class -/

/-- What is done for a type that a schema refers to: its class is not to be named where it was
begun, and is defined else. -/
def synthesizeNested (depth : Nat) (forward : List String) (g : Hint) :
    Synthesizing (List String) := do
  let schema ← schemaOf g
  if (← get).visiting.contains schema.name then
    return schema.name :: forward
  else
    synthesizeWithin depth schema
    return forward

theorem synthesizeWithin_succ (depth : Nat) (schema : ClassSchema) :
    synthesizeWithin (depth + 1) schema = (do
      if (← get).visiting.contains schema.name then return ()
      if ← classIsDefined schema.name then return ()
      modify fun c ↦ { c with visiting := schema.name :: c.visiting }
      let forward ← schema.references.foldlM (synthesizeNested depth) []
      let config := (← read).config
      let text := schema.render config.superclass.content config.patternMatch.content forward
      Channel.build (.text text)
      modify fun c ↦ { c with emitted := c.emitted ++ [text] }) := rfl

/-- What a synthesis has done once it has begun the class of a schema. -/
def Synthesis.begin (c : Synthesis) (schema : ClassSchema) : Synthesis :=
  { c with visiting := schema.name :: c.visiting }

/-- What a synthesis has done once it has sent a definition. -/
def Synthesis.emit (c : Synthesis) (text : String) : Synthesis :=
  { c with emitted := c.emitted ++ [text] }

/-- How the synthesis of a class that ends with an answer goes. -/
inductive Defines (world : World) (depth : Nat) (schema : ClassSchema) (c : Synthesis) (s : State) :
    Synthesis → State → Prop where
  | begun (hbegun : schema.name ∈ c.visiting) : Defines world depth schema c s c s
  | existing {t : State} (hnew : schema.name ∉ c.visiting)
      (hasked : (classIsDefined schema.name).runIn world s = (.ok true, t)) :
      Defines world depth schema c s c t
  | defined {u v t : State} {d : Synthesis} {forward : List String}
      (hnew : schema.name ∉ c.visiting)
      (hasked : (classIsDefined schema.name).runIn world s = (.ok false, u))
      (hnested : runIn (schema.references.foldlM (synthesizeNested depth) []) world (c.begin schema)
        u = (.ok (forward, d), v))
      (hsent : (Channel.build (.text (world.definition schema forward))).runIn world v =
        (.ok (), t)) :
      Defines world depth schema c s (d.emit (world.definition schema forward)) t

/-- How it goes with a type that a schema refers to, in a synthesis that ends with an answer. -/
inductive Meets (world : World) (depth : Nat) (forward : List String) (g : Hint) (c : Synthesis)
    (s : State) :
    List String → Synthesis → State → Prop where
  | begun {t : State} {schema : ClassSchema}
      (hschema : (schemaOf g).runIn world s = (.ok schema, t))
      (hbegun : schema.name ∈ c.visiting) :
        Meets world depth forward g c s (schema.name :: forward) c t
  | defined {u t : State} {schema : ClassSchema} {d : Synthesis}
      (hschema : (schemaOf g).runIn world s = (.ok schema, u)) (hnew : schema.name ∉ c.visiting)
      (hwithin : runIn (synthesizeWithin depth schema) world c u = (.ok ((), d), t)) :
      Meets world depth forward g c s forward d t

section

variable {world : World} {s t : State} {c d : Synthesis} {depth : Nat} {schema : ClassSchema}
variable {g : Hint} {forward after : List String}

theorem defines_of_synthesizeWithin
    (hrun : runIn (synthesizeWithin (depth + 1) schema) world c s = (.ok ((), d), t)) :
    Defines world depth schema c s d t := by
  rw [synthesizeWithin_succ] at hrun
  obtain ⟨now, e, u, hget, hasking⟩ := ok_of_bind hrun
  obtain ⟨rfl, rfl, rfl⟩ := ok_of_get hget
  dsimp only at hasking
  split at hasking
  · rename_i hbegun
    obtain ⟨-, rfl, rfl⟩ := ok_of_pure hasking
    exact .begun (List.contains_iff_mem.mp hbegun)
  · rename_i hnew
    have hnew : schema.name ∉ c.visiting := fun hmem ↦ hnew (List.contains_iff_mem.mpr hmem)
    obtain ⟨answer, e, u, hlift, hbeginning⟩ := ok_of_bind hasking
    obtain ⟨hasked, rfl⟩ := ok_of_lift hlift
    cases answer with
    | true =>
      obtain ⟨-, rfl, rfl⟩ := ok_of_pure hbeginning
      exact .existing hnew hasked
    | false =>
      obtain ⟨_, e, v, hmodify, hgoing⟩ := ok_of_bind hbeginning
      obtain ⟨rfl, rfl⟩ := ok_of_modify hmodify
      obtain ⟨forward, e, w, hnested, hsending⟩ := ok_of_bind hgoing
      obtain ⟨now, f, x, hread, hbuilding⟩ := ok_of_bind hsending
      obtain ⟨rfl, rfl, rfl⟩ := ok_of_read hread
      obtain ⟨_, f, x, hlift, hnoting⟩ := ok_of_bind hbuilding
      obtain ⟨hsent, rfl⟩ := ok_of_lift hlift
      obtain ⟨rfl, rfl⟩ := ok_of_modify hnoting
      exact .defined hnew hasked hnested hsent

theorem meets_of_synthesizeNested
    (hrun : runIn (synthesizeNested depth forward g) world c s = (.ok (after, d), t)) :
    Meets world depth forward g c s after d t := by
  obtain ⟨schema, e, u, hlift, hgetting⟩ := ok_of_bind hrun
  obtain ⟨hschema, rfl⟩ := ok_of_lift hlift
  obtain ⟨now, e, v, hget, hasking⟩ := ok_of_bind hgetting
  obtain ⟨rfl, rfl, rfl⟩ := ok_of_get hget
  split at hasking
  · rename_i hbegun
    obtain ⟨rfl, rfl, rfl⟩ := ok_of_pure hasking
    exact .begun hschema (List.contains_iff_mem.mp hbegun)
  · rename_i hnew
    obtain ⟨⟨⟩, e, v, hwithin, hreturn⟩ := ok_of_bind hasking
    obtain ⟨rfl, rfl, rfl⟩ := ok_of_pure hreturn
    exact .defined hschema (fun hmem ↦ hnew (List.contains_iff_mem.mpr hmem)) hwithin

/-! ### What is begun -/

/-- A synthesis keeps to what it has begun. -/
theorem visiting_subset_of_synthesizeWithin
    (hrun : runIn (synthesizeWithin depth schema) world c s = (.ok ((), d), t)) :
    c.visiting ⊆ d.visiting := by
  induction depth generalizing schema c d s t with
  | zero => exact absurd hrun ok_of_throw
  | succ depth ih =>
    cases defines_of_synthesizeWithin hrun with
    | begun => exact fun _ hmem ↦ hmem
    | existing => exact fun _ hmem ↦ hmem
    | defined hnew hasked hnested hsent =>
      have hgrows := of_foldlM (P := fun _ e _ ↦ (c.begin schema).visiting ⊆ e.visiting)
        (fun g _ b e u b' f v hbefore hstep ↦ by
          cases meets_of_synthesizeNested hstep with
          | begun => exact hbefore
          | defined hschema hnew hwithin => exact List.Subset.trans hbefore (ih hwithin))
        (fun _ hmem ↦ hmem) hnested
      exact List.Subset.trans (List.subset_cons_self _ _) hgrows

theorem visiting_subset_of_synthesizeNested
    (hrun : runIn (synthesizeNested depth forward g) world c s = (.ok (after, d), t)) :
    c.visiting ⊆ d.visiting := by
  cases meets_of_synthesizeNested hrun with
  | begun => exact fun _ hmem ↦ hmem
  | defined hschema hnew hwithin => exact visiting_subset_of_synthesizeWithin hwithin

/-! ### How deep a synthesis goes -/

/-- The names of the classes of all struct types. -/
def TypeTable.classNames (table : TypeTable) : List String :=
  table.structs.filterMap fun a ↦ (table.className (.atom a)).toOption

/-- The names of the classes that a synthesis has not begun. -/
def Synthesis.left (c : Synthesis) (table : TypeTable) : Finset String :=
  table.classNames.toFinset.filter fun name ↦ name ∉ c.visiting

theorem name_mem_classNames {table : TypeTable} {tags : Tags} {h : Hint}
    (hbuilt : buildSchema table tags h = .ok schema) : schema.name ∈ table.classNames := by
  obtain ⟨a, ha, rfl⟩ := mem_structs_of_buildSchema hbuilt
  exact List.mem_filterMap.mpr ⟨a, ha, by rw [className_of_buildSchema hbuilt]; rfl⟩

theorem Synthesis.card_left_le (c : Synthesis) (table : TypeTable) :
    (c.left table).card ≤ table.types.length + 9 :=
  calc (c.left table).card
    _ ≤ table.classNames.toFinset.card := Finset.card_filter_le _ _
    _ ≤ table.classNames.length := table.classNames.toFinset_card_le
    _ ≤ table.structs.length := List.length_filterMap_le _ _
    _ = table.types.length + 9 := table.length_structs

theorem Synthesis.mem_left {table : TypeTable} {name : String} :
    name ∈ c.left table ↔ name ∈ table.classNames ∧ name ∉ c.visiting := by
  unfold left
  rw [Finset.mem_filter, List.mem_toFinset]

theorem Synthesis.left_mono {table : TypeTable} (hsubset : c.visiting ⊆ d.visiting) :
    d.left table ⊆ c.left table := fun name hname ↦ by
  obtain ⟨hmem, hnew⟩ := mem_left.mp hname
  exact mem_left.mpr ⟨hmem, fun hbegun ↦ hnew (hsubset hbegun)⟩

/-- With every class that is begun there are fewer left. -/
theorem Synthesis.card_left_begin {table : TypeTable} (hmem : schema.name ∈ table.classNames)
    (hnew : schema.name ∉ c.visiting) (hroom : (c.left table).card < depth + 1) :
    ((c.begin schema).left table).card < depth :=
  card_lt_of_subset_of_mem (left_mono (List.subset_cons_self _ _)) (mem_left.mpr ⟨hmem, hnew⟩)
    (fun hself ↦ (mem_left.mp hself).2 List.mem_cons_self) hroom

theorem keeps_synthesizeNested (hworld : world.Orderly) (depth : Nat) (forward : List String)
    (g : Hint) :
    Carrying.Keeps (Evolves world.setup .asking) world (synthesizeNested depth forward g) := by
  have hasking := (hworld.frame .asking).inquiring
  refine Carrying.Meets.iff_keeps.mp ?_
  refine (Carrying.Meets.lift (hasking.schemaOf g)).bind fun schema ↦ .bind .get fun now ↦ ?_
  exact .ite (.pure _) ((hasking.synthesizeWithin depth schema).bind fun _ ↦ .pure _)

/-- What is settled stays so in a computation that asks the engine at most. -/
theorem Carrying.Keeps.memo_settled {α : Type} {act : StateT Synthesis Act α} {a : α}
    (hact : Carrying.Keeps (Evolves world.setup .asking) world act)
    (hsettled : s.memo.Settled world.types world.config.tags)
    (hrun : runIn act world c s = (.ok (a, d), t)) : t.memo.Settled world.types world.config.tags :=
  ((hact c).of_runIn hrun).memo_settled hsettled

/-- Walks along what a schema refers to go alike where the syntheses on the way do. -/
theorem runIn_foldlM_synthesizeNested_congr (hworld : world.Orderly) {other : Nat}
    (hsame : ∀ (schema : ClassSchema) (h : Hint) (c : Synthesis) (s : State),
      buildSchema world.types world.config.tags h = .ok schema →
      s.memo.Settled world.types world.config.tags → (c.left world.types).card < depth →
      runIn (synthesizeWithin other schema) world c s =
      runIn (synthesizeWithin depth schema) world c s)
    (items : List Hint) (forward : List String)
    (hsettled : s.memo.Settled world.types world.config.tags)
    (hroom : (c.left world.types).card < depth) :
    runIn (items.foldlM (synthesizeNested other) forward) world c s =
      runIn (items.foldlM (synthesizeNested depth) forward) world c s := by
  induction items generalizing forward c s with
  | nil => rfl
  | cons g rest ih =>
    rw [List.foldlM_cons, List.foldlM_cons]
    refine runIn_bind_congr ?_ fun after d t hstep ↦ ?_
    · refine runIn_bind_congr rfl fun schema d t hlift ↦ ?_
      obtain ⟨hschema, rfl⟩ := ok_of_lift hlift
      obtain ⟨hbuilt, hidles⟩ := ok_of_schemaOf (fun _ _ ↦ True) hsettled hschema
      refine runIn_bind_congr rfl fun now d u hget ↦ ?_
      obtain ⟨rfl, rfl, rfl⟩ := ok_of_get hget
      split
      · rfl
      · exact runIn_bind_congr
          (hsame schema g _ _ hbuilt (hidles.evolves.memo_settled hsettled) hroom)
          fun _ _ _ _ ↦ rfl
    · refine ih after ((keeps_synthesizeNested hworld depth forward g).memo_settled hsettled hstep)
        ?_
      have hfewer : d.left world.types ⊆ c.left world.types :=
        Synthesis.left_mono (visiting_subset_of_synthesizeNested hstep)
      exact lt_of_le_of_lt (Finset.card_le_card hfewer) hroom

/-- A synthesis that may go as deep as there are names of classes left never goes deeper. -/
theorem synthesizeWithin_enough (hworld : world.Orderly) {h : Hint}
    (hbuilt : buildSchema world.types world.config.tags h = .ok schema)
    (hsettled : s.memo.Settled world.types world.config.tags)
    (hroom : (c.left world.types).card < depth) (more : Nat) :
    runIn (synthesizeWithin (depth + more) schema) world c s =
      runIn (synthesizeWithin depth schema) world c s := by
  induction depth generalizing schema h c s with
  | zero => exact absurd hroom (Nat.not_lt_zero _)
  | succ depth ih =>
    rw [Nat.succ_add, synthesizeWithin_succ, synthesizeWithin_succ]
    refine runIn_bind_congr rfl fun now d u hget ↦ ?_
    obtain ⟨rfl, rfl, rfl⟩ := ok_of_get hget
    dsimp only
    split
    · rfl
    · rename_i hnew
      refine runIn_bind_congr rfl fun answer d v hlift ↦ ?_
      obtain ⟨hasked, rfl⟩ := ok_of_lift hlift
      split
      · rfl
      · refine runIn_bind_congr rfl fun _ d w hbegun ↦ ?_
        obtain ⟨rfl, rfl⟩ := ok_of_modify hbegun
        refine runIn_bind_congr ?_ fun _ _ _ _ ↦ rfl
        refine runIn_foldlM_synthesizeNested_congr hworld (fun _ _ _ _ hbuilt hsettled hroom ↦
          ih hbuilt hsettled hroom) _ _ ?_ ?_
        · have hevolves :=
            ((hworld.frame .asking).inquiring.classIsDefined schema.name).answered hasked
          exact Evolves.memo_settled hevolves hsettled
        · exact Synthesis.card_left_begin (name_mem_classNames hbuilt)
            (fun hmem ↦ hnew (List.contains_iff_mem.mpr hmem)) hroom

end

end RuleMarshal
