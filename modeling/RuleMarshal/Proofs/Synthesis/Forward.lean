import RuleMarshal.Proofs.Synthesis.Outcome
/-!
Slots that do not name the class that they refer to. What a definition does not name was begun in
the same synthesis, so a class that existed before is always named (`existing_class_named`). But a
class that was begun may also be done with: where two paths lead to one type, the class is defined
on the first, and the slot at the end of the second does not name it although it exists, whether the
types form a cycle or not (`finished_class_unnamed`).
-/

set_option autoImplicit false
set_option relaxedAutoImplicit false

namespace RuleMarshal

/-- Where a slot refers to objects of a class that no constraint in the definition names, the class
did not exist before the synthesis, and it is defined in it. -/
theorem existing_class_named {world : World} {defined : Array Event → String → Prop} {s t : State}
    {h : Hint} {emitted : List String} (hworld : world.Orderly) (hvalid : world.config.IsValid)
    (htells : world.TellsClasses s defined)
    (hsettled : s.memo.Settled world.types world.config.tags)
    (hrun : (synthesize h).runIn world s = (.ok emitted, t)) :
    ∃ made : List Defining, emitted = made.map (·.text world) ∧
      ∀ m ∈ made, ∀ slot ∈ m.schema.slots, ∀ g name, slot.reference = some (g, name) →
        name ∉ namedClasses (m.text world) →
          ¬defined s.history name ∧ name ∈ made.map (·.name) := by
  obtain ⟨schema, made, d, -, hadvances, hemitted, -⟩ :=
    exists_advances_of_synthesize htells hworld hvalid hsettled hrun
  refine ⟨made, hemitted, fun m hm slot hslot g name hreference hunnamed ↦ ?_⟩
  have hpending : name ∈ m.pending := by
    by_contra hnot
    refine hunnamed ?_
    rw [(hadvances.safe m hm).names, List.mem_filter]
    exact ⟨ClassSchema.mem_referredClasses.mpr ⟨slot, hslot, g, hreference⟩, decide_eq_true hnot⟩
  have hmade := (hadvances.pending m hm name hpending).resolve_left List.not_mem_nil
  obtain ⟨n, hn, hsame⟩ := List.mem_map.mp hmade
  exact ⟨hsame ▸ (hadvances.fresh n hn).2, hmade⟩

/-! ### Two paths to one type -/

/-- Whether no type refers to itself, by itself or through others. -/
def TypeTable.IsAcyclic (table : TypeTable) (tags : Tags) : Prop :=
  ∀ h, ¬Relation.TransGen (table.Refers tags) h h

theorem TypeTable.IsAcyclic.of_rank {table : TypeTable} {tags : Tags} (rank : Hint → Nat)
    (hlower : ∀ h g, table.Refers tags h g → rank g < rank h) : table.IsAcyclic tags := by
  have hbelow : ∀ h g, Relation.TransGen (table.Refers tags) h g → rank g < rank h :=
    fun h g hpath ↦ by
    induction hpath with
    | single hrefers => exact hlower h _ hrefers
    | tail _ hrefers ih => exact (hlower _ _ hrefers).trans ih
  exact fun h hcycle ↦ (hbelow h h hcycle).false

/-- A type that refers to another one by itself and through a third. -/
def siblingTypes : TypeTable where
  types :=
    [{ name := "Root", kind := .described,
       fields :=
         [{ attr := "left", hint := .struct "Mid" }, { attr := "right", hint := .struct "Leaf" }] },
     { name := "Mid", kind := .described, fields := [{ attr := "leaf", hint := .struct "Leaf" }] },
     { name := "Leaf", kind := .described, fields := [] }]

/-- A slot that refers to objects of a type. -/
def referringSlot (name struct : String) : SlotSchema :=
  { name, attr := name, kind := .classReference, multi := false, optional := false,
    hint := .struct struct, reference := some (.struct struct, struct) }

def leafSchema : ClassSchema := { name := "Leaf", hostType := .struct "Leaf", slots := [] }

def midSchema : ClassSchema :=
  { name := "Mid", hostType := .struct "Mid", slots := [referringSlot "leaf" "Leaf"] }

def rootSchema : ClassSchema :=
  { name := "Root", hostType := .struct "Root",
    slots := [referringSlot "left" "Mid", referringSlot "right" "Leaf"] }

/-- How many types there are below one. -/
def siblingRank (h : Hint) : Nat :=
  if h.same (.struct "Root") then 2 else if h.same (.struct "Mid") then 1 else 0

theorem siblingTypes_isAcyclic : siblingTypes.IsAcyclic ({} : Config).tags := by
  have hlower : ∀ a ∈ siblingTypes.structs,
      ∀ schema ∈ (buildSchema siblingTypes ({} : Config).tags (.atom a)).toOption,
        ∀ g ∈ schema.references, siblingRank g < siblingRank (.atom a) := by
    decide +kernel
  refine .of_rank siblingRank fun h g hrefers ↦ ?_
  obtain ⟨schema, hbuilt, hg⟩ := hrefers
  obtain ⟨a, ha, rfl⟩ := mem_structs_of_buildSchema hbuilt
  exact hlower a ha schema (by rw [hbuilt]; rfl) g hg

theorem buildSchema_root :
    buildSchema siblingTypes ({} : Config).tags (.struct "Root") = .ok rootSchema := rfl

theorem rootSchema_writable : rootSchema.Writable := by
  refine writable_of_buildSchema buildSchema_root fun g hg ↦ ?_
  obtain ⟨slot, hslot, name, hrefers⟩ := (mem_references_iff buildSchema_root).mp hg
  obtain rfl | rfl : slot = referringSlot "left" "Mid" ∨ slot = referringSlot "right" "Leaf" := by
    simpa [rootSchema] using hslot
  · cases hrefers.reference
    exact ⟨midSchema, rfl⟩
  · cases hrefers.reference
    exact ⟨leafSchema, rfl⟩

/-- A class that was defined and is not named. The types form no cycle, and the engine says
truthfully which classes exist. The class of the last type is the first to be defined; when the
class of the root is defined, a slot of it refers to objects of the last type, and the text that is
sent names the class of the other slot alone. -/
theorem finished_class_unnamed :
    let world := World.ofDepth siblingTypes {} classEngine 0
    siblingTypes.IsAcyclic ({} : Config).tags ∧ world.TellsClasses {} IsRecorded ∧
      ∃ (t : State) (before : Array Event),
        (synthesize (.struct "Root")).runIn world {} =
          (.ok [world.definition leafSchema [], world.definition midSchema [],
            world.definition rootSchema ["Leaf"]], t) ∧
        (before.push (.command (.build (.text (world.definition rootSchema ["Leaf"]))))).toList <+:
          t.history.toList ∧
        IsRecorded before "Leaf" ∧
        ∃ slot ∈ rootSchema.slots, slot.RefersTo siblingTypes (.struct "Leaf") "Leaf" ∧
          namedClasses (world.definition rootSchema ["Leaf"]) = ["Mid"] := by
  intro world
  have hlines : ∀ h schema, buildSchema siblingTypes ({} : Config).tags h = .ok schema →
      '\n' ∉ schema.name.toList := name_in_line (by decide +kernel)
  have htells : world.TellsClasses {} IsRecorded := classEngine_tellsClasses {} hlines
  have hanswer : ((synthesize (.struct "Root")).runIn world {}).1.toOption =
      some [world.definition leafSchema [], world.definition midSchema [],
        world.definition rootSchema ["Leaf"]] := by
    decide +kernel
  refine ⟨siblingTypes_isAcyclic, htells, ?_⟩
  cases hrun : (synthesize (.struct "Root")).runIn world {} with
  | mk answer t =>
    rw [hrun] at hanswer
    cases answer with
    | error e => cases hanswer
    | ok emitted =>
      obtain rfl := Option.some.inj hanswer
      obtain ⟨-, made, d, -, hadvances, hemitted, -⟩ := exists_advances_of_synthesize htells
        (World.ofDepth_orderly siblingTypes {} classEngine 0) Config.isValid_default
          Memo.settled_empty hrun
      obtain ⟨leaf, rest, rfl, hleaf, hrest⟩ := List.map_eq_cons_iff.mp hemitted.symm
      obtain ⟨mid, rest, rfl, -, hrest⟩ := List.map_eq_cons_iff.mp hrest
      obtain ⟨root, rest, rfl, hroot, -⟩ := List.map_eq_cons_iff.mp hrest
      have hname : leaf.name = "Leaf" := by
        obtain ⟨type, hbuilt⟩ := (hadvances.safe leaf (by simp)).type
        have htext : definedName (leaf.text world) = leaf.name :=
          definedName_definition (hlines type leaf.schema hbuilt)
        rw [← htext, hleaf]
        exact definedName_definition (by decide)
      have hsent := (hadvances.safe root (by simp)).sent
      unfold Defining.sent at hsent
      rw [hroot] at hsent
      have hdefined : IsRecorded root.before leaf.name :=
        List.rel_of_pairwise_cons hadvances.chronological (by simp)
      refine ⟨t, root.before, rfl, hsent, hname ▸ hdefined, referringSlot "right" "Leaf",
        by simp [rootSchema], refersTo_of_buildSchema buildSchema_root (by simp [rootSchema]) rfl,
        world.namedClasses_definition Config.isValid_default rootSchema_writable⟩

end RuleMarshal
