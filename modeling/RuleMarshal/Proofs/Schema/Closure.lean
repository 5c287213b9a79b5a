import RuleMarshal.Proofs.Schema.History
/-!
Reflection with a new memory. Whether a type has a schema is a matter of its name and its fields:
the name may be written, and each field can have a slot under a name of its own
(`TypeTable.Expressible`). A new memory reflects a type exactly if all types that it reaches are of
this kind. What is then remembered is the types that it reaches, each with the schema that is built
of it alone; otherwise the answer is what one of them fails by. Either way nothing stays in
progress, and the bound on types that are reflected one inside the other is never met
(`reflect_anew`).
-/

set_option autoImplicit false
set_option relaxedAutoImplicit false

namespace RuleMarshal

variable {table : TypeTable} {tags : Tags} {memo : Memo} {h : Hint} {a : HintAtom}
variable {schema : ClassSchema} {owner : String} {f : Field} {slot : SlotSchema} {depth : Nat}
variable {e : Error}

/-! ### Types that can be expressed -/

/-- Whether a field can have a slot: its name may be written and is none of the engine's own, and
there is a kind of slot for its values, or for the values of the row that it declares. -/
structure Field.Expressible (table : TypeTable) (f : Field) : Prop where
  accepted : Text.SafeSymbol.accepts f.engineName = true
  free : f.engineName ≠ "is-a" ∧ f.engineName ≠ "name"
  holds : ∃ multi m optional kind referred, SlotReading f.hint multi m optional ∧
    slotKind? table m = some (kind, referred)

/-- Whether a type can be expressed as a class: its name may be written, and its fields can be read
and have slots under names of their own. -/
structure TypeTable.Expressible (table : TypeTable) (tags : Tags) (h : Hint) : Prop where
  named : ∃ name, table.className h = .ok name ∧ Text.SafeSymbol.accepts name = true
  fields : ∃ fields, table.fields tags h = .ok fields ∧ (∀ f ∈ fields, f.Expressible table) ∧
    (fields.map (·.engineName)).Nodup

/-- Every struct type has a class name, if not always one that may be written. -/
theorem className_of_isStruct (hstruct : table.isStruct h = true) :
    ∃ name, table.className h = .ok name := by
  obtain ⟨name, hname⟩ : ∃ name, h.name? = some name := by
    unfold TypeTable.isStruct at hstruct
    split at hstruct
    · exact ⟨_, rfl⟩
    · exact ⟨_, rfl⟩
    · cases hstruct
  unfold TypeTable.className
  rw [hname]
  dsimp only
  split
  · exact ⟨_, rfl⟩
  · rename_i hnone
    simp at hnone

theorem Field.exists_slotHolding {m : Hint} {kind : SlotKind} {referred : Option Hint}
    {optional multi : Bool} (hkind : slotKind? table m = some (kind, referred)) :
    ∃ slot, f.slotHolding table owner m optional multi = .ok slot := by
  unfold slotHolding
  rw [hkind]
  cases referred with
  | none => exact ⟨_, rfl⟩
  | some g =>
    obtain ⟨name, hname⟩ := className_of_isStruct (slotKind?_referred hkind).2
    simp [hname]

/-- There is no kind of slot for sequences. -/
theorem items_of_slotKind? {m : Hint} {kind : SlotKind} {referred : Option Hint}
    (hkind : slotKind? table m = some (kind, referred)) : m.items = .none := by
  cases m <;> first | rfl | (rename_i a; cases a <;> first | rfl | cases hkind)

theorem Field.free_of_reflectField (hslot : reflectField table owner f = .ok slot) :
    f.engineName ≠ "is-a" ∧ f.engineName ≠ "name" := by
  unfold reflectField at hslot
  dsimp only at hslot
  split at hslot
  · cases hslot
  · rename_i hfree
    simp only [Bool.or_eq_true, decide_eq_true_eq, not_or] at hfree
    exact ⟨hfree.1.2, hfree.2⟩

theorem Field.reflectField_eq_slotHolding (owner : String) (hexpressible : f.Expressible table) :
    ∃ m optional multi, reflectField table owner f = f.slotHolding table owner m optional multi ∧
      (slotKind? table m).isSome = true := by
  obtain ⟨haccepted, ⟨hisA, hname⟩, multi, m, optional, kind, referred, hreading,
      hkind⟩ := hexpressible
  refine ⟨m, optional, multi, ?_, by rw [hkind]; rfl⟩
  have hitems := items_of_slotKind? hkind
  unfold reflectField
  dsimp only
  rw [if_neg (by simp [haccepted, hisA, hname])]
  cases hreading with
  | single hunwrap hnone =>
    rw [hunwrap]
    dsimp only
    rw [hitems]
    rfl
  | row hrow hsome hunwrap =>
    rw [hrow]
    dsimp only
    rw [hsome]
    dsimp only
    rw [hunwrap]
    dsimp only
    rw [hitems]
    rfl

/-- A field is reflected exactly if it can have a slot. -/
theorem Field.exists_reflectField_iff :
    (∃ slot, reflectField table owner f = .ok slot) ↔ f.Expressible table := by
  constructor
  · rintro ⟨slot, hslot⟩
    obtain ⟨haccepted, m, optional, multi, hreading, hholding⟩ :=
      exists_slotHolding_of_reflectField hslot
    obtain ⟨kind, referred, -, hkind, -⟩ := eq_of_slotHolding hholding
    exact ⟨haccepted, free_of_reflectField hslot, multi, m, optional, kind,
      referred, hreading, hkind⟩
  · intro hexpressible
    obtain ⟨m, optional, multi, heq, hkind⟩ := reflectField_eq_slotHolding owner hexpressible
    obtain ⟨⟨kind, referred⟩, hkind⟩ := Option.isSome_iff_exists.mp hkind
    rw [heq]
    exact exists_slotHolding hkind

/-- Fields have slots one beside the other exactly if each can have one, under a name that no other
has. -/
theorem exists_reflectFields_iff {fields : List Field} {slots : List SlotSchema} :
    (∃ all, reflectFields table owner fields slots = .ok all) ↔
      (∀ f ∈ fields, f.Expressible table) ∧ (fields.map (·.engineName)).Nodup ∧
        ∀ f ∈ fields, f.engineName ∉ slots.map (·.name) := by
  induction fields generalizing slots with
  | nil => simp [reflectFields]
  | cons f rest ih =>
    have hname : ∀ {slot}, reflectField table owner f = .ok slot → slot.name = f.engineName :=
      fun hslot ↦ (slotOf_of_reflectField hslot).name
    simp only [List.forall_mem_cons, List.map_cons, List.nodup_cons, List.mem_map,
      not_exists, not_and]
    constructor
    · rintro ⟨all, hall⟩
      obtain ⟨slot, hslot, hrest⟩ := Except.ok_of_bind hall
      dsimp only at hrest
      split at hrest
      · cases hrest
      · rename_i hfree
        obtain ⟨hexpressible, hnodup, hnew⟩ := ih.mp ⟨all, hrest⟩
        simp only [List.map_append, List.mem_append, List.map_cons, List.map_nil,
          List.mem_singleton, hname hslot, not_or] at hnew
        simp only [hname hslot, List.any_eq_true, decide_eq_true_eq, not_exists, not_and] at hfree
        refine ⟨⟨Field.exists_reflectField_iff.mp ⟨slot, hslot⟩, hexpressible⟩,
          ⟨fun g hg ↦ (hnew g hg).2, hnodup⟩, hfree, fun g hg other hother heq ↦ ?_⟩
        exact (hnew g hg).1 (List.mem_map.mpr ⟨other, hother, heq⟩)
    · rintro ⟨⟨hfirst, hexpressible⟩, ⟨hdistinct, hnodup⟩, hfree, hnew⟩
      obtain ⟨slot, hslot⟩ : ∃ slot, reflectField table owner f = .ok slot :=
        Field.exists_reflectField_iff.mpr hfirst
      have hlater : ∀ g ∈ rest, g.engineName ∉ (slots ++ [slot]).map (·.name) := by
        intro g hg hmem
        rw [List.map_append, List.mem_append] at hmem
        obtain hbefore | hself := hmem
        · obtain ⟨other, hother, heq⟩ := List.mem_map.mp hbefore
          exact hnew g hg other hother heq
        · exact hdistinct g hg ((List.mem_singleton.mp hself).trans (hname hslot))
      obtain ⟨all, hall⟩ := ih.mpr ⟨hexpressible, hnodup, hlater⟩
      refine ⟨all, ?_⟩
      unfold reflectFields
      rw [hslot]
      change (if slots.any (·.name = slot.name) then throw _
        else reflectFields table owner rest (slots ++ [slot])) = _
      rw [if_neg (by simpa [hname hslot] using hfree), hall]

/-- A type has a schema exactly if it can be expressed. -/
theorem TypeTable.buildable_iff : table.Buildable tags h ↔ table.Expressible tags h := by
  constructor
  · rintro ⟨schema, hbuilt⟩
    obtain ⟨hname, fields, hfields, hslots⟩ := exists_of_buildSchema hbuilt
    obtain ⟨hexpressible, hnodup, -⟩ := exists_reflectFields_iff.mp ⟨_, hslots⟩
    exact ⟨⟨schema.name, hname, accepts_of_buildSchema hbuilt⟩, fields, hfields,
      hexpressible, hnodup⟩
  · rintro ⟨⟨name, hname, haccepted⟩, fields, hfields, hexpressible, hnodup⟩
    obtain ⟨slots, hslots⟩ : ∃ slots, reflectFields table h.shortName fields [] = .ok slots :=
      exists_reflectFields_iff.mpr ⟨hexpressible, hnodup, fun _ _ ↦ List.not_mem_nil⟩
    refine ⟨{ name, hostType := h, slots }, ?_⟩
    unfold buildSchema
    rw [hname]
    change (if !Text.SafeSymbol.accepts name then throw _ else
      table.fields tags h >>= fun fields ↦ reflectFields table h.shortName fields [] >>= _) = _
    rw [haccepted, hfields]
    change (reflectFields table h.shortName fields [] >>= _) = _
    rw [hslots]
    rfl

/-! ### What a reflection blames -/

/-- How a reflection of some types comes back: what is in progress is as it was, and where it
failed, it did so as one of the types fails that they reach. -/
structure Memo.Returns (table : TypeTable) (tags : Tags) {α : Type} (memo : Memo)
    (roots : List Hint) (ended : Except Error α × Memo) : Prop where
  inProgress : ended.2.inProgress = memo.inProgress
  fails : ∀ e, ended.1 = .error e →
    ∃ root ∈ roots, ∃ g, table.Reaches tags root g ∧ buildSchema table tags g = .error e

namespace Memo

theorem returns_reflectNested (hnested : memo.isInProgress (.atom a) = false →
      memo.Returns table tags [.atom a] ((reflectWithin table tags depth (.atom a)).run memo)) :
    memo.Returns table tags [.atom a] ((reflectNested table tags depth (.atom a)).run memo) := by
  rw [run_reflectNested]
  split
  · rename_i hneeded
    rw [Bool.and_eq_true, Bool.not_eq_true'] at hneeded
    obtain ⟨hinProgress, hfails⟩ := hnested hneeded.2
    refine ⟨hinProgress, fun e he ↦ hfails e ?_⟩
    cases hrun : ((reflectWithin table tags depth (.atom a)).run memo).1 with
    | error raised => simpa [hrun, Except.map] using he
    | ok schema => simp [hrun, Except.map] at he
  · exact ⟨rfl, fun _ he ↦ by cases he⟩

/-- How the types come back that a schema refers to. -/
theorem returns_references {items : List Hint} (hatoms : ∀ g ∈ items, ∃ a, g = .atom a)
    (hnested : ∀ (a : HintAtom) (m : Memo), (m.unbegun table).card < depth →
      m.isInProgress (.atom a) = false →
      m.Returns table tags [.atom a] ((reflectWithin table tags depth (.atom a)).run m))
    (hroom : (memo.unbegun table).card < depth) :
    memo.Returns table tags items
      (ExceptT.run (items.forM (reflectNested table tags depth)) memo) := by
  induction items generalizing memo with
  | nil => exact ⟨rfl, nofun⟩
  | cons g rest ih =>
    obtain ⟨a, rfl⟩ := hatoms g List.mem_cons_self
    have hfirst := returns_reflectNested (hnested a memo hroom)
    rw [Reflecting.run_forM_cons]
    cases hrun : (reflectNested table tags depth (.atom a)).run memo with
    | mk answer between =>
      rw [hrun] at hfirst
      cases answer with
      | error raised =>
        refine ⟨hfirst.inProgress, fun e he ↦ ?_⟩
        obtain ⟨root, hroot, hblamed⟩ := hfirst.fails e he
        exact ⟨root, List.mem_singleton.mp hroot ▸ List.mem_cons_self, hblamed⟩
      | ok found =>
        have hsame : between.inProgress = memo.inProgress := hfirst.inProgress
        have hrest := ih (fun g hg ↦ hatoms g (List.mem_cons_of_mem _ hg))
          (by rwa [unbegun_congr fun b ↦ iff_of_eq (congrArg (.atom b ∈ ·) hsame)])
        refine ⟨hrest.inProgress.trans hsame, fun e he ↦ ?_⟩
        obtain ⟨root, hroot, hblamed⟩ := hrest.fails e he
        exact ⟨root, List.mem_cons_of_mem _ hroot, hblamed⟩

theorem finish_start_inProgress {after : Memo} (hnew : memo.isInProgress (.atom a) = false)
    (hsame : after.inProgress = (memo.start (.atom a)).inProgress) :
    (after.finish (.atom a)).inProgress = memo.inProgress := by
  have hself : (Hint.atom a).same (.atom a) = true := Hint.same_atom.mpr rfl
  have hothers : memo.inProgress.filter (fun g ↦ !g.same (.atom a)) = memo.inProgress := by
    refine List.filter_eq_self.mpr fun g hg ↦ ?_
    rw [Bool.not_eq_true', Bool.eq_false_iff]
    intro hsame
    obtain rfl := Hint.same_atom.mp hsame
    exact Bool.eq_false_iff.mp hnew (isInProgress_iff.mpr hg)
  simp [finish, hsame, start, hself, hothers]

/-- How the reflection of a type comes back that is not in progress, as long as it may go as deep as
there are types not in progress. -/
theorem returns_reflectWithin (hroom : (memo.unbegun table).card < depth)
    (hnew : memo.isInProgress (.atom a) = false) :
    memo.Returns table tags [.atom a] ((reflectWithin table tags depth (.atom a)).run memo) := by
  induction depth generalizing a memo with
  | zero => exact absurd hroom (Nat.not_lt_zero _)
  | succ depth ih =>
    rw [run_reflectWithin_succ]
    cases memo.find? (.atom a) with
    | some schema => exact ⟨rfl, fun _ he ↦ by cases he⟩
    | none =>
      dsimp only
      rw [hnew, if_neg Bool.false_ne_true, run_reflectBegun]
      cases hbuilt : buildSchema table tags (.atom a) with
      | error raised =>
        refine ⟨finish_start_inProgress hnew rfl, fun e he ↦ ?_⟩
        cases he
        exact ⟨.atom a, List.mem_cons_self, .atom a, .refl, hbuilt⟩
      | ok schema =>
        obtain ⟨b, hstruct, hatom⟩ := mem_structs_of_buildSchema hbuilt
        obtain rfl := Hint.atom.inj hatom
        have hless :
            (((memo.start (.atom a)).remember (.atom a) schema).unbegun table).card < depth :=
          card_unbegun_start hstruct (isInProgress_iff.not.mp (Bool.eq_false_iff.mp hnew)) hroom
        obtain ⟨hinProgress, hfails⟩ := returns_references (exists_atom_of_mem_references hbuilt)
          (fun b m hroom hnew ↦ ih hroom hnew) hless
        dsimp only
        cases hrun : ExceptT.run (schema.references.forM (reflectNested table tags depth))
            ((memo.start (.atom a)).remember (.atom a) schema) with
        | mk answer after =>
          rw [hrun] at hinProgress hfails
          cases answer with
          | ok found => exact ⟨finish_start_inProgress hnew hinProgress, fun _ he ↦ by cases he⟩
          | error raised =>
            refine ⟨finish_start_inProgress hnew hinProgress, fun e he ↦ ?_⟩
            cases he
            obtain ⟨root, hroot, g, hreaches, hblamed⟩ := hfails raised rfl
            exact ⟨.atom a, List.mem_cons_self, g, .head ⟨schema, hbuilt, hroot⟩ hreaches, hblamed⟩

end Memo

/-! ### Reflection with a new memory -/

/-- What a settled memory holds for a type is what is built of it alone. -/
theorem Memo.Settled.buildSchema_of_find? (hsettled : memo.Settled table tags)
    (hfound : memo.find? h = some schema) :
    (∃ b, h = .atom b) ∧ buildSchema table tags h = .ok schema := by
  have hatom : ∃ b, h = .atom b := by
    obtain ⟨p, hp, -⟩ := Option.map_eq_some_iff.mp hfound
    obtain ⟨b, hb⟩ := hsettled.keys p (List.mem_of_find?_eq_some hp)
    have hsame := List.find?_some hp
    rw [hb] at hsame
    exact ⟨b, Hint.atom_same.mp hsame⟩
  obtain ⟨b, rfl⟩ := hatom
  have hschema : memo.schema? table tags (.atom b) = some schema := by
    rw [schema?, hfound, Option.some_or]
  exact ⟨⟨b, rfl⟩, hsettled.agrees.buildSchema_eq hschema⟩

/-- What is remembered after a success is what the type reaches, with the schemas that are built of
it. -/
theorem find?_reflect_anew (hok : ((reflect table tags (.atom a)).run {}).1 = .ok schema) (g : Hint)
    (found : ClassSchema) : ((reflect table tags (.atom a)).run {}).2.find? g = some found ↔
      table.Reaches tags (.atom a) g ∧ buildSchema table tags g = .ok found := by
  have hempty : ({} : Memo).Settled table tags := Memo.settled_empty
  have hsettled := hempty.after_reflect (.atom a)
  have hcovers := (hempty.leaves (.atom a)).covers schema hok
  constructor
  · intro hfound
    obtain ⟨⟨b, rfl⟩, hbuilt⟩ := hsettled.buildSchema_of_find? hfound
    refine ⟨?_, hbuilt⟩
    obtain hknown | ⟨root, hroot, hreaches⟩ :=
      hcovers.reached b (Option.isSome_iff_exists.mpr ⟨found, hfound⟩)
    · exact absurd hknown Memo.not_knows_empty
    · exact List.mem_singleton.mp hroot ▸ hreaches
  · rintro ⟨hreaches, hbuilt⟩
    have hroot := (hcovers.root a List.mem_cons_self).resolve_right (hempty.idle a)
    obtain ⟨b, rfl, hknows⟩ :=
      (Memo.complete_empty.after_reflect hempty hok).knows_of_reaches hroot hreaches
    obtain ⟨known, hknown⟩ := Option.isSome_iff_exists.mp hknows
    obtain ⟨-, hsame⟩ := hsettled.buildSchema_of_find? hknown
    rw [hknown, Except.ok.inj (hsame.symm.trans hbuilt)]

/-- A reflection with a new memory, of any type in any table: the bound on types that are reflected
one inside the other is never what it ends by; it succeeds exactly if every type that is reached can
be expressed; it then finds the schema that is built of the type alone and remembers the types that
are reached, no more and no less, each with its own; where it fails, it fails as one of these types
does; and nothing stays in progress. -/
theorem reflect_anew (table : TypeTable) (tags : Tags) (a : HintAtom) :
    (∀ more, (reflectWithin table tags (table.types.length + 11 + more) (.atom a)).run {} =
        (reflect table tags (.atom a)).run {}) ∧
      ((∃ schema, ((reflect table tags (.atom a)).run {}).1 = .ok schema) ↔
        ∀ g, table.Reaches tags (.atom a) g → table.Expressible tags g) ∧
      (∀ schema, ((reflect table tags (.atom a)).run {}).1 = .ok schema →
        buildSchema table tags (.atom a) = .ok schema ∧
        ∀ g found, ((reflect table tags (.atom a)).run {}).2.find? g = some found ↔
          table.Reaches tags (.atom a) g ∧ buildSchema table tags g = .ok found) ∧
      (∀ e, ((reflect table tags (.atom a)).run {}).1 = .error e →
        ∃ g, table.Reaches tags (.atom a) g ∧ buildSchema table tags g = .error e) ∧
      ((reflect table tags (.atom a)).run {}).2.inProgress = [] := by
  have hroom : (({} : Memo).unbegun table).card < table.types.length + 11 :=
    lt_of_le_of_lt Memo.card_unbegun_le (by omega)
  have hempty : ({} : Memo).Settled table tags := Memo.settled_empty
  have hreturns : ({} : Memo).Returns table tags [.atom a]
      ((reflect table tags (.atom a)).run {}) :=
    Memo.returns_reflectWithin hroom rfl
  refine ⟨fun more ↦ reflectWithin_enough hroom (fun b _ ↦ hempty.idle b) more,
    ⟨?_, ?_⟩, ?_, ?_, ?_⟩
  · rintro ⟨schema, hok⟩ g hreaches
    exact TypeTable.buildable_iff.mp (Memo.complete_empty.buildable_of_reaches hempty hok hreaches)
  · intro hall
    have hbuildable := fun g hreaches ↦ TypeTable.buildable_iff.mpr (hall g hreaches)
    obtain ⟨schema, hbuilt⟩ := hbuildable (.atom a) .refl
    exact ⟨schema, (reflect_of_buildable hempty hbuildable).trans hbuilt⟩
  · exact fun schema hok ↦ ⟨hempty.buildSchema_of_reflect hok, find?_reflect_anew hok⟩
  · intro e he
    obtain ⟨root, hroot, hblamed⟩ := hreturns.fails e he
    exact List.mem_singleton.mp hroot ▸ hblamed
  · exact hreturns.inProgress

end RuleMarshal
