import RuleMarshal.Proofs.Insertion.Verification
import RuleMarshal.Proofs.Synthesis.Forward
/-!
Objects in the place of a type above their own. A slot may name the class that the instances in it
have to be of, or of a class under it. An object that stands in the slot is inserted as one of its
own type, so its instance is of the class that the slot names where that type is the declared one
(`Represents.allows`). It may also be a type that has the declared one among its bases. But all
classes that an insertion defines are put under the one class that the environment was set up with
(`insert_defines_schemas`), and not under those of the bases of their types: then the instance is of
a class that the slot does not allow (`subtype_not_allowed`).
-/

set_option autoImplicit false
set_option relaxedAutoImplicit false

namespace RuleMarshal

open ObjectGraph

/-! ### Classes that are put under others -/

/-- The class in the second line of a definition, under which the new one is put. -/
def definedSuperclass (text : String) : String :=
  String.ofList (((text.toList.dropWhile (· ≠ '\n')).drop 9).takeWhile (· ≠ ')'))

theorem definedSuperclass_definition {world : World} {schema : ClassSchema} {pending : List String}
    (hline : '\n' ∉ schema.name.toList) (hword : ')' ∉ world.config.superclass.content.toList) :
    definedSuperclass (world.definition schema pending) = world.config.superclass.content := by
  obtain ⟨rest, hrest⟩ : ∃ rest, (world.definition schema pending).toList =
      ("(defclass ".toList ++ schema.name.toList) ++
        '\n' :: ("  (is-a ".toList ++ (world.config.superclass.content.toList ++ ')' :: rest)) := by
    unfold World.definition ClassSchema.render
    rw [List.cons_append, String.intercalate_cons_of_ne_nil (by simp), List.cons_append,
      String.intercalate_cons_of_ne_nil (by simp)]
    simp only [String.toList_append, List.append_assoc]
    exact ⟨_, rfl⟩
  have hfirst : ∀ c ∈ "(defclass ".toList ++ schema.name.toList, decide (c ≠ '\n') = true :=
    fun c hc ↦ (List.mem_append.mp hc).elim
      (List.all_eq_true.mp
        (by decide : ("(defclass ".toList.all fun c ↦ decide (c ≠ '\n')) = true) c)
      fun hname ↦ decide_eq_true fun heq ↦ hline (heq ▸ hname)
  have hkept : ∀ c ∈ world.config.superclass.content.toList, decide (c ≠ ')') = true := fun c hc ↦
    decide_eq_true fun heq ↦ hword (heq ▸ hc)
  have hdropped : ('\n' ::
      ("  (is-a ".toList ++ (world.config.superclass.content.toList ++ ')' :: rest))).drop 9 =
      world.config.superclass.content.toList ++ ')' :: rest := by simp
  unfold definedSuperclass
  rw [hrest, List.dropWhile_append_of_pos hfirst, List.dropWhile_cons_of_neg (by decide), hdropped,
    List.takeWhile_append_of_pos hkept]
  simp

/-- A class was defined under another one. -/
def DefinedUnder (s : State) (name above : String) : Prop :=
  ∃ text, .text text ∈ s.constructs ∧ definedName text = name ∧ definedSuperclass text = above

/-- A class is another one, or was defined under one that descends from it. -/
def Descends (s : State) : String → String → Prop := Relation.ReflTransGen (DefinedUnder s)

/-- Where all classes were defined under one, a class descends from no other but itself. -/
theorem Descends.eq_or_eq {s : State} {name above top : String}
    (hunder : ∀ text, .text text ∈ s.constructs → definedSuperclass text = top)
    (hdescends : Descends s name above) :
    above = name ∨ above = top := by
  induction hdescends with
  | refl => exact .inl rfl
  | tail _ hdefined _ =>
    obtain ⟨text, htext, -, rfl⟩ := hdefined
    exact .inr (hunder text htext)

/-- All that an insertion defines are classes of schemas, under the class that the environment was
set up with. -/
theorem insert_defines_schemas (types : TypeTable) (config : Config)
    (engine : Array Event → Command → Reply) (depth : Nat) (s : State) (v name : Value) :
    let world := World.ofDepth types config engine depth
    Sends world (fun _ c ↦ ∀ construct, c = .build construct →
      ∃ (schema : ClassSchema) (pending : List String),
      construct = .text
        (schema.render config.superclass.content config.patternMatch.content pending)) s
      ((insert v name).runIn world s).2 := by
  intro world
  have hconfig : world.config = config :=
    congrArg Setup.config (World.ofDepth_setup types config engine depth)
  refine (sends_insert (World.ofDepth_orderly types config engine depth) v name s).mono ?_
  intro u c hlicensed construct hbuild
  obtain ⟨-, schema, pending, rfl⟩ := hlicensed.definition construct hbuild
  exact ⟨schema, pending, congrArg Native.text (by rw [World.definition, hconfig])⟩

/-! ### Instances in slots -/

/-- Whether every instance that stands in a slot that refers to objects is of the class that the
slot refers to, or of one that descends from it. -/
def AllowsReferences (g : ObjectGraph) (t : State) (made : List Made) : Prop :=
  ∀ m ∈ made, ∀ schema, g.schemaOf m.node.value = some schema →
    ∀ (position : Nat) (slot : SlotSchema) (expected : Hint) (className : String),
      schema.slots[position]? = some slot → slot.reference = some (expected, className) →
      ∀ (term : Term) (values : List EngineValue) (name : String),
        m.slots[position]? = some (slot.name, term) →
        slot.Carries values term.value → .instanceName name ∈ values →
          ∃ k ∈ made, k.name = name ∧ Descends t k.className className

/-- Whether all that stands in slots that refer to objects is of the types that the slots refer to,
and not of types that have these among their bases. -/
def ObjectGraph.IsExact (g : ObjectGraph) (root : ObjectNode) : Prop :=
  ∀ owner n schema position slot expected className, g.Reaches root owner →
    g.schemaOf owner.value = some schema → schema.slots[position]? = some slot →
    slot.reference = some (expected, className) → n ∈ g.slotNodes owner position slot →
      g.IsPresent n.value →
    (g.heap.opened n.value).structType? g.types = some expected

section

variable {g : ObjectGraph} {root : ObjectNode} {made : List Made} {m : Made} {world : World}
variable {s : State}

theorem SlotSchema.Carries.unique {slot : SlotSchema} {values others : List EngineValue}
    {v : EngineValue} (hvalues : slot.Carries values v) (hothers : slot.Carries others v) :
    values = others := by
  unfold Carries at hvalues hothers
  split at hvalues
  · rename_i hmulti
    rw [if_pos hmulti] at hothers
    exact EngineValue.multifield.inj (hvalues.symm.trans hothers)
  · rename_i hmulti
    rw [if_neg hmulti] at hothers
    exact hvalues.trans hothers.symm

/-- The instance of a name in a slot is that of an object that stands there, and of the class of
that object's own type. -/
theorem Represents.exists_made (hrepresents : Represents g root made) (hm : m ∈ made)
    {schema : ClassSchema} (hschema : g.schemaOf m.node.value = some schema) {position : Nat}
    {slot : SlotSchema} (hslot : schema.slots[position]? = some slot)
    (href : slot.reference.isSome = true) {term : Term} {values : List EngineValue} {name : String}
    (hterm : m.slots[position]? = some (slot.name, term))
    (hcarries : slot.Carries values term.value) (hname : .instanceName name ∈ values) :
    ∃ k ∈ made, k.name = name ∧ k.node ∈ g.slotNodes m.node position slot ∧
      g.IsPresent k.node.value ∧
      ∃ own, g.schemaOf k.node.value = some own ∧ k.className = own.name := by
  obtain ⟨found, hfound, -, -, hslots⟩ := hrepresents.slots m hm
  obtain rfl : found = schema := Option.some.inj (hfound.symm.trans hschema)
  obtain ⟨others, other, hother, hothers, hdenotes⟩ := hslots position slot hslot href
  obtain rfl : term = other := (Prod.mk.inj (Option.some.inj (hterm.symm.trans hother))).2
  obtain rfl := hcarries.unique hothers
  obtain ⟨i, hi⟩ := List.mem_iff_get.mp hname
  have hlength : i.val < (g.slotNodes m.node position slot).length :=
    i.isLt.trans_eq hdenotes.length_eq.symm
  have hdenoted := hdenotes.get hlength i.isLt
  rw [show values.get ⟨i.val, i.isLt⟩ = .instanceName name from hi] at hdenoted
  have hn : (g.slotNodes m.node position slot).get ⟨i.val, hlength⟩ ∈
      g.slotNodes m.node position slot :=
    List.get_mem _ _
  generalize (g.slotNodes m.node position slot).get ⟨i.val, hlength⟩ = n at hdenoted hn
  obtain ⟨-, habsent⟩ | ⟨hpresent, given, hnamed, hgiven⟩ := hdenoted
  · cases habsent
  cases hgiven
  obtain ⟨k, hk, hpair⟩ := List.mem_map.mp hnamed
  obtain ⟨hid, hkname⟩ := Prod.mk.inj hpair
  have hreaches : g.Reaches root n := by
    have howner := (hrepresents.objects _).mp (List.mem_map_of_mem hm)
    refine howner.tail ⟨?_, hpresent⟩
    rw [nodes_of_schemaOf hschema]
    exact mem_nodesFrom_of_mem_slotNodes (Nat.zero_le _) (by simpa using hslot) hn
  obtain ⟨l, hl, rfl⟩ := List.mem_map.mp ((hrepresents.objects n).mpr hreaches)
  obtain rfl := List.inj_on_of_nodup_map hrepresents.identities hk hl hid
  obtain ⟨own, hown, hclass, -⟩ := hrepresents.slots k hk
  exact ⟨k, hk, hkname, hn, hpresent, own, hown, hclass⟩

/-- A schema that was reflected is that of the type of the value. -/
theorem exists_buildSchema_of_schemaOf
    (hmemo : ({} : Memo).Agrees world.types world.config.tags s.memo) {v : Value}
    {schema : ClassSchema} (hschema : (s.objectGraph world).schemaOf v = some schema) :
    ∃ type, (s.heap.opened v).structType? world.types = some type ∧
      buildSchema world.types world.config.tags type = .ok schema := by
  obtain ⟨type, htype, hfound⟩ := Option.bind_eq_some_iff.mp hschema
  obtain ⟨a, rfl⟩ := atom_of_structType? htype
  exact ⟨_, htype, hmemo.buildSchema_eq hfound⟩

/-- Where all that stands in slots is of the types that the slots refer to, the instances are of the
classes that are allowed there, whatever was defined. -/
theorem Represents.allows (hrepresents : Represents (s.objectGraph world) root made)
    (hmemo : ({} : Memo).Agrees world.types world.config.tags s.memo)
    (hexact : (s.objectGraph world).IsExact root) (t : State) :
    AllowsReferences (s.objectGraph world) t made := by
  intro m hm schema hschema position slot expected className hslot href term values name
    hterm hcarries hname
  have howner := (hrepresents.objects _).mp (List.mem_map_of_mem hm)
  obtain ⟨k, hk, hkname, hn, hpresent, own, hown, hclass⟩ :=
    hrepresents.exists_made hm hschema hslot (by simp [href]) hterm hcarries hname
  refine ⟨k, hk, hkname, ?_⟩
  obtain ⟨type, htype, hbuilt⟩ := exists_buildSchema_of_schemaOf hmemo hown
  obtain rfl : type = expected := Option.some.inj
    (htype.symm.trans (hexact m.node k.node schema position slot _ _ howner hschema hslot
      href hn hpresent))
  obtain ⟨_, -, hreferring⟩ := exists_buildSchema_of_schemaOf hmemo hschema
  have hrefers := refersTo_of_buildSchema hreferring (List.mem_of_getElem? hslot) href
  obtain rfl : own.name = className :=
    Except.ok.inj ((className_of_buildSchema hbuilt).symm.trans hrefers.className)
  exact hclass ▸ .refl

end

/-! ### An object of a subtype -/

/-- A struct type, one that has it as its base, and one whose objects refer to it. -/
def kinTypes : TypeTable where
  types := [{ name := "Base", kind := .described, fields := [] },
    { name := "Sub", kind := .described, base := some "Base", fields := [] },
    { name := "Root", kind := .described, fields := [{ attr := "ref", hint := .struct "Base" }] }]

/-- An object that refers to one of the subtype. -/
def kinState : State where
  heap.cells := #[.object [("ref", .object "Sub" 1)], .object []]

/-- Whether an event asks the engine for a fresh name. -/
def Event.asksName : Event → Bool
  | .command (.evaluate .freshName) => true
  | _ => false

/-- An engine that has the classes that were defined and makes every instance. -/
def kinEngine (history : Array Event) : Command → Reply
  | .evaluate .freshName =>
    { outcome := .ok (.symbol (if history.toList.any Event.asksName then "gen2" else "gen1")) }
  | .evaluate (.makeInstance (some name) _ _) => { outcome := .ok (.instanceName name) }
  | .evaluate (.classQuery .isDefined name) =>
    { outcome := .ok (.bool (decide (IsRecorded history name))) }
  | .evaluate (.classSlots "Root") => { outcome := .ok (.list [.symbol "ref"]) }
  | .evaluate (.classFacet ..) => { outcome := .ok (.list [.symbol "SGL"]) }
  | .evaluate (.classSlots _) => { outcome := .ok (.list []) }
  | _ => {}

/-- The schema of objects that refer to one another. -/
def kinSchema : ClassSchema := ⟨"Root", .struct "Root", [referringSlot "ref" "Base"]⟩

theorem kinSchema_writable : kinSchema.Writable := by
  have hbuilt : buildSchema kinTypes ({} : Config).tags (.struct "Root") = .ok kinSchema := rfl
  refine writable_of_buildSchema hbuilt fun g hg ↦ ?_
  obtain ⟨slot, hslot, name, hrefers⟩ := (mem_references_iff hbuilt).mp hg
  obtain rfl := List.mem_singleton.mp hslot
  cases hrefers.reference
  exact ⟨⟨"Base", .struct "Base", []⟩, rfl⟩

/-- The schemas of the three types, in the order in which their classes are defined. -/
def kinSchemas : List ClassSchema :=
  [⟨"Base", .struct "Base", []⟩, kinSchema, ⟨"Sub", .struct "Sub", []⟩]

/-- The text that is handed over. -/
def Native.written? : Native → Option String
  | .text s => some s
  | _ => none

/-- The name of the instance that a value is. -/
def EngineValue.named? : EngineValue → Option String
  | .instanceName name => some name
  | _ => none

theorem EngineValue.eq_of_named? {v : EngineValue} {name : String} (hnamed : v.named? = some name) :
    v = .instanceName name := by
  cases v <;> cases hnamed
  rfl

/-- What an order says, with the names of instances in the places of the terms. -/
def Creation.shape (order : Creation) : Option String × String × List (String × Option String) :=
  (order.name, order.className, order.slots.map fun p ↦ (p.1, p.2.value.named?))

def kinWorld : World := .ofDepth kinTypes {} kinEngine 0

/-- The insertion of the object. -/
def kinRun : Except Error InstanceHandle × State :=
  (insert (.object "Root" 0) .none).runIn kinWorld kinState

theorem kinRun_outcome :
    kinRun.1.toOption.isSome = true ∧
      kinRun.2.constructs.map Native.written? =
        kinSchemas.map (fun schema ↦ some (kinWorld.definition schema [])) ∧
      kinRun.2.creations.map Creation.shape =
        [(some "gen2", "Sub", []), (some "gen1", "Root", [("ref", some "gen2")])] := by
  have hname : kinState.heap.content .none = .none := by simp [Heap.content, Value.settledWithin]
  unfold kinRun
  rw [runIn_insert _ _ rfl rfl, hname]
  decide +kernel

/-- All classes are put under the one that is set up. -/
theorem kinRun_descends {name above : String} (hdescends : Descends kinRun.2 name above) :
    above = name ∨ above = "USER" := by
  refine hdescends.eq_or_eq fun text htext ↦ ?_
  have hwritten := List.mem_map_of_mem (f := Native.written?) htext
  rw [kinRun_outcome.2.1] at hwritten
  obtain ⟨schema, hschema, heq⟩ := List.mem_map.mp hwritten
  obtain rfl := Option.some.inj heq
  have hlines : ∀ schema ∈ kinSchemas, '\n' ∉ schema.name.toList := by decide
  exact definedSuperclass_definition (hlines schema hschema) (by decide)

/-- An object of a subtype in the place of its base. The insertion succeeds and defines all classes.
The text that is sent for the root has one slot, and names the class of the base for it; the
instance in that slot is of the class of the subtype, which does not descend from that of the
base. -/
theorem subtype_not_allowed :
    kinRun.1.toOption.isSome = true ∧
    some (kinWorld.definition kinSchema []) ∈ kinRun.2.constructs.map Native.written? ∧
    kinSchema.slots = [referringSlot "ref" "Base"] ∧
    namedClasses (kinWorld.definition kinSchema []) = ["Base"] ∧
    ∃ made : List Made, kinRun.2.creations = made.map Made.creation ∧
      made.map (fun m ↦ (m.node.value.typeName, m.name, m.className)) =
        [("Sub", "gen2", "Sub"), ("Root", "gen1", "Root")] ∧
      ¬AllowsReferences (kinState.objectGraph kinWorld) kinRun.2 made := by
  obtain ⟨hsucceeds, hconstructs, hshapes⟩ := kinRun_outcome
  refine ⟨hsucceeds, ?_, rfl,
    kinWorld.namedClasses_definition Config.isValid_default kinSchema_writable, ?_⟩
  · rw [hconstructs]
    exact List.mem_map.mpr ⟨kinSchema, List.mem_cons_of_mem _ List.mem_cons_self, rfl⟩
  · obtain ⟨⟨_, _, subSlots⟩, rest, hcreations, hsub, hrest⟩ := List.map_eq_cons_iff.mp hshapes
    obtain ⟨⟨_, _, rootSlots⟩, rest, rfl, hroot, hnone⟩ := List.map_eq_cons_iff.mp hrest
    obtain rfl := List.map_eq_nil_iff.mp hnone
    obtain ⟨rfl, hsub⟩ := Prod.mk.inj hsub
    obtain ⟨rfl, -⟩ := Prod.mk.inj hsub
    obtain ⟨rfl, hroot⟩ := Prod.mk.inj hroot
    obtain ⟨rfl, hroot⟩ := Prod.mk.inj hroot
    obtain ⟨⟨_, term⟩, rfl, hslot⟩ := List.map_eq_singleton_iff.mp hroot
    obtain ⟨rfl, hnamed⟩ := Prod.mk.inj hslot
    have hvalue : [EngineValue.instanceName "gen2"] = [term.value] := by
      rw [EngineValue.eq_of_named? hnamed]
    refine
      ⟨[⟨⟨.cell 1, .object "Sub" 1⟩, "gen2", "Sub", subSlots⟩,
        ⟨⟨.cell 0, .object "Root" 0⟩, "gen1", "Root", [("ref", term)]⟩],
      hcreations, rfl, fun hallowed ↦ ?_⟩
    obtain ⟨k, hk, hname, hdescends⟩ :=
      hallowed _ (List.mem_cons_of_mem _ List.mem_cons_self) kinSchema rfl 0
      (referringSlot "ref" "Base") (.struct "Base") "Base" rfl rfl term _ "gen2" rfl hvalue
        (List.mem_singleton_self _)
    obtain rfl | rfl : k = _ ∨ k = _ := by simpa using hk
    · exact absurd (kinRun_descends hdescends) (by simp)
    · exact absurd hname (by simp)

end RuleMarshal
