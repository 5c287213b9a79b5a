import RuleMarshal.Proofs.RoundTrip.Retrieval
/-!
Copies are filled, field by field. What a slot came to is extracted into the copy of what its
attribute holds (`exists_attains_of_fills`) and assigned to the field of that attribute
(`runIn_fillField`), so the copy is one in all its fields in the end (`runIn_fillFields`). An
instance that was not visited is extracted into a new object that is filled so (`attains_instance`),
and one that was visited is there already. By induction on how deep the insertion went, every
reference is extracted into the copy of its object (`recalls`).
-/

set_option autoImplicit false
set_option relaxedAutoImplicit false

namespace RuleMarshal

open Act ObjectGraph

variable {σ : Scene} {copies : List Copy} {s t : State} {depth : Nat} {after : Naming}
variable {b : ObjectNode}
variable {f : Field} {slot : SlotSchema} {v : Value} {made : List Made} {c : Copy}

/-! ### Fields -/

/-- What the first of some slots came to is extracted into the copy of what its attribute holds. -/
theorem exists_attains_of_fills (hrecalls : Recalls σ depth) (hslot : SlotOf σ.world.types f slot)
    (hb : σ.graph.Reaches σ.root b) {position : Nat} {rest : List SlotSchema}
    {es : List EngineValue} {terms : List (String × Term)}
    (hfills : Fills σ.graph (Encodes σ.keep) b position (slot :: rest) es terms)
    (hinserts : Inserts σ.graph (Encodes σ.keep) depth (copies.map Copy.naming)
      (σ.graph.nodesFrom b position (slot :: rest)) es made after)
    (hnodes : σ.graph.nodesFrom b position (slot :: rest) ⊆ σ.graph.nodes b)
    (hmade : ∀ m ∈ made, σ.store.Holds m) (hattr : σ.graph.heap.attribute? b.value f.attr = some v)
    (hv : FieldOf σ.graph.heap f.hint v) (number : Nat) :
    ∃ term others later outside between, terms = (slot.name, term) :: others ∧
      Fills σ.graph (Encodes σ.keep) b (position + 1) rest later others ∧
      Inserts σ.graph (Encodes σ.keep) depth between
        (σ.graph.nodesFrom b (position + 1) rest) later outside after ∧
      outside ⊆ made ∧ term.value.isData = true ∧ ∀ {s}, Halfway σ copies s →
        Attains σ copies s between (σ.graph.heap.content v)
          (extractWithin (depth + 1) term.value (f.hint.inReading number)) := by
  rw [← hslot.attr] at hattr
  cases hfills with
  | @plain _ _ _ _ others w term hreference hheld hencodes hrest =>
    obtain rfl : w = v := Option.some.inj (hheld.symm.trans hattr)
    have hempty : σ.graph.slotNodes b position slot = [] := by simp [slotNodes, hreference]
    rw [nodesFrom, hempty, List.nil_append] at hinserts
    obtain ⟨hdata, hattains⟩ := attains_plain hslot hv hreference hencodes
      (fun heap hheap ↦ σ.kept heap hheap b slot.attr w hb hattr) number
    exact ⟨term, others, es, made, _, rfl, hrest, hinserts, fun _ hm ↦ hm, hdata, hattains⟩
  | @reference _ _ _ values later others term hreference hlength hcarries hrest =>
    obtain ⟨here, later', inside, outside, between, hes, rfl, hhere, hfirst, hlater⟩ :=
      hinserts.split
    obtain ⟨rfl, rfl⟩ := List.append_inj hes (hlength.symm.trans hhere.symm)
    obtain ⟨hdata, hattains⟩ := attains_reference hrecalls hslot hreference hattr hv hfirst hcarries
      (fun m hm ↦ hmade m (List.mem_append_left _ hm))
      (fun n hn hpresent ↦ hb.tail ⟨hnodes (List.mem_append_left _ hn), hpresent⟩) number
    exact ⟨term, others, later, outside, between, rfl, hrest, hlater,
      List.subset_append_right _ _, hdata, hattains⟩

/-- What is asked of a copy's instance is assigned to the copy's field. -/
theorem runIn_fillField {h : InstanceHandle} {term : Term} {attrs : List (String × Value)}
    {extract : EngineValue → Hint → Act Value} {hint : Hint} {names : List String}
    (hs : Halfway σ copies s) (hepoch : h.epoch = σ.begun.dataEpoch) (hc : c ∈ copies)
    (hobject : s.heap.get? c.copy = some (.object attrs)) (hslot : SlotOf σ.world.types f slot)
    (hname : f.engineName ∈ names) (hstored : slot.name ∈ σ.store.slotsOf h.name)
    (hheld : σ.store.value h.name slot.name = term.native) (hdata : term.value.isData = true)
    (hattains : ∀ {s}, Halfway σ copies s → Attains σ copies s after v (extract term.value hint)) :
    ∃ w more u, Act.runIn (do
        if names.contains f.engineName then
          let v ← extract (← h.slot (.text f.engineName)) hint
          assign (.object c.struct c.copy) f.attr v : Act Unit) σ.world s = (.ok ⟨⟩, u) ∧
      Copied σ (some c.copy) copies s more u ∧ more.map Copy.naming = after ∧ CopyOf more v w ∧
      u.heap.get? c.copy = some (.object (putNamed attrs f.attr w)) := by
  obtain ⟨hasked, hready⟩ := runIn_slot hs.ready (hs.epoch.trans hepoch.symm) hslot.accepted hstored
    fun u ↦ hheld ▸ Term.toEngine_native hdata u
  obtain ⟨w, more, u, hextract, hcopied, hafter, hcopy⟩ := hattains (hs.asking hready)
  have hsize := Heap.lt_size_of_get? hobject
  have hsame : u.heap.get? c.copy = some (.object attrs) :=
    (hcopied.cells _ hsize nofun).trans hobject
  have hassign : (assign (.object c.struct c.copy) f.attr w).runIn σ.world u =
      (.ok ⟨⟩, { u with heap := u.heap.put c.copy (.object (putNamed attrs f.attr w)) }) := by
    have hattrs : u.heap.attrs c.copy = attrs := by rw [Heap.attrs, hsame]
    rw [← hattrs]
    rfl
  have hfilled := (hcopied.of_heap (s := s) rfl).put hc hsize (.object (putNamed attrs f.attr w))
  refine ⟨w, more, _, ?_, hfilled, hafter, hcopy,
    u.heap.get?_put_self _ (Heap.lt_size_of_get? hsame)⟩
  rw [hslot.name] at hasked hextract
  rw [if_pos (by simpa using hname), runIn_bind_of_ok hasked, runIn_bind_of_ok hextract, hassign]

/-- A copy is filled field by field, in the order of the slots. -/
theorem runIn_fillFields (hrecalls : Recalls σ depth) (hb : σ.graph.Reaches σ.root b)
    (hvalue : b.value = .object c.struct c.original) {h : InstanceHandle} {names : List String}
    (hepoch : h.epoch = σ.begun.dataEpoch) {fields : List Field} {slots : List SlotSchema}
    {position number : Nat} {es : List EngineValue} {terms : List (String × Term)}
    {attrs : List (String × Value)} (hslots : List.Forall₂ (SlotOf σ.world.types) fields slots)
    (hfills : Fills σ.graph (Encodes σ.keep) b position slots es terms)
    (hinserts : Inserts σ.graph (Encodes σ.keep) depth (copies.map Copy.naming)
      (σ.graph.nodesFrom b position slots) es made after)
    (hnodes : σ.graph.nodesFrom b position slots ⊆ σ.graph.nodes b)
    (hmade : ∀ m ∈ made, σ.store.Holds m)
    (hheld : ∀ p ∈ terms, p.1 ∈ σ.store.slotsOf h.name ∧ σ.store.value h.name p.1 = p.2.native)
    (hnames : ∀ f ∈ fields, f.engineName ∈ names) (hattrs : (fields.map (·.attr)).Nodup)
    (htyped : ∀ f ∈ fields, ∃ v, σ.graph.heap.attribute? b.value f.attr = some v ∧
      FieldOf σ.graph.heap f.hint v)
    (hs : Halfway σ copies s) (hc : c ∈ copies)
    (hobject : s.heap.get? c.copy = some (.object attrs)) :
    ∃ more u, (fillFields (extractWithin (depth + 1)) (.object c.struct c.copy)
        (fieldsInReading number fields) (fun slot ↦ h.slot (.text slot)) names).runIn σ.world s =
        (.ok ⟨⟩, u) ∧
      Copied σ (some c.copy) copies s more u ∧ more.map Copy.naming = after ∧
      (∀ f ∈ fields, CopiesAttribute σ.graph u.heap more c f.attr) ∧
      ∃ filled, u.heap.get? c.copy = some (.object filled) ∧
        ∀ attr ∉ fields.map (·.attr), filled.lookup attr = attrs.lookup attr := by
  induction hslots generalizing copies position es terms made s attrs with
  | nil =>
    cases hinserts
    exact ⟨copies, s, rfl, .refl hs, rfl, nofun, attrs, hobject, fun _ _ ↦ rfl⟩
  | @cons f slot fields slots hslot hslots ih =>
    obtain ⟨v, hattr, hv⟩ := htyped f List.mem_cons_self
    obtain ⟨term, others, later, outside, between, rfl, hrest, hlater, houtside, hdata, hattains⟩ :=
      exists_attains_of_fills hrecalls hslot hb hfills hinserts hnodes hmade hattr hv number
    obtain ⟨hstored, hterm⟩ := hheld _ List.mem_cons_self
    obtain ⟨w, more, t, hfirst, hcopied, rfl, hcopy, hput⟩ :=
      runIn_fillField hs hepoch hc hobject hslot
      (hnames f List.mem_cons_self) hstored hterm hdata hattains
    have hnew : f.attr ∉ fields.map (·.attr) := (List.nodup_cons.mp hattrs).1
    obtain ⟨most, u, hothers, hcopiedLater, hafter, hfields, filled, hfilled,
        hkept⟩ := ih hrest hlater
      (fun n hn ↦ hnodes (List.mem_append_right _ hn)) (fun m hm ↦ hmade m (houtside hm))
      (fun p hp ↦ hheld p (List.mem_cons_of_mem _ hp))
      (fun g hg ↦ hnames g (List.mem_cons_of_mem _ hg))
      (List.nodup_cons.mp hattrs).2
        (fun g hg ↦ htyped g (List.mem_cons_of_mem _ hg)) hcopied.halfway
      (hcopied.subset hc) hput
    refine ⟨most, u, ?_, hcopied.trans hcopiedLater ?_, hafter, fun g hg ↦ ?_, filled, hfilled,
      fun attr hother ↦ ?_⟩
    · rw [fieldsInReading, List.map_cons, fillFields, List.forM]
      exact (runIn_bind_of_ok hfirst).trans hothers
    · rintro id heq
      cases heq
      exact Heap.lt_size_of_get? hobject
    · obtain rfl | hg := List.mem_cons.mp hg
      · refine ⟨v, w, hvalue ▸ hattr, ?_, hcopy.mono hcopiedLater.subset⟩
        rw [Heap.attrs, hfilled]
        exact (hkept _ hnew).trans (lookup_putNamed_self _ _ _)
      · exact hfields g hg
    · rw [List.map_cons, List.mem_cons, not_or] at hother
      rw [hkept attr hother.2, lookup_putNamed_ne _ _ hother.1]

/-! ### Instances -/

section

variable {world : World} {u x : State} {h : InstanceHandle} {struct : String} {id : Nat}
variable {extract : EngineValue → Hint → Act Value}

theorem runIn_visitedFor (name : String) :
    (visitedFor name (.struct struct)).runIn world s = (.ok (s.built (name, .struct struct)), s) :=
  rfl

/-- An instance that was visited is extracted into what was built for it. -/
theorem runIn_extractInstance_of_built (hstruct : world.types.isStruct (.struct struct) = true)
    (hbuilt : s.built (h.name, .struct struct) = some (.object struct id)) :
    (extractInstance extract h (.struct struct) none).runIn world s =
      (.ok (.object struct id), s) := by
  unfold extractInstance
  rw [runIn_bind_of_ok (runIn_visitedFor h.name), hbuilt]
  exact runIn_asEngineValue hstruct

/-- An instance that was not visited is extracted into a new object that is visited and filled. -/
theorem runIn_extractInstance_of_new {names : List String} {fields : List Field}
    (hstruct : world.types.isStruct (.struct struct) = true)
    (hnew : s.built (h.name, .struct struct) = none)
    (hnames : h.slotNames.runIn world s = (.ok names, t))
    (hfields : (fieldsAnew (.struct struct)).runIn world t = (.ok fields, u))
    (hblank : (blank (.struct struct) fields).runIn world u = (.ok (.object struct id), x))
    {y : State}
    (hfill : (fillFields extract (.object struct id) fields (fun slot ↦ h.slot (.text slot))
      names).runIn world (x.visiting (h.name, .struct struct) (.object struct id)) = (.ok ⟨⟩, y)) :
    (extractInstance extract h (.struct struct) none).runIn world s =
      (.ok (.object struct id), y) := by
  have hvisit : (visit h.name (.struct struct) (.object struct id)).runIn world x =
      (.ok ⟨⟩, x.visiting (h.name, .struct struct) (.object struct id)) := rfl
  have hfilling : (filling (.object struct id) fun object ↦
      fillFields extract object fields (fun slot ↦ h.slot (.text slot)) names).runIn world
      (x.visiting (h.name, .struct struct) (.object struct id)) = (.ok (.object struct id), y) := by
    show Act.runIn (fillFields extract (.object struct id) fields
      (fun slot ↦ h.slot (.text slot)) names >>=
      fun _ ↦ asEngineValue (.object struct id)) _ _ = _
    rw [runIn_bind_of_ok hfill, runIn_asEngineValue hstruct]
  unfold extractInstance
  rw [runIn_bind_of_ok (runIn_visitedFor h.name), hnew]
  dsimp only
  rw [runIn_bind_of_ok hnames, runIn_bind_of_ok (runIn_read world t)]
  show Act.runIn (if _ then _ else _) _ _ = _
  rw [hstruct, if_neg (by simp), runIn_bind_of_ok hfields, runIn_bind_of_ok hblank,
    runIn_bind_of_ok hvisit, hfilling]

/-- A reference to an instance is extracted as that instance. -/
theorem runIn_resolveBy_instanceName (hstruct : world.types.isStruct (.struct struct) = true)
    (name : String) :
    (resolveBy extract (.instanceName name) (.struct struct)).runIn world s =
      (extractInstance extract ⟨name, s.dataEpoch, s.serial + 1⟩ (.struct struct) none).runIn world
        { s with serial := s.serial + 1 } := by
  have hcontainer : (Hint.struct struct).isContainer world.types = .ok true := by
    simp [Hint.isContainer, hstruct]
  have hyes : (MonadExcept.ofExcept ((Hint.struct struct).isContainer world.types) :
      Act Bool).runIn world s =
      (.ok true, s) := by rw [hcontainer]; rfl
  unfold resolveBy
  dsimp only
  rw [runIn_bind_of_ok (runIn_read world s), hstruct, if_neg (by simp [EngineValue.isNil]),
    runIn_bind_of_ok hyes]
  rfl

end

/-- The instance of an object that was not named before is extracted into a new copy of the
object. -/
theorem attains_instance (hrecalls : Recalls σ depth) (hb : σ.graph.Reaches σ.root b)
    {struct : String} {id : Nat} (hvalue : b.value = .object struct id)
    (hstruct : σ.world.types.isStruct (.struct struct) = true) {h : InstanceHandle}
    (hepoch : h.epoch = σ.begun.dataEpoch) {schema : ClassSchema}
    (hschema : σ.graph.schemaOf b.value = some schema) {nested : List EngineValue}
    {terms : List (String × Term)} (hnew : b.id ∉ (copies.map Copy.naming).map (·.1))
    (hname : h.name ∉ (copies.map Copy.naming).map (·.2))
    (hinside : Inserts σ.graph (Encodes σ.keep) depth ((b.id, h.name) :: copies.map Copy.naming)
      (σ.graph.nodes b) nested made after)
    (hfills : Fills σ.graph (Encodes σ.keep) b 0 schema.slots nested terms)
    (hmade : ∀ m ∈ made, σ.store.Holds m) (hheld : σ.store.Holds ⟨b, h.name, schema.name, terms⟩)
    (hs : Halfway σ copies s) :
    Attains σ copies s after b.value
      (extractInstance (extractWithin (depth + 1)) h (.struct struct) none) := by
  have hid : b.id = .cell id := (hb.id_eq_cell σ.placed id).mpr (by rw [hvalue]; rfl)
  obtain ⟨fields, hfields, -, hslots⟩ :=
    exists_fields_of_buildSchema (σ.schema b struct id schema hb hvalue hschema)
  have hslotNames : terms.map (·.1) = schema.slots.map (·.name) := hfills.map_fst
  have hclass : σ.store.instances.lookup h.name = some schema.name := hheld.instances
  have hstored : σ.store.slotsOf h.name = terms.map (·.1) := by
    rw [Store.slotsOf, hclass]
    exact hheld.slots
  have hnames : fields.map (·.engineName) = σ.store.slots schema.name := by
    rw [map_engineName_eq hslots, ← hslotNames]
    exact hheld.slots.symm
  have htyped : ∀ declared,
      σ.world.types.fields σ.world.config.tags (.struct struct) = .ok declared →
      ∀ f ∈ declared, ∃ v, σ.graph.heap.attribute? b.value f.attr = some v ∧
        FieldOf σ.graph.heap f.hint v := by
    obtain ⟨known, cell, hknown, hall⟩ := σ.typed b hb
    obtain ⟨rfl, rfl⟩ := Value.object.inj (hknown.symm.trans hvalue)
    exact hall
  obtain ⟨hasked, hready⟩ := runIn_slotNames hs.ready (hs.epoch.trans hepoch.symm) hclass
  have hbefore := hs.asking hready
  obtain ⟨number, copy, x, hanewFields, hblank, hanew⟩ :=
    (σ.makes b struct id hb hvalue).exists_anew hbefore.continues hfields
  have hnewName : h.name ∉ copies.map (·.name) := by
    simpa [Function.comp_def, Copy.naming] using hname
  have hnewOriginal : id ∉ copies.map (·.original) := by
    simpa [Function.comp_def, Copy.naming, hid] using hnew
  have hvisited := hbefore.visiting (c := ⟨struct, id, copy, h.name⟩) hanew hnewOriginal hnewName
    ⟨b, hb, hvalue⟩
  obtain ⟨attrs, hobject⟩ := hanew.object
  rw [hid, nodes_of_schemaOf hschema] at hinside
  have hnext : Inserts σ.graph (Encodes σ.keep) depth
      (((⟨struct, id, copy, h.name⟩ : Copy) :: copies).map Copy.naming)
      (σ.graph.nodesFrom b 0 schema.slots) nested made after := hinside
  obtain ⟨more, y, hfill, hcopied, hafter, hcomplete, filled, hfilled, -⟩ :=
    runIn_fillFields hrecalls hb
    hvalue hepoch hslots hfills hnext (by rw [nodes_of_schemaOf hschema]; exact fun _ hn ↦ hn) hmade
    (fun p hp ↦ ⟨hstored ▸ List.mem_map_of_mem hp, hheld.value p.1 p.2 hp⟩)
    (fun f hf ↦ hnames ▸ List.mem_map_of_mem hf) (TypeTable.attr_nodup_of_fields hfields)
    (htyped fields hfields) hvisited List.mem_cons_self hobject
  have hrun := runIn_extractInstance_of_new hstruct (hs.built_eq_none hnewName) hasked
    hanewFields hblank hfill
  refine ⟨.object struct copy, more, y, hrun, ?_, hafter, ?_⟩
  · refine (Copied.of_anew (c := ⟨struct, id, copy, h.name⟩) hanew hcopied
      ⟨⟨filled, hfilled⟩, fun declared hdeclared ↦ ?_⟩).of_heap rfl
    obtain rfl : fields = declared := Except.ok.inj (hfields.symm.trans hdeclared)
    exact hcomplete
  · rw [hvalue]
    exact copyOf_object (hcopied.subset List.mem_cons_self)

/-- The instance of an object that was named before is extracted into the copy that was made of
it. -/
theorem attains_again (hb : σ.graph.Reaches σ.root b) {struct name : String} {id : Nat}
    (hvalue : b.value = .object struct id)
    (hstruct : σ.world.types.isStruct (.struct struct) = true)
    (hnamed : (b.id, name) ∈ copies.map Copy.naming) {h : InstanceHandle} (hname : h.name = name)
    {extract : EngineValue → Hint → Act Value} (hs : Halfway σ copies s) :
    Attains σ copies s (copies.map Copy.naming) b.value
      (extractInstance extract h (.struct struct) none) := by
  obtain ⟨c, hc, hnaming⟩ := List.mem_map.mp hnamed
  obtain ⟨hid, rfl⟩ := Prod.mk.inj hnaming
  obtain ⟨n, hn, hsame⟩ := hs.reached c hc
  have hcell : b.value.cell? = some c.original := (hb.id_eq_cell σ.placed c.original).mp hid.symm
  have hobject : b.value = .object c.struct c.original :=
    (σ.coherent b n hb hn c.original hcell (by rw [hsame]; rfl)).trans hsame
  obtain ⟨rfl, rfl⟩ := Value.object.inj (hvalue.symm.trans hobject)
  have hbuilt := hs.built_of_mem hc
  rw [← hname] at hbuilt
  refine ⟨.object c.struct c.copy, copies, s, runIn_extractInstance_of_built hstruct hbuilt,
    .refl hs, rfl, ?_⟩
  rw [hobject]
  exact copyOf_object hc

/-- A reference to an instance attains what every extraction of that instance does. -/
theorem Attains.of_handle {name struct : String} {extract : EngineValue → Hint → Act Value}
    (hstruct : σ.world.types.isStruct (.struct struct) = true) (hs : Halfway σ copies s)
    (hextract : ∀ {t} {h : InstanceHandle}, Halfway σ copies t → h.name = name →
      h.epoch = σ.begun.dataEpoch →
      Attains σ copies t after v (extractInstance extract h (.struct struct) none)) :
    Attains σ copies s after v (resolveBy extract (.instanceName name) (.struct struct)) := by
  have hnext : Halfway σ copies { s with serial := s.serial + 1 } :=
    hs.of_eq ⟨hs.ready.isOpen, hs.ready.parked, hs.ready.answers⟩ rfl
      (hs.continues.of_eq rfl rfl rfl) rfl (Nat.le_refl _)
  obtain ⟨w, more, u, hrun, hcopied, hafter, hcopy⟩ :=
    hextract (h := ⟨name, s.dataEpoch, s.serial + 1⟩) hnext rfl hs.epoch
  refine ⟨w, more, u, ?_, hcopied.of_heap rfl, hafter, hcopy⟩
  rw [runIn_resolveBy_instanceName hstruct, hrun]

/-- However deep an insertion went, what it came to is extracted into copies. -/
theorem recalls (σ : Scene) (depth : Nat) : Recalls σ depth := by
  induction depth using Nat.strongRecOn with
  | ind depth ih =>
    intro b e made after copies s struct id hinserts hmade hb hvalue hstruct hs
    cases hinserts with
    | absent habsent _ =>
      rw [hvalue] at habsent
      cases habsent
    | again _ hnamed hrest =>
      cases hrest
      exact .of_handle hstruct hs fun hs hname _ ↦ attains_again hb hvalue hstruct hnamed hname hs
    | @first inner _ _ _ _ _ _ _ _ _ _ _ _ hpresent hschema hnew hname hinside hfills hrest =>
      cases hrest
      refine .of_handle hstruct hs fun {t h} hs hsame hepoch ↦ ?_
      subst hsame
      exact attains_instance (ih inner (Nat.lt_succ_self inner)) hb hvalue hstruct hepoch hschema
        (hnew (by rw [hvalue]; rfl)) hname hinside hfills
          (fun m hm ↦ hmade m (List.mem_append_left _ hm))
        (hmade _ (List.mem_append_right _ List.mem_cons_self)) hs

end RuleMarshal
