import RuleMarshal.Proofs.Engine.Render
import RuleMarshal.Proofs.Insertion.Conduct
import RuleMarshal.Proofs.Insertion.Representation
/-!
An insertion that succeeds is a traversal. Its run is followed step by step: in between (`Midway`)
the names that it holds for cells are those that the traversal has given, and each of them was
issued by the engine or is the one that was asked for. Every step of the run, from the value of one
reference to a whole object, performs a part of a traversal (`Performs`), in which one order to make
an instance is sent for each instance that is made; for whole objects this is an induction on the
bound of the nesting (`performs_insertWithin`).
-/

set_option autoImplicit false
set_option relaxedAutoImplicit false

namespace RuleMarshal

open Act ObjectGraph
open MonadExcept (ofExcept)

/-- The object graph that a state holds in a world. -/
def State.objectGraph (s : State) (world : World) : ObjectGraph :=
  ⟨s.heap, world.types, s.memo.schema? world.types world.config.tags⟩

/-- The order that an instance was made by. -/
def Made.creation (m : Made) : Creation := ⟨some m.name, m.className, m.slots⟩

/-- What a slot holds that refers to no objects: the value of its attribute on some heap that was
kept. -/
def Encodes (keep : Heap → Prop) (slot : SlotSchema) (v : Value) (e : EngineValue) : Prop :=
  ∃ heap, keep heap ∧
    match slot.multi, heap.content v with
    | true, .none => e = .multifield []
    | _, w => slot.hint.encode w = .ok e

/-! ### Names -/

/-- The names that were given to cells. -/
def cellNames (naming : Naming) : List (Nat × Except Error String) :=
  naming.filterMap fun p ↦
    match p.1 with
    | .cell id => some (id, .ok p.2)
    | _ => none

theorem mem_of_lookup_cellNames {naming : Naming} {id : Nat} {given : Except Error String}
    (hlookup : (cellNames naming).lookup id = some given) :
    ∃ name, given = .ok name ∧ (.cell id, name) ∈ naming := by
  obtain ⟨front, back, hsplit, -⟩ := List.lookup_eq_some_iff.mp hlookup
  have hfound : (id, given) ∈ cellNames naming := by simp [hsplit]
  obtain ⟨⟨identity, name⟩, hmem, hcell⟩ := List.mem_filterMap.mp hfound
  cases identity with
  | cell other =>
    simp only [Option.some.injEq, Prod.mk.injEq] at hcell
    obtain ⟨rfl, rfl⟩ := hcell
    exact ⟨name, rfl, hmem⟩
  | root => simp at hcell
  | part => simp at hcell

theorem notMem_of_lookup_cellNames {naming : Naming} {id : Nat}
    (hlookup : (cellNames naming).lookup id = none) : .cell id ∉ naming.map (·.1) := by
  intro hmem
  obtain ⟨⟨identity, name⟩, hmem, rfl⟩ := List.mem_map.mp hmem
  have hcell : (id, .ok name) ∈ cellNames naming := List.mem_filterMap.mpr ⟨_, hmem, rfl⟩
  have hunequal := List.lookup_eq_none_iff.mp hlookup _ hcell
  simp at hunequal

/-- Whether a name is to be avoided or was issued in between. -/
def Issued (engine : Array Event → Command → Reply) (past : Array Event) (avoided : String → Prop)
    (now : Array Event) (name : String) : Prop :=
  avoided name ∨ ∃ history : Array Event, past.toList <+: history.toList ∧
    (history.push (.command (.evaluate .freshName))).toList <+: now.toList ∧
    (engine history (.evaluate .freshName)).outcome = .ok (.symbol name)

section

variable {engine : Array Event → Command → Reply} {past now later : Array Event}
variable {avoided : String → Prop} {name : String}

theorem Issued.mono (h : Issued engine past avoided now name)
    (hgrows : now.toList <+: later.toList) : Issued engine past avoided later name :=
  h.imp_right fun ⟨history, hpast, hnow, houtcome⟩ ↦
    ⟨history, hpast, hnow.trans hgrows, houtcome⟩

theorem NamesFreshly.not_issued (hfresh : NamesFreshly engine past avoided)
    (hpast : past.toList <+: now.toList)
    (houtcome : (engine now (.evaluate .freshName)).outcome = .ok (.symbol name)) :
    ¬Issued engine past avoided now name := by
  rintro (havoided | ⟨history, hbefore, hnow, hissued⟩)
  · exact hfresh.unused now name hpast houtcome havoided
  · exact hfresh.distinct history now name hbefore hnow hissued houtcome

end

/-! ### Steps of an insertion -/

/-- What an insertion from a root counts on. -/
structure Insertable (world : World) (past : State) (root : ObjectNode) (keep : Heap → Prop)
    (avoided : String → Prop) : Prop where
  orderly : world.Orderly
  placed : root.id = root.value.identityAt .root
  agrees : ∀ heap, keep heap → (past.objectGraph world).Agrees root heap
  calm : Calm world past keep
  fresh : NamesFreshly world.engine past.history avoided
  asAsked : NamesAsAsked world.engine past.history

/-- A state in the midst of an insertion, with the names given so far. -/
structure Midway (world : World) (past : State) (keep : Heap → Prop) (avoided : String → Prop)
    (naming : Naming) (i : Insertion) (s : State) : Prop where
  amid : Amid world past keep s
  names : i.names = cellNames naming
  issued : ∀ name ∈ naming.map (·.2),
    Issued world.engine past.history avoided s.history name

/-- Whether a run from one state to another is the insertion of nodes, with at most the given number
of objects begun one inside the other, given what was named before and in the end and the values
that the nodes come to. -/
def Performs (world : World) (past : State) (keep : Heap → Prop) (avoided : String → Prop)
    (depth : Nat) (naming after : Naming) (nodes : List ObjectNode) (es : List EngineValue)
    (s : State) (j : Insertion) (t : State) : Prop :=
  Midway world past keep avoided after j t ∧ ∃ made,
    Inserts (past.objectGraph world) (Encodes keep) depth naming nodes es made after ∧
      t.creations = s.creations ++ made.map Made.creation

section

variable {world : World} {past s t u : State} {root owner b : ObjectNode} {keep : Heap → Prop}
variable {avoided : String → Prop} {naming between after : Naming} {i j k : Insertion} {depth : Nat}

theorem Inserts.append {g : ObjectGraph} {plain : SlotSchema → Value → EngineValue → Prop}
    {xs ys : List ObjectNode} {es fs : List EngineValue} {made more : List Made}
    (h : Inserts g plain depth naming xs es made between)
    (h' : Inserts g plain depth between ys fs more after) :
    Inserts g plain depth naming (xs ++ ys) (es ++ fs) (made ++ more) after := by
  induction h with
  | done => exact h'
  | absent habsent hrest ih => exact .absent habsent (ih h')
  | again hpresent hnamed hrest ih => exact .again hpresent hnamed (ih h')
  | first hpresent hschema hnew hname hinside hfills hrest ihinside ihrest =>
    rw [List.append_assoc, List.cons_append]
    exact .first hpresent hschema hnew hname hinside hfills (ihrest h')

theorem Performs.done (hs : Midway world past keep avoided naming i s) :
    Performs world past keep avoided depth naming naming [] [] s i s :=
  ⟨hs, [], .done depth naming, by simp⟩

theorem Performs.append {xs ys : List ObjectNode} {es fs : List EngineValue}
    (h : Performs world past keep avoided depth naming between xs es s j t)
    (h' : Performs world past keep avoided depth between after ys fs t k u) :
    Performs world past keep avoided depth naming after (xs ++ ys) (es ++ fs) s k u := by
  obtain ⟨-, made, hinserts, hcreations⟩ := h
  obtain ⟨hu, more, hinserts', hcreations'⟩ := h'
  refine ⟨hu, made ++ more, hinserts.append hinserts', ?_⟩
  rw [hcreations', hcreations, List.map_append, List.append_assoc]

/-- What is asked of the engine first makes no instances. -/
theorem Performs.ofAsking {nodes : List ObjectNode} {es : List EngineValue}
    (hst : Evolves world.setup .asking s t)
    (h : Performs world past keep avoided depth naming after nodes es t k u) :
    Performs world past keep avoided depth naming after nodes es s k u := by
  obtain ⟨hu, made, hinserts, hcreations⟩ := h
  exact ⟨hu, made, hinserts, by rw [hcreations, hst.creations_eq (.inl rfl)]⟩

/-- Who asks the engine at most, and names nothing, is midway as before. -/
theorem Midway.ask (hs : Midway world past keep avoided naming i s)
    (hst : Evolves world.setup .asking s t) (hamid : Amid world past keep t)
    (hnames : j.names = i.names) : Midway world past keep avoided naming j t where
  amid := hamid
  names := hnames.trans hs.names
  issued name hname := (hs.issued name hname).mono hst.history_grows

/-! ### References -/

/-- The insertion of nested objects, when each one that succeeds is part of a traversal. -/
def Nests (world : World) (past : State) (root : ObjectNode) (keep : Heap → Prop)
    (avoided : String → Prop) (depth : Nat) (insertNested : Value → Inserting String) : Prop :=
  ∀ {b : ObjectNode} {naming : Naming} {i j : Insertion} {s t : State} {name : String},
    (past.objectGraph world).Reaches root b → (past.objectGraph world).IsPresent b.value →
    Midway world past keep avoided naming i s →
    (b.value.cell?.isSome → b.id ∉ naming.map (·.1)) →
    Carrying.runIn (insertNested b.value) world i s = (.ok (name, j), t) →
    ∃ after, Performs world past keep avoided depth naming after [b] [.instanceName name] s j t

variable {insertNested : Value → Inserting String} {slot : SlotSchema} {expected : Hint}

theorem ok_of_nameGiven {object : Value} {found : Option (Except Error String)}
    (hrun : Carrying.runIn (nameGiven object) world i s = (.ok (found, j), t)) :
    object.cell?.bind (i.names.lookup ·) = found ∧ i = j ∧ s = t := by
  obtain ⟨_, _, _, hget, hfound⟩ := Carrying.ok_of_bind hrun
  obtain ⟨rfl, rfl, rfl⟩ := Carrying.ok_of_get hget
  exact Carrying.ok_of_pure hfound

/-- A reference that succeeds is the insertion of the node that it refers to. -/
theorem performs_referenceTo (hins : Insertable world past root keep avoided)
    (hnests : Nests world past root keep avoided depth insertNested)
    (howner : (past.objectGraph world).Reaches root owner)
    (hb : b ∈ (past.objectGraph world).nodes owner)
    (hs : Midway world past keep avoided naming i s) {e : EngineValue}
    (hrun : Carrying.runIn (referenceTo insertNested slot expected b.value) world i s =
      (.ok (e, j), t)) :
    ∃ after, Performs world past keep avoided depth naming after [b] [e] s j t := by
  obtain ⟨_, _, _, hget, hopened⟩ := Carrying.ok_of_bind hrun
  obtain ⟨rfl, rfl, rfl⟩ := Carrying.ok_of_getThe hget
  have hsame := opened_of_agrees (hins.agrees _ hs.amid.heap) (.item howner hb)
  rw [hsame] at hopened
  split at hopened
  · rename_i habsent
    obtain ⟨rfl, rfl, rfl⟩ := Carrying.ok_of_pure hopened
    exact ⟨naming, hs, [], .absent habsent (.done depth naming), by simp⟩
  · rename_i hpresent
    have hreaches : (past.objectGraph world).Reaches root b := howner.tail ⟨hb, hpresent⟩
    obtain ⟨_, _, _, hread, hchecked⟩ := Carrying.ok_of_bind hopened
    obtain ⟨rfl, rfl, rfl⟩ := Carrying.ok_of_read hread
    obtain ⟨-, hgiven⟩ := Carrying.ok_of_refuse hchecked
    obtain ⟨found, _, _, hname, hvalue⟩ := Carrying.ok_of_bind hgiven
    obtain ⟨hfound, rfl, rfl⟩ := ok_of_nameGiven hname
    cases found with
    | some given =>
      obtain ⟨id, hcell, hlookup⟩ := Option.bind_eq_some_iff.mp hfound
      rw [hs.names] at hlookup
      obtain ⟨name, rfl, hnamed⟩ := mem_of_lookup_cellNames hlookup
      obtain ⟨_, _, _, hok, hreturn⟩ := Carrying.ok_of_bind hvalue
      obtain ⟨hname, rfl, rfl⟩ := Carrying.ok_of_ofExcept hok
      cases hname
      obtain ⟨rfl, rfl, rfl⟩ := Carrying.ok_of_pure hreturn
      rw [← (hreaches.id_eq_cell hins.placed id).mpr hcell] at hnamed
      exact ⟨naming, hs, [], .again hpresent hnamed (.done depth naming), by simp⟩
    | none =>
      obtain ⟨name, _, _, hnested, hreturn⟩ := Carrying.ok_of_bind hvalue
      obtain ⟨rfl, rfl, rfl⟩ := Carrying.ok_of_pure hreturn
      refine hnests hreaches hpresent hs (fun hsome ↦ ?_) hnested
      obtain ⟨id, hcell⟩ := Option.isSome_iff_exists.mp hsome
      rw [hcell, hs.names] at hfound
      rw [(hreaches.id_eq_cell hins.placed id).mpr hcell]
      exact notMem_of_lookup_cellNames hfound

/-- References from one position on, one after the other. -/
theorem performs_mapM_referenceTo (hins : Insertable world past root keep avoided)
    (hnests : Nests world past root keep avoided depth insertNested)
    (howner : (past.objectGraph world).Reaches root owner) {position item : Nat}
    {items : List Value}
    (hitems : partsFrom owner.id position item items ⊆ (past.objectGraph world).nodes owner)
    (hs : Midway world past keep avoided naming i s) {es : List EngineValue}
    (hrun : Carrying.runIn (items.mapM (referenceTo insertNested slot expected)) world i s =
      (.ok (es, j), t)) :
    es.length = items.length ∧ ∃ after, Performs world past keep avoided depth naming after
      (partsFrom owner.id position item items) es s j t := by
  induction items generalizing item naming i s es with
  | nil =>
    obtain ⟨rfl, rfl, rfl⟩ := Carrying.ok_of_pure hrun
    exact ⟨rfl, naming, .done hs⟩
  | cons v rest ih =>
    rw [List.mapM_cons] at hrun
    obtain ⟨hfirst, hlater⟩ := List.cons_subset.mp hitems
    obtain ⟨e, _, _, href, hmore⟩ := Carrying.ok_of_bind hrun
    obtain ⟨others, _, _, hrest, hreturn⟩ := Carrying.ok_of_bind hmore
    obtain ⟨rfl, rfl, rfl⟩ := Carrying.ok_of_pure hreturn
    obtain ⟨between, hperforms⟩ := performs_referenceTo hins hnests howner hfirst hs href
    obtain ⟨hlength, after, hperformsLater⟩ := ih hlater hperforms.1 hrest
    exact ⟨by simp [hlength], after, hperforms.append hperformsLater⟩

theorem length_partsFrom (place : Identity) (position item : Nat) (items : List Value) :
    (partsFrom place position item items).length = items.length := by
  induction items generalizing item with
  | nil => rfl
  | cons v rest ih => simp [partsFrom, ih]

/-- A slot that refers to objects is the insertion of the nodes that it refers to. -/
theorem performs_slotValue (hins : Insertable world past root keep avoided)
    (hnests : Nests world past root keep avoided depth insertNested)
    (howner : (past.objectGraph world).Reaches root owner) {position : Nat} {v : Value}
    (hslot : slot.reference.isSome)
    (hattr : past.heap.attribute? owner.value slot.attr = some v)
    (hmeets : (past.objectGraph world).Meets root v)
    (hnodes : (past.objectGraph world).slotNodes owner position slot ⊆
      (past.objectGraph world).nodes owner)
    (hs : Midway world past keep avoided naming i s) {e : EngineValue}
    (hrun : Carrying.runIn (slotValue insertNested slot v) world i s = (.ok (e, j), t)) :
    ∃ values after, slot.Carries values e ∧
      ((past.objectGraph world).slotNodes owner position slot).length = values.length ∧
      Performs world past keep avoided depth naming after
        ((past.objectGraph world).slotNodes owner position slot) values s j t := by
  obtain ⟨⟨expected, className⟩, href⟩ := Option.isSome_iff_exists.mp hslot
  have hsame := opened_of_agrees (hins.agrees _ hs.amid.heap) hmeets
  have hparts : (past.objectGraph world).slotNodes owner position slot =
      partsFrom owner.id position 0 (slot.targets past.heap v) := by
    simp only [slotNodes, State.objectGraph, href, hattr]
  rw [hparts] at hnodes ⊢
  obtain ⟨_, _, _, hget, hvalue⟩ := Carrying.ok_of_bind hrun
  obtain ⟨rfl, rfl, rfl⟩ := Carrying.ok_of_getThe hget
  simp only [href] at hvalue
  rw [hsame] at hvalue
  have hitems : ∀ {items : List Value} {k : Insertion} {w : State} {es : List EngineValue},
      slot.targets past.heap v = items →
      Carrying.runIn (items.mapM (referenceTo insertNested slot expected)) world i s =
        (.ok (es, k), w) →
      (partsFrom owner.id position 0 (slot.targets past.heap v)).length = es.length ∧
        ∃ after, Performs world past keep avoided depth naming after
          (partsFrom owner.id position 0 (slot.targets past.heap v)) es s k w := by
    intro items k w es htargets hmap
    rw [htargets] at hnodes ⊢
    obtain ⟨hlength, hperforms⟩ := performs_mapM_referenceTo hins hnests howner hnodes hs hmap
    exact ⟨by rw [length_partsFrom, hlength], hperforms⟩
  have hseveral {opened : Value} (hmulti : slot.multi = true)
      (hopened : (past.objectGraph world).heap.opened v = opened) :
      slot.targets past.heap v = opened.elements := by
    rw [SlotSchema.targets, if_pos hmulti, ← hopened]
    rfl
  split at hvalue
  · rename_i hmulti hopened
    obtain ⟨rfl, rfl, rfl⟩ := Carrying.ok_of_pure hvalue
    rw [hseveral hmulti hopened]
    exact ⟨[], naming, by simp [SlotSchema.Carries, hmulti], rfl, .done hs⟩
  · rename_i hmulti hopened
    obtain ⟨es, _, _, hmap, hreturn⟩ := Carrying.ok_of_bind hvalue
    obtain ⟨rfl, rfl, rfl⟩ := Carrying.ok_of_pure hreturn
    obtain ⟨hlength, after, hperforms⟩ := hitems (hseveral hmulti hopened) hmap
    exact ⟨es, after, by simp [SlotSchema.Carries, hmulti], hlength, hperforms⟩
  · rename_i hmulti hopened
    obtain ⟨es, _, _, hmap, hreturn⟩ := Carrying.ok_of_bind hvalue
    obtain ⟨rfl, rfl, rfl⟩ := Carrying.ok_of_pure hreturn
    obtain ⟨hlength, after, hperforms⟩ := hitems (hseveral hmulti hopened) hmap
    exact ⟨es, after, by simp [SlotSchema.Carries, hmulti], hlength, hperforms⟩
  · exact absurd hvalue Carrying.ok_of_throw
  · rename_i hmulti
    have htargets : slot.targets past.heap v = [v] := by simp [SlotSchema.targets, hmulti]
    rw [htargets] at hnodes ⊢
    obtain ⟨after, hperforms⟩ := performs_referenceTo hins hnests howner
      (List.cons_subset.mp hnodes).1 hs hvalue
    exact ⟨[e], after, by simp [SlotSchema.Carries, hmulti], rfl, hperforms⟩

/-- A slot that refers to no objects holds the value of its attribute, and nothing is inserted. -/
theorem encodes_of_slotValue (hs : Midway world past keep avoided naming i s) {v : Value}
    (hslot : slot.reference = none) {e : EngineValue}
    (hrun : Carrying.runIn (slotValue insertNested slot v) world i s = (.ok (e, j), t)) :
    Encodes keep slot v e ∧ i = j ∧ s = t := by
  obtain ⟨_, _, _, hget, hvalue⟩ := Carrying.ok_of_bind hrun
  obtain ⟨rfl, rfl, rfl⟩ := Carrying.ok_of_getThe hget
  simp only [hslot] at hvalue
  unfold Encodes
  split at hvalue
  · rename_i hmulti hcontent
    obtain ⟨rfl, rfl, rfl⟩ := Carrying.ok_of_pure hvalue
    exact ⟨⟨s.heap, hs.amid.heap, by simp [hmulti, hcontent]⟩, rfl, rfl⟩
  · rename_i hother
    obtain ⟨hencoded, rfl, rfl⟩ := Carrying.ok_of_ofExcept hvalue
    refine ⟨⟨s.heap, hs.amid.heap, ?_⟩, rfl, rfl⟩
    split
    · rename_i hmulti hcontent
      exact absurd hcontent (hother hmulti)
    · exact hencoded

/-! ### Objects -/

theorem ok_of_attributeOf {object v : Value} {attr : String}
    (hrun : (attributeOf object attr).runIn world s = (.ok v, t)) :
    s.heap.attribute? object attr = some v ∧ s = t := by
  obtain ⟨_, _, hget, hfound⟩ := ok_of_bind hrun
  cases hget
  dsimp only at hfound
  split at hfound
  · rename_i w hattr
    cases hfound
    exact ⟨hattr, rfl⟩
  · cases hfound

/-- The slots of an object from a position on are the insertion of what they refer to. -/
theorem performs_overrides (hins : Insertable world past root keep avoided)
    (hnests : Nests world past root keep avoided depth insertNested)
    (howner : (past.objectGraph world).Reaches root owner) {schema : ClassSchema}
    (hschema : (past.objectGraph world).schemaOf owner.value = some schema) {position : Nat}
    {slots : List SlotSchema} (hslots : schema.slots.drop position = slots)
    (hs : Midway world past keep avoided naming i s) {terms : List (String × Term)}
    (hrun : Carrying.runIn (overrides insertNested owner.value slots) world i s =
      (.ok (terms, j), t)) :
    ∃ es after, Fills (past.objectGraph world) (Encodes keep) owner position slots es terms ∧
      Performs world past keep avoided depth naming after
        ((past.objectGraph world).nodesFrom owner position slots) es s j t := by
  induction slots generalizing position naming i s terms with
  | nil =>
    obtain ⟨rfl, rfl, rfl⟩ := Carrying.ok_of_pure hrun
    exact ⟨[], naming, .done position, .done hs⟩
  | cons slot rest ih =>
    obtain ⟨v, _, _, hattribute, hvalue⟩ := Carrying.ok_of_bind hrun
    obtain ⟨hattributeOf, rfl⟩ := Carrying.ok_of_lift hattribute
    obtain ⟨hattr, rfl⟩ := ok_of_attributeOf hattributeOf
    rw [attribute?_of_agrees (hins.agrees _ hs.amid.heap) howner.meets] at hattr
    obtain ⟨e, _, _, hslotValue, hterm⟩ := Carrying.ok_of_bind hvalue
    obtain ⟨t, _, _, hofExcept, hothers⟩ := Carrying.ok_of_bind hterm
    obtain ⟨hrendered, rfl, rfl⟩ := Carrying.ok_of_ofExcept hofExcept
    obtain ⟨others, _, _, hrest, hreturn⟩ := Carrying.ok_of_bind hothers
    obtain ⟨rfl, rfl, rfl⟩ := Carrying.ok_of_pure hreturn
    have hdrop : schema.slots.drop (position + 1) = rest := by
      rw [← List.drop_drop, hslots, List.drop_one, List.tail_cons]
    have hposition : schema.slots[position]? = some slot := by
      rw [← List.head?_drop, hslots, List.head?_cons]
    obtain rfl := EngineValue.value_of_term hrendered
    cases hreference : slot.reference with
    | none =>
      obtain ⟨hencodes, rfl, rfl⟩ := encodes_of_slotValue hs hreference hslotValue
      obtain ⟨es, after, hfills, hperforms⟩ := ih hdrop hs hrest
      refine ⟨es, after, .plain hreference hattr hencodes hfills, ?_⟩
      have hempty : (past.objectGraph world).slotNodes owner position slot = [] := by
        simp [slotNodes, hreference]
      rwa [nodesFrom, hempty, List.nil_append]
    | some reference =>
      have hsome : slot.reference.isSome := by simp [hreference]
      have hnodes : (past.objectGraph world).slotNodes owner position slot ⊆
          (past.objectGraph world).nodes owner := by
        intro b hb
        rw [nodes_of_schemaOf hschema]
        exact mem_nodesFrom_of_mem_slotNodes (Nat.zero_le _) (by simpa using hposition) hb
      have hmeets : (past.objectGraph world).Meets root v :=
        .field howner hschema (List.mem_of_getElem? hposition) hsome hattr
      obtain ⟨values, between, hcarries, hlength, hfirst⟩ :=
        performs_slotValue hins hnests howner hsome hattr hmeets hnodes hs hslotValue
      obtain ⟨es, after, hfills, hlater⟩ := ih hdrop hfirst.1 hrest
      exact ⟨values ++ es, after, .reference hsome hlength hcarries hfills, hfirst.append hlater⟩

/-- The insertion of an object that another one refers to. -/
def insertNestedWithin (depth : Nat) (v : Value) : Inserting String := do
  let opened := (← getThe State).heap.opened v
  let types := (← read).types
  match opened.structType? types with
  | some h => return (← insertWithin depth v h .none).name
  | none => throw (.unsupported (opened.unfit types))

/-- The name that an object is to have, a fresh one where the absent value is given. -/
def nameFor : Value → Inserting (Except Error String)
  | .none => Except.ok <$> freshName
  | v => pure v.matchable

/-- The insertion of an object once its name is known. -/
def insertNamed (depth : Nat) (object : Value) (schema : ClassSchema)
    (name : Except Error String) : Inserting InstanceHandle := do
  giveName object name
  let slots ← overrides (insertNestedWithin depth) object schema.slots
  createInstance (.makeInstance (some (← ofExcept name)) schema.name slots)

theorem insertWithin_succ (depth : Nat) (object : Value) (type : Hint) (name : Value) :
    insertWithin (depth + 1) object type name = (do
      let schema ← prepare type
      let given ← nameFor name
      insertNamed depth object schema given) := by
  unfold insertWithin
  cases name <;> rfl

theorem Midway.giveName {given : String} (hs : Midway world past keep avoided naming i s)
    (hins : Insertable world past root keep avoided)
    (hb : (past.objectGraph world).Reaches root b)
    (hgiven : Issued world.engine past.history avoided s.history given) {u : PUnit}
    (hrun : Carrying.runIn (giveName b.value (.ok given)) world i s = (.ok (u, j), t)) :
    Midway world past keep avoided ((b.id, given) :: naming) j t ∧ s = t := by
  have hissued : ∀ name ∈ ((b.id, given) :: naming).map (·.2),
      Issued world.engine past.history avoided s.history name := by
    intro name hmem
    obtain rfl | hmem := List.mem_cons.mp hmem
    · exact hgiven
    · exact hs.issued name hmem
  unfold RuleMarshal.giveName at hrun
  cases hcell : b.value.cell? with
  | some id =>
    rw [hcell] at hrun
    obtain ⟨rfl, rfl⟩ := Carrying.ok_of_modify hrun
    refine ⟨⟨hs.amid, ?_, hissued⟩, rfl⟩
    rw [hs.names, (hb.id_eq_cell hins.placed id).mpr hcell]
    rfl
  | none =>
    rw [hcell] at hrun
    obtain ⟨-, rfl, rfl⟩ := Carrying.ok_of_pure hrun
    refine ⟨⟨hs.amid, ?_, hissued⟩, rfl⟩
    rw [hs.names]
    unfold cellNames
    rw [List.filterMap_cons]
    split
    · rfl
    · rename_i hsome
      cases hid : b.id with
      | cell id => simp [(hb.id_eq_cell hins.placed id).mp hid] at hcell
      | root => simp [hid] at hsome
      | part => simp [hid] at hsome

/-- An insertion under a name that is known. -/
theorem performs_insertNamed (hins : Insertable world past root keep avoided)
    (hnests : Nests world past root keep avoided depth (insertNestedWithin depth))
    (hb : (past.objectGraph world).Reaches root b)
    (hpresent : (past.objectGraph world).IsPresent b.value) {schema : ClassSchema}
    (hschema : (past.objectGraph world).schemaOf b.value = some schema)
    (hs : Midway world past keep avoided naming i s)
    (hnew : b.value.cell?.isSome → b.id ∉ naming.map (·.1)) {name : Except Error String}
    (hname : ∀ given, name = .ok given →
      given ∉ naming.map (·.2) ∧ Issued world.engine past.history avoided s.history given)
    {handle : InstanceHandle}
    (hrun : Carrying.runIn (insertNamed depth b.value schema name) world i s =
      (.ok (handle, j), t)) :
    ∃ after, Performs world past keep avoided (depth + 1) naming after [b]
      [.instanceName handle.name] s j t := by
  obtain ⟨_, _, _, hgive, hmake⟩ := Carrying.ok_of_bind hrun
  obtain ⟨terms, _, _, hoverrides, hcreate⟩ := Carrying.ok_of_bind hmake
  obtain ⟨given, _, _, hgiven, hinstance⟩ := Carrying.ok_of_bind hcreate
  obtain ⟨rfl, rfl, rfl⟩ := Carrying.ok_of_ofExcept hgiven
  obtain ⟨hcreated, rfl⟩ := Carrying.ok_of_lift hinstance
  obtain ⟨hunused, hissued⟩ := hname given rfl
  obtain ⟨hnamed, rfl⟩ := hs.giveName hins hb hissued hgive
  obtain ⟨es, after, hfills, hafter, made, hinserts, hcreations⟩ :=
    performs_overrides hins hnests hb hschema List.drop_zero hnamed hoverrides
  obtain ⟨hhandle, hcreation⟩ := ok_of_createInstance hins.orderly
    (fun v ↦ hins.asAsked _ _ _ _ v hafter.amid.history) hcreated
  have hgrows := ((keeps_createInstance hins.orderly (by decide) _).of_runIn hcreated :
    Evolves world.setup .acting _ _).history_grows
  have hamid := (hins.calm.keeps_createInstance hins.orderly _).of_runIn hcreated hafter.amid
  refine ⟨after, ⟨hamid, hafter.names, fun name hmem ↦ (hafter.issued name hmem).mono hgrows⟩,
    made ++ [⟨b, given, schema.name, terms⟩], ?_, ?_⟩
  · rw [hhandle]
    rw [← nodes_of_schemaOf hschema] at hinserts
    exact .first hpresent hschema hnew hunused hinserts hfills (.done _ after)
  · rw [hcreation, hcreations, List.map_append, List.append_assoc]
    rfl

theorem atom_of_structType? {v : Value} {types : TypeTable} {h : Hint}
    (htype : v.structType? types = some h) : ∃ a, h = .atom a := by
  unfold Value.structType? at htype
  split at htype
  · split at htype
    · cases htype
      exact ⟨_, rfl⟩
    · cases htype
  · obtain ⟨kind, -, rfl⟩ := Option.map_eq_some_iff.mp htype
    exact ⟨_, rfl⟩
  · cases htype

/-- The schema of an object on some heap is what was remembered of its type. -/
theorem State.schemaOf_of_structType? {past : State} {world : World} {heap : Heap} {v : Value}
    {type : Hint} (htype : (heap.opened v).structType? world.types = some type) :
    ObjectGraph.schemaOf { past.objectGraph world with heap } v =
      past.memo.schema? world.types world.config.tags type := by
  change Option.bind ((heap.opened v).structType? world.types) _ = _
  rw [htype]
  rfl

/-- The insertion of a nested object is a traversal if insertions under fresh names are. -/
theorem nests_insertNestedWithin (hins : Insertable world past root keep avoided)
    (hinsert : ∀ {c : ObjectNode} {naming : Naming} {i j : Insertion} {s t : State} {type : Hint}
      {handle : InstanceHandle}, (past.objectGraph world).Reaches root c →
      (past.objectGraph world).IsPresent c.value →
      (past.heap.opened c.value).structType? world.types = some type →
      Midway world past keep avoided naming i s → (c.value.cell?.isSome → c.id ∉ naming.map (·.1)) →
      Carrying.runIn (insertWithin depth c.value type .none) world i s = (.ok (handle, j), t) →
      ∃ after, Performs world past keep avoided depth naming after [c]
      [.instanceName handle.name] s j t) :
    Nests world past root keep avoided depth (insertNestedWithin depth) := by
  intro c naming i j s t name hc hpresent hs hnew hrun
  obtain ⟨_, _, _, hget, hopened⟩ := Carrying.ok_of_bind hrun
  obtain ⟨rfl, rfl, rfl⟩ := Carrying.ok_of_getThe hget
  obtain ⟨_, _, _, hread, htyped⟩ := Carrying.ok_of_bind hopened
  obtain ⟨rfl, rfl, rfl⟩ := Carrying.ok_of_read hread
  have hsame := opened_of_agrees (hins.agrees _ hs.amid.heap) hc.meets
  rw [hsame] at htyped
  dsimp only at htyped
  split at htyped
  · rename_i type htype
    obtain ⟨handle, _, _, hinserted, hreturn⟩ := Carrying.ok_of_bind htyped
    obtain ⟨rfl, rfl, rfl⟩ := Carrying.ok_of_pure hreturn
    exact hinsert hc hpresent htype hs hnew hinserted
  · exact absurd htyped Carrying.ok_of_throw

/-- A name is the one that was asked for, or a fresh one. -/
theorem ok_of_nameFor {name : Value} {given : Except Error String}
    (hrun : Carrying.runIn (nameFor name) world i s = (.ok (given, j), t)) :
    (given = name.matchable ∧ i = j ∧ s = t) ∨
      ∃ fresh, given = .ok fresh ∧ i = j ∧ freshName.runIn world s = (.ok fresh, t) := by
  unfold nameFor at hrun
  split at hrun
  · obtain ⟨fresh, rfl, hlift⟩ := Carrying.ok_of_map hrun
    obtain ⟨hfresh, rfl⟩ := Carrying.ok_of_lift hlift
    exact .inr ⟨fresh, rfl, rfl, hfresh⟩
  · obtain ⟨rfl, rfl, rfl⟩ := Carrying.ok_of_pure hrun
    exact .inl ⟨rfl, rfl, rfl⟩

/-- An insertion that succeeds is a traversal of what it inserts. -/
theorem performs_insertWithin (hins : Insertable world past root keep avoided) (depth : Nat)
    {type : Hint} {name : Value} {handle : InstanceHandle}
    (hb : (past.objectGraph world).Reaches root b)
    (hpresent : (past.objectGraph world).IsPresent b.value)
    (htype : (past.heap.opened b.value).structType? world.types = some type)
    (hs : Midway world past keep avoided naming i s)
    (hnew : b.value.cell?.isSome → b.id ∉ naming.map (·.1))
    (hname : ∀ given, name.matchable = .ok given → avoided given ∧ given ∉ naming.map (·.2))
    (hrun : Carrying.runIn (insertWithin depth b.value type name) world i s =
      (.ok (handle, j), t)) :
    ∃ after, Performs world past keep avoided depth naming after [b]
      [.instanceName handle.name] s j t := by
  induction depth generalizing b naming i j s t type name handle with
  | zero => exact absurd hrun Carrying.ok_of_throw
  | succ depth ih =>
    rw [insertWithin_succ] at hrun
    obtain ⟨schema, _, _, hprepare, hnameFor⟩ := Carrying.ok_of_bind hrun
    obtain ⟨given, _, _, hgiven, hinsert⟩ := Carrying.ok_of_bind hnameFor
    obtain ⟨hreflected, hnames⟩ := ok_of_prepare hprepare
    have hframe := hins.orderly.frame .asking
    have hasked := (hframe.prepare type i).of_runIn hprepare
    have hprepared := hs.ask hasked
      (((hins.calm.frame hins.orderly).prepare type i).of_runIn hprepare hs.amid) hnames
    have hschema : (past.objectGraph world).schemaOf b.value = some schema := by
      obtain ⟨a, rfl⟩ := atom_of_structType? htype
      exact (State.schemaOf_of_structType? htype).trans (hs.amid.schemas a ▸ hreflected)
    have hunnamed {naming : Naming} (given : String) (hgiven : Value.none.matchable = .ok given) :
        avoided given ∧ given ∉ naming.map (·.2) :=
      absurd hgiven (by simp [Value.matchable, Value.text?])
    have hnests : Nests world past root keep avoided depth (insertNestedWithin depth) :=
      nests_insertNestedWithin hins fun hc hpresent htype hs hnew hrun ↦
        ih hc hpresent htype hs hnew hunnamed hrun
    obtain ⟨rfl, rfl, rfl⟩ | ⟨fresh, rfl, rfl, hfresh⟩ := ok_of_nameFor hgiven
    · obtain ⟨after, hperforms⟩ := performs_insertNamed hins hnests hb hpresent hschema hprepared
        hnew (fun given hok ↦ ⟨(hname given hok).2, .inl (hname given hok).1⟩) hinsert
      exact ⟨after, hperforms.ofAsking hasked⟩
    · have hanswer := fun v ↦ hins.fresh.isSymbol _ v hprepared.amid.history
      obtain ⟨houtcome, hgrows⟩ := ok_of_freshName hins.orderly hanswer hfresh
      have hnamed := hprepared.ask (hframe.freshName.of_runIn hfresh)
        ((hins.calm.frame hins.orderly).freshName.of_runIn hfresh hprepared.amid) rfl
      have hunused : fresh ∉ naming.map (·.2) := fun hmem ↦
        hins.fresh.not_issued hprepared.amid.history houtcome (hprepared.issued _ hmem)
      obtain ⟨after, hperforms⟩ := performs_insertNamed hins hnests hb hpresent hschema hnamed hnew
        (fun given hok ↦ by
          cases hok
          exact ⟨hunused, .inr ⟨_, hprepared.amid.history, hgrows, houtcome⟩⟩) hinsert
      exact ⟨after, hperforms.ofAsking (.trans hasked (hframe.freshName.of_runIn hfresh))⟩

end

end RuleMarshal
