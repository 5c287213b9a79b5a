import Mathlib.Data.List.Forall2
import RuleMarshal.Proofs.Insertion.Graph
/-!
The traversal of an object graph by an insertion, apart from all communication. Nodes are looked at
one after the other; one that was not named before is named, what it refers to is inserted, and then
its instance is made (`Inserts`). An object is named before its slots are visited, so that a
reference back to it finds its name.

What a traversal has done is read off by induction on it: what was named was made, and nothing else
(`Inserts.added`), nothing is named twice (`Inserts.nodup`), what a slot holds are the names of what
it refers to (`Inserts.denotes`, `Inserts.settled`), what was made is what is reached
(`Inserts.reaches`, `Inserts.mem_of_reaches`), and it was made before the object whose slot reached
it first (`Inserts.walks`).
-/

set_option autoImplicit false
set_option relaxedAutoImplicit false

namespace RuleMarshal

open ObjectGraph

/-- The names that objects were given, by their identities, the last one first. -/
abbrev Naming := List (Identity × String)

/-- An instance that an insertion made: of what object, under what name, of what class and with what
slots. -/
structure Made where
  node : ObjectNode
  name : String
  className : String
  slots : List (String × Term)

/-- The names that instances were made under. -/
def namingOf (made : List Made) : Naming := made.map fun m ↦ (m.node.id, m.name)

/-- Whether a slot that refers to objects holds values, all of them or the only one. -/
def SlotSchema.Carries (slot : SlotSchema) (values : List EngineValue) (v : EngineValue) : Prop :=
  if slot.multi then v = .multifield values else values = [v]

section

variable (g : ObjectGraph)

/-- Whether a value stands for a node: nil for the absent value, else the name that was given to
it. -/
def Denotes (naming : Naming) (n : ObjectNode) (v : EngineValue) : Prop :=
  (g.heap.opened n.value = .none ∧ v = .nil) ∨
    (g.IsPresent n.value ∧ ∃ name, (n.id, name) ∈ naming ∧ v = .instanceName name)

variable (plain : SlotSchema → Value → EngineValue → Prop)

/-- Slots with their terms, for the values of what they refer to, all in order. Slots that refer to
no objects hold what fits their attributes. -/
inductive Fills (owner : ObjectNode) :
    Nat → List SlotSchema → List EngineValue → List (String × Term) → Prop
  | done (position : Nat) : Fills owner position [] [] []
  | plain {position : Nat} {slot : SlotSchema} {rest : List SlotSchema} {es : List EngineValue}
      {others : List (String × Term)} {v : Value} {t : Term} (href : slot.reference = none)
      (hattr : g.heap.attribute? owner.value slot.attr = some v) (hplain : plain slot v t.value)
      (hrest : Fills owner (position + 1) rest es others) :
      Fills owner position (slot :: rest) es ((slot.name, t) :: others)
  | reference {position : Nat} {slot : SlotSchema} {rest : List SlotSchema}
      {values es : List EngineValue} {others : List (String × Term)} {t : Term}
      (href : slot.reference.isSome)
      (hlength : (g.slotNodes owner position slot).length = values.length)
      (hcarries : slot.Carries values t.value)
      (hrest : Fills owner (position + 1) rest es others) :
      Fills owner position (slot :: rest) (values ++ es) ((slot.name, t) :: others)

/-- The insertion of nodes one after the other, with at most the given number of objects begun one
inside the other: the names given before, the nodes, the values that they come to, the instances
that are made in order, and the names given in the end. -/
inductive Inserts :
    Nat → Naming → List ObjectNode → List EngineValue → List Made → Naming → Prop
  | done (depth : Nat) (naming : Naming) : Inserts depth naming [] [] [] naming
  | absent {depth : Nat} {naming after : Naming} {n : ObjectNode} {rest : List ObjectNode}
      {es : List EngineValue} {made : List Made} (habsent : g.heap.opened n.value = .none)
      (hrest : Inserts depth naming rest es made after) :
      Inserts depth naming (n :: rest) (.nil :: es) made after
  | again {depth : Nat} {naming after : Naming} {n : ObjectNode} {rest : List ObjectNode}
      {es : List EngineValue} {made : List Made} {name : String}
      (hpresent : g.IsPresent n.value) (hnamed : (n.id, name) ∈ naming)
      (hrest : Inserts depth naming rest es made after) :
      Inserts depth naming (n :: rest) (.instanceName name :: es) made after
  | first {depth : Nat} {naming between after : Naming} {n : ObjectNode} {rest : List ObjectNode}
      {nested es : List EngineValue} {inside made : List Made} {name : String}
      {schema : ClassSchema} {slots : List (String × Term)} (hpresent : g.IsPresent n.value)
      (hschema : g.schemaOf n.value = some schema)
      (hnew : n.value.cell?.isSome → n.id ∉ naming.map (·.1)) (hname : name ∉ naming.map (·.2))
      (hinside : Inserts depth ((n.id, name) :: naming) (g.nodes n) nested inside between)
      (hfills : Fills g plain n 0 schema.slots nested slots)
      (hrest : Inserts (depth + 1) between rest es made after) :
      Inserts (depth + 1) naming (n :: rest) (.instanceName name :: es)
        (inside ++ ⟨n, name, schema.name, slots⟩ :: made) after

end

section

variable {g : ObjectGraph} {plain : SlotSchema → Value → EngineValue → Prop}
variable {naming after : Naming} {nodes : List ObjectNode} {es : List EngineValue}
variable {made : List Made} {depth : Nat}

/-! ### What is named -/

/-- What a traversal names is what it makes. -/
theorem Inserts.added (h : Inserts g plain depth naming nodes es made after) :
    ∃ added, after = added ++ naming ∧ added.Perm (namingOf made) := by
  induction h with
  | done _ naming => exact ⟨[], rfl, .refl _⟩
  | absent habsent hrest ih => exact ih
  | again hpresent hnamed hrest ih => exact ih
  | @first depth naming between after n rest nested es inside made name schema
      slots hpresent hschema hnew hname hinside hfills hrest ihinside ihrest =>
    obtain ⟨added, rfl, hadded⟩ := ihinside
    obtain ⟨later, rfl, hlater⟩ := ihrest
    refine ⟨later ++ added ++ [(n.id, name)], by simp, ?_⟩
    have hnamed : (later ++ added ++ [(n.id, name)]).Perm ((added ++ [(n.id, name)]) ++ later) := by
      rw [List.append_assoc]
      exact List.perm_append_comm
    have hmade : ((added ++ [(n.id, name)]) ++ later).Perm
        ((namingOf inside ++ [(n.id, name)]) ++ namingOf made) :=
      (hadded.append_right _).append hlater
    simpa [namingOf] using hnamed.trans hmade

theorem Inserts.subset (h : Inserts g plain depth naming nodes es made after) : naming ⊆ after := by
  obtain ⟨added, rfl, -⟩ := h.added
  exact List.subset_append_right _ _

theorem Inserts.namingOf_subset (h : Inserts g plain depth naming nodes es made after) :
    namingOf made ⊆ after := by
  obtain ⟨added, rfl, hadded⟩ := h.added
  exact fun p hp ↦ List.mem_append_left _ (hadded.mem_iff.mpr hp)

/-- No name is given twice. -/
theorem Inserts.nodup_names (h : Inserts g plain depth naming nodes es made after)
    (hnodup : (naming.map (·.2)).Nodup) : (after.map (·.2)).Nodup := by
  induction h with
  | done => exact hnodup
  | absent habsent hrest ih => exact ih hnodup
  | again hpresent hnamed hrest ih => exact ih hnodup
  | first hpresent hschema hnew hname hinside hfills hrest ihinside ihrest =>
    exact ihrest (ihinside (List.nodup_cons.mpr ⟨hname, hnodup⟩))

/-! ### One after the other -/

/-- The insertion of nodes in two parts is that of the one part and then of the other. -/
theorem Inserts.split {xs ys : List ObjectNode}
    (h : Inserts g plain depth naming (xs ++ ys) es made after) :
    ∃ first later inside outside between, es = first ++ later ∧ made = inside ++ outside ∧
      first.length = xs.length ∧ Inserts g plain depth naming xs first inside between ∧
      Inserts g plain depth between ys later outside after := by
  induction xs generalizing naming es made with
  | nil => exact ⟨[], es, [], made, naming, rfl, rfl, rfl, .done depth naming, h⟩
  | cons n rest ih =>
    cases h with
    | absent habsent hrest =>
      obtain ⟨first, later, inside, outside, between, rfl, rfl, hlength, hfirst, hlater⟩ := ih hrest
      exact ⟨_ :: first, later, inside, outside, between, rfl, rfl, congrArg Nat.succ hlength,
        .absent habsent hfirst, hlater⟩
    | again hpresent hnamed hrest =>
      obtain ⟨first, later, inside, outside, between, rfl, rfl, hlength, hfirst, hlater⟩ := ih hrest
      exact ⟨_ :: first, later, inside, outside, between, rfl, rfl, congrArg Nat.succ hlength,
        .again hpresent hnamed hfirst, hlater⟩
    | first hpresent hschema hnew hname hinside hfills hrest =>
      obtain ⟨first, later, inside, outside, between, rfl, rfl, hlength, hfirst, hlater⟩ := ih hrest
      exact ⟨_ :: first, later, _, outside, between, rfl,
        by rw [List.append_assoc, List.cons_append],
        congrArg Nat.succ hlength, .first hpresent hschema hnew hname hinside hfills hfirst, hlater⟩

/-! ### Identities -/

/-- Nodes of an owner that was named and whose parts among them were not. -/
structure Pending (naming : Naming) (owner : Identity) (nodes : List ObjectNode) : Prop where
  hangs : Hangs owner nodes
  nodup : (naming.map (·.1)).Nodup
  owner : owner ∈ naming.map (·.1)
  parts : ∀ n ∈ nodes, n.value.cell? = none → n.id ∉ naming.map (·.1)
  closed : ∀ x position item, x.part position item ∈ naming.map (·.1) → x ∈ naming.map (·.1)

/-- A naming that went on to name nodes, and what their parts were named for. -/
structure Extends (naming after : Naming) (nodes : List ObjectNode) : Prop where
  nodup : (after.map (·.1)).Nodup
  subset : naming ⊆ after
  parts : ∀ x position item, x.part position item ∈ after.map (·.1) →
    x.part position item ∈ naming.map (·.1) ∨ (∃ n ∈ nodes, n.id = x.part position item) ∨
      (x ∉ naming.map (·.1) ∧ x ∈ after.map (·.1))

theorem ObjectGraph.Hangs.part_owner {owner x : Identity} {position item : Nat} {n : ObjectNode}
    (hhangs : Hangs owner nodes) (hn : n ∈ nodes) (hid : n.id = x.part position item) :
    n.value.cell? = none ∧ x = owner := by
  obtain ⟨k, other, hplace⟩ := hhangs.place n hn
  obtain ⟨hcell, hsame⟩ := identityAt_part (hplace.symm.trans hid)
  injection hsame with howner
  exact ⟨hcell, howner.symm⟩

section

variable {owner : Identity} {n : ObjectNode} {rest : List ObjectNode} {name : String}
variable (hpending : Pending naming owner (n :: rest))
variable (hnew : n.value.cell?.isSome → n.id ∉ naming.map (·.1))

theorem Pending.tail (hpending : Pending naming owner (n :: rest)) : Pending naming owner rest where
  hangs := ⟨fun m hm ↦ hpending.hangs.place m (List.mem_cons_of_mem n hm),
    (List.pairwise_cons.mp hpending.hangs.apart).2⟩
  nodup := hpending.nodup
  owner := hpending.owner
  parts m hm := hpending.parts m (List.mem_cons_of_mem n hm)
  closed := hpending.closed

include hpending hnew

theorem Pending.notMem : n.id ∉ naming.map (·.1) := by
  cases hcell : n.value.cell? with
  | none => exact hpending.parts n List.mem_cons_self hcell
  | some id => exact hnew (by simp [hcell])

/-- What a node refers to is pending once the node is named. -/
theorem Pending.inside : Pending ((n.id, name) :: naming) n.id (g.nodes n) where
  hangs := hangs_nodes n
  nodup := List.nodup_cons.mpr ⟨hpending.notMem hnew, hpending.nodup⟩
  owner := List.mem_cons_self
  parts m hm hcell hmem := by
    obtain ⟨position, item, hplace⟩ := (hangs_nodes n).place m hm
    rw [identityAt_of_no_cell hcell] at hplace
    rw [hplace, List.map_cons, List.mem_cons] at hmem
    obtain hsame | hmem := hmem
    · exact n.id.part_ne position item hsame
    · exact hpending.notMem hnew (hpending.closed _ _ _ hmem)
  closed x position item hmem := by
    rw [List.map_cons, List.mem_cons] at hmem ⊢
    obtain hsame | hmem := hmem
    · obtain ⟨-, rfl⟩ := hpending.hangs.part_owner List.mem_cons_self hsame.symm
      exact .inr hpending.owner
    · exact .inr (hpending.closed x position item hmem)

/-- What comes after a node stays pending while the node is inserted. -/
theorem Pending.next {between : Naming}
    (hextends : Extends ((n.id, name) :: naming) between (g.nodes n)) :
    Pending between owner rest where
  hangs := hpending.tail.hangs
  nodup := hextends.nodup
  owner := List.map_subset _ hextends.subset (List.mem_cons_of_mem _ hpending.owner)
  parts m hm hcell hmem := by
    obtain ⟨position, item, hplace⟩ := hpending.tail.hangs.place m hm
    rw [identityAt_of_no_cell hcell] at hplace
    have hapart := (List.pairwise_cons.mp hpending.hangs.apart).1 m hm
    rw [hplace] at hmem hapart
    obtain hmem | ⟨b, hb, hid⟩ | ⟨howner, -⟩ := hextends.parts owner position item hmem
    · rw [List.map_cons, List.mem_cons] at hmem
      obtain hsame | hmem := hmem
      · exact hapart (hpending.hangs.part_owner List.mem_cons_self hsame.symm).1 hsame.symm
      · exact hpending.tail.parts m hm hcell (hplace ▸ hmem)
    · obtain ⟨-, rfl⟩ := (hangs_nodes n).part_owner hb hid
      exact hpending.notMem hnew hpending.owner
    · exact howner (List.mem_cons_of_mem _ hpending.owner)
  closed x position item hmem := by
    have hsubset := List.map_subset (·.1) hextends.subset
    obtain hmem | ⟨b, hb, hid⟩ | ⟨-, hmem⟩ := hextends.parts x position item hmem
    · have hinside : Pending ((n.id, name) :: naming) n.id (g.nodes n) := hpending.inside hnew
      exact hsubset (hinside.closed x position item hmem)
    · obtain ⟨-, rfl⟩ := (hangs_nodes n).part_owner hb hid
      exact hsubset List.mem_cons_self
    · exact hmem

end

/-- Nothing is named twice. -/
theorem Inserts.extends {owner : Identity} (h : Inserts g plain depth naming nodes es made after)
    (hpending : Pending naming owner nodes) : Extends naming after nodes := by
  induction h generalizing owner with
  | done _ naming => exact ⟨hpending.nodup, fun _ hp ↦ hp, fun _ _ _ hmem ↦ .inl hmem⟩
  | absent habsent hrest ih =>
    obtain ⟨hnodup, hsubset, hparts⟩ := ih hpending.tail
    refine ⟨hnodup, hsubset, fun x position item hmem ↦ ?_⟩
    exact (hparts x position item hmem).imp_right (.imp_left fun ⟨n, hn, hid⟩ ↦
      ⟨n, List.mem_cons_of_mem _ hn, hid⟩)
  | again hpresent hnamed hrest ih =>
    obtain ⟨hnodup, hsubset, hparts⟩ := ih hpending.tail
    refine ⟨hnodup, hsubset, fun x position item hmem ↦ ?_⟩
    exact (hparts x position item hmem).imp_right (.imp_left fun ⟨n, hn, hid⟩ ↦
      ⟨n, List.mem_cons_of_mem _ hn, hid⟩)
  | first hpresent hschema hnew hname hinside hfills hrest ihinside ihrest =>
    have hfirst := ihinside (hpending.inside hnew)
    have hlater := ihrest (hpending.next hnew hfirst)
    have hsubset := List.map_subset (·.1) hlater.subset
    refine ⟨hlater.nodup, ?_, fun x position item hmem ↦ ?_⟩
    · exact List.Subset.trans (List.Subset.trans (List.subset_cons_self _ _) hfirst.subset)
        hlater.subset
    · obtain hmem | ⟨m, hm, hid⟩ | ⟨hx, hafter⟩ := hlater.parts x position item hmem
      · obtain hmem | ⟨m, hm, hid⟩ | ⟨hx, hbetween⟩ := hfirst.parts x position item hmem
        · rw [List.map_cons, List.mem_cons] at hmem
          obtain hsame | hmem := hmem
          · exact .inr (.inl ⟨_, List.mem_cons_self, hsame.symm⟩)
          · exact .inl hmem
        · obtain ⟨-, rfl⟩ := (hangs_nodes _).part_owner hm hid
          refine .inr (.inr ⟨hpending.notMem hnew, hsubset ?_⟩)
          exact List.map_subset (·.1) hfirst.subset List.mem_cons_self
        · exact .inr (.inr ⟨fun hbefore ↦ hx (List.mem_cons_of_mem _ hbefore), hsubset hbetween⟩)
      · exact .inr (.inl ⟨m, List.mem_cons_of_mem _ hm, hid⟩)
      · refine .inr (.inr ⟨fun hbefore ↦ hx ?_, hafter⟩)
        exact List.map_subset (·.1) hfirst.subset (List.mem_cons_of_mem _ hbefore)

/-! ### What stands in slots -/

theorem Denotes.mono {later : Naming} {n : ObjectNode} {v : EngineValue}
    (h : Denotes g naming n v) (hsubset : naming ⊆ later) : Denotes g later n v := by
  obtain h | ⟨hpresent, name, hmem, rfl⟩ := h
  · exact .inl h
  · exact .inr ⟨hpresent, name, hsubset hmem, rfl⟩

/-- The values that nodes come to stand for them. -/
theorem Inserts.denotes (h : Inserts g plain depth naming nodes es made after) :
    List.Forall₂ (Denotes g after) nodes es := by
  induction h with
  | done => exact .nil
  | absent habsent hrest ih => exact .cons (.inl ⟨habsent, rfl⟩) ih
  | again hpresent hnamed hrest ih =>
    exact .cons (.inr ⟨hpresent, _, hrest.subset hnamed, rfl⟩) ih
  | first hpresent hschema hnew hname hinside hfills hrest ihinside ihrest =>
    have hnamed := hrest.subset (hinside.subset List.mem_cons_self)
    exact .cons (.inr ⟨hpresent, _, hnamed, rfl⟩) ihrest

/-- Whether an instance was made as the schema of its object says, with the names of what the object
refers to. -/
def Settled (g : ObjectGraph) (plain : SlotSchema → Value → EngineValue → Prop) (naming : Naming)
    (m : Made) : Prop :=
  ∃ schema es, g.schemaOf m.node.value = some schema ∧ m.className = schema.name ∧
    Fills g plain m.node 0 schema.slots es m.slots ∧
    List.Forall₂ (Denotes g naming) (g.nodes m.node) es

theorem Settled.mono {later : Naming} {m : Made} (h : Settled g plain naming m)
    (hsubset : naming ⊆ later) : Settled g plain later m := by
  obtain ⟨schema, es, hschema, hclass, hfills, hdenotes⟩ := h
  exact ⟨schema, es, hschema, hclass, hfills, hdenotes.imp fun _ _ hn ↦ hn.mono hsubset⟩

/-- Every instance is made as the schema of its object says. -/
theorem Inserts.settled (h : Inserts g plain depth naming nodes es made after) :
    ∀ m ∈ made, Settled g plain after m := by
  induction h with
  | done => simp
  | absent habsent hrest ih => exact ih
  | again hpresent hnamed hrest ih => exact ih
  | first hpresent hschema hnew hname hinside hfills hrest ihinside ihrest =>
    intro m hm
    obtain hm | hm := List.mem_append.mp hm
    · exact (ihinside m hm).mono hrest.subset
    · obtain rfl | hm := List.mem_cons.mp hm
      · refine ⟨_, _, hschema, rfl, hfills, ?_⟩
        exact hinside.denotes.imp fun _ _ hn ↦ hn.mono hrest.subset
      · exact ihrest m hm

/-! ### What is reached -/

/-- What is made is reached. -/
theorem Inserts.reaches {root : ObjectNode} (h : Inserts g plain depth naming nodes es made after)
    (hnodes : ∀ n ∈ nodes, g.IsPresent n.value → g.Reaches root n) :
    ∀ m ∈ made, g.Reaches root m.node := by
  induction h with
  | done => simp
  | absent habsent hrest ih => exact ih fun n hn ↦ hnodes n (List.mem_cons_of_mem _ hn)
  | again hpresent hnamed hrest ih => exact ih fun n hn ↦ hnodes n (List.mem_cons_of_mem _ hn)
  | @first depth naming between after n rest nested es inside made name schema
      slots hpresent hschema hnew hname hinside hfills hrest ihinside ihrest =>
    have hn := hnodes n List.mem_cons_self hpresent
    intro m hm
    obtain hm | hm := List.mem_append.mp hm
    · exact ihinside (fun b hb hb' ↦ hn.tail ⟨hb, hb'⟩) m hm
    · obtain rfl | hm := List.mem_cons.mp hm
      · exact hn
      · exact ihrest (fun b hb ↦ hnodes b (List.mem_cons_of_mem _ hb)) m hm

/-- What an instance refers to is named. -/
theorem Settled.named {m : Made} {n : ObjectNode} (h : Settled g plain naming m)
    (hrefers : g.Refers m.node n) : n.id ∈ naming.map (·.1) := by
  obtain ⟨schema, es, -, -, -, hdenotes⟩ := h
  obtain ⟨k, hk, hn⟩ := List.getElem_of_mem hrefers.1
  obtain ⟨habsent, -⟩ | ⟨-, name, hmem, -⟩ :=
    (List.forall₂_iff_get.mp hdenotes).2 k hk (by rw [← hdenotes.length_eq]; exact hk)
  · exact absurd (by simpa [hn] using habsent) hrefers.2
  · rw [List.get_eq_getElem, hn] at hmem
    exact List.mem_map_of_mem hmem

/-! ### The order of making -/

theorem firstReference_append {walk other : List (Identity × Identity)} {id : Identity} :
    firstReference (walk ++ other) id = (firstReference walk id).or (firstReference other id) :=
  List.find?_append

theorem mem_of_firstReference {walk : List (Identity × Identity)} {id : Identity}
    {step : Identity × Identity} (hfirst : firstReference walk id = some step) :
    step.2 = id ∧ id ∈ walk.map (·.2) := by
  have hsame : step.2 = id := by simpa using List.find?_some hfirst
  exact ⟨hsame, List.mem_map.mpr ⟨step, List.mem_of_find?_eq_some hfirst, hsame⟩⟩

theorem firstReference_eq_none {walk : List (Identity × Identity)} {id : Identity}
    (hnone : firstReference walk id = none) : id ∉ walk.map (·.2) := by
  intro hmem
  obtain ⟨step, hstep, rfl⟩ := List.mem_map.mp hmem
  simpa using List.find?_eq_none.mp hnone step hstep

/-- A traversal follows a walk, and what the walk meets first in a slot of another object is made
before that object. -/
theorem Inserts.walks {owner : Identity} (h : Inserts g plain depth naming nodes es made after)
    (hpending : Pending naming owner nodes) :
    ∃ walk, g.Walks owner (naming.map (·.1)) nodes walk (after.map (·.1)) ∧
      ∀ id step, id ∉ naming.map (·.1) → firstReference walk id = some step →
        step.1 = owner ∨ [id, step.1].Sublist (made.map (·.node.id)) := by
  induction h generalizing owner with
  | done _ naming =>
    exact ⟨[], .done _ _, fun id step _ hfirst ↦ by simp [firstReference] at hfirst⟩
  | absent habsent hrest ih =>
    obtain ⟨walk, hwalk, horder⟩ := ih hpending.tail
    exact ⟨walk, .absent habsent hwalk, horder⟩
  | again hpresent hnamed hrest ih =>
    obtain ⟨walk, hwalk, horder⟩ := ih hpending.tail
    have hseen := List.mem_map_of_mem (f := (·.1)) hnamed
    refine ⟨_, .again hpresent hseen hwalk, fun id step hid hfirst ↦ ?_⟩
    refine horder id step hid ?_
    rwa [firstReference, List.find?_cons_of_neg] at hfirst
    simpa using fun hsame : _ = id ↦ hid (hsame ▸ hseen)
  | @first depth naming between after n rest nested es inside made name schema
      slots hpresent hschema hnew hname hinside hfills hrest ihinside ihrest =>
    obtain ⟨walk, hwalk, horder⟩ := ihinside (hpending.inside hnew)
    obtain ⟨later, hlater, horderLater⟩ :=
      ihrest (hpending.next hnew (hinside.extends (hpending.inside hnew)))
    refine ⟨_, .first hpresent (hpending.notMem hnew) hwalk hlater, fun id step hid hfirst ↦ ?_⟩
    have hids : (inside ++ ⟨n, name, schema.name, slots⟩ :: made).map (·.node.id) =
        inside.map (·.node.id) ++ n.id :: made.map (·.node.id) := by
      simp
    by_cases hsame : n.id = id
    · rw [firstReference, List.find?_cons_of_pos (by simpa using hsame)] at hfirst
      cases hfirst
      exact .inl rfl
    · rw [firstReference, List.find?_cons_of_neg (by simpa using hsame)] at hfirst
      change firstReference (walk ++ later) id = some step at hfirst
      rw [firstReference_append] at hfirst
      have hunseen : id ∉ ((n.id, name) :: naming).map (·.1) := by
        simpa using ⟨Ne.symm hsame, by simpa using hid⟩
      cases hwalked : firstReference walk id with
      | some found =>
        obtain rfl : found = step := by simpa [hwalked] using hfirst
        rw [hids]
        obtain hn | hsub := horder id found hunseen hwalked
        · have hmade : id ∈ inside.map (·.node.id) := by
            have hafter := hwalk.mem_seen.mpr (.inr (mem_of_firstReference hwalked).2)
            obtain ⟨added, rfl, hadded⟩ := hinside.added
            rw [List.map_append, List.mem_append] at hafter
            have hperm := hadded.map (·.1)
            rw [namingOf, List.map_map] at hperm
            exact hperm.mem_iff.mp (hafter.resolve_right hunseen)
          rw [hn]
          refine .inr ?_
          exact (List.singleton_sublist.mpr hmade).append
            (List.singleton_sublist.mpr List.mem_cons_self)
        · exact .inr (hsub.trans (List.sublist_append_left _ _))
      | none =>
        rw [hwalked, Option.none_or] at hfirst
        have hbetween : id ∉ between.map (·.1) := fun hmem ↦
          (hwalk.mem_seen.mp hmem).elim hunseen (firstReference_eq_none hwalked)
        rw [hids]
        refine (horderLater id step hbetween hfirst).imp_right fun hsub ↦ ?_
        exact hsub.trans ((List.sublist_cons_self _ _).trans (List.sublist_append_right _ _))

end

end RuleMarshal
