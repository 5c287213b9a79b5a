import Mathlib.Logic.Relation
import RuleMarshal.Environment.Insertion
/-!
Graphs of host objects. An object refers to what stands in its class-reference slots, in the order
of the slots and of the items in them, and a graph is what a root reaches that way, in any
arrangement. An object is told apart by its cell; one that is written out in a slot, without a cell
of its own, by the place where it stands (`Identity`). Every reference has a first one, in the order
in which a walk goes depth-first and from left to right (`Walks`).

A graph is read off one heap. On a later heap that has kept the cells that the graph has to do with
(`ObjectGraph.Agrees`), the same is read off (`opened_of_agrees`, `attribute?_of_agrees`).
-/

set_option autoImplicit false
set_option relaxedAutoImplicit false

namespace RuleMarshal

/-! ### Objects and references -/

/-- What tells an object of a graph apart. -/
inductive Identity where
  | cell (id : Nat)
  | root
  /-- An object without a cell, in a slot and at a position of another one. -/
  | part (owner : Identity) (slot item : Nat)
  deriving DecidableEq

theorem Identity.part_ne (owner : Identity) (slot item : Nat) : owner.part slot item ≠ owner := by
  intro heq
  have hsize := congrArg sizeOf heq
  simp at hsize
  omega

/-- The identity of a value that stands at a place. -/
def Value.identityAt (v : Value) (place : Identity) : Identity := (v.cell?.map .cell).getD place

/-- A value with its identity. -/
@[ext]
structure ObjectNode where
  id : Identity
  value : Value

/-- The attribute of an object, as far as it has one. -/
def Heap.attribute? (heap : Heap) (object : Value) (attr : String) : Option Value :=
  match heap.opened object with
  | .object _ id => (heap.attrs id).lookup attr
  | .engine v => v.attribute? attr
  | _ => none

/-- The items of a sequence; other values have none. -/
def Value.elements : Value → List Value
  | .list items | .tuple items => items
  | _ => []

/-- What a slot that refers to objects refers to where it holds a value. -/
def SlotSchema.targets (slot : SlotSchema) (heap : Heap) (v : Value) : List Value :=
  if slot.multi then (heap.opened v).elements else [v]

/-- What object graphs are read off: a heap, and what types and schemas the objects have. -/
structure ObjectGraph where
  heap : Heap
  types : TypeTable
  schema? : Hint → Option ClassSchema

/-- The parts of an owner in a slot, from a position on. -/
def partsFrom (owner : Identity) (slot item : Nat) : List Value → List ObjectNode
  | [] => []
  | v :: rest => ⟨v.identityAt (owner.part slot item), v⟩ :: partsFrom owner slot (item + 1) rest

namespace ObjectGraph

variable (g : ObjectGraph)

/-- The schema of the type of a value. -/
def schemaOf (v : Value) : Option ClassSchema :=
  ((g.heap.opened v).structType? g.types).bind g.schema?

/-- What an object refers to in one slot. -/
def slotNodes (owner : ObjectNode) (position : Nat) (slot : SlotSchema) : List ObjectNode :=
  match slot.reference, g.heap.attribute? owner.value slot.attr with
  | some _, some v => partsFrom owner.id position 0 (slot.targets g.heap v)
  | _, _ => []

/-- What an object refers to in its slots from a position on. -/
def nodesFrom (owner : ObjectNode) (position : Nat) : List SlotSchema → List ObjectNode
  | [] => []
  | slot :: rest => g.slotNodes owner position slot ++ nodesFrom owner (position + 1) rest

/-- What an object refers to, the absent value included. -/
def nodes (owner : ObjectNode) : List ObjectNode :=
  ((g.schemaOf owner.value).map fun schema ↦ g.nodesFrom owner 0 schema.slots).getD []

/-- Whether a value is there and not the absent one. -/
def IsPresent (v : Value) : Prop := g.heap.opened v ≠ .none

/-- Whether one object refers to another. -/
def Refers (a b : ObjectNode) : Prop := b ∈ g.nodes a ∧ g.IsPresent b.value

/-- What is reached from an object along references. -/
def Reaches : ObjectNode → ObjectNode → Prop := Relation.ReflTransGen g.Refers

/-- A walk along references from the nodes of an owner, with the identities that were seen before
and after it. What is seen for the first time is followed at once, before the nodes that come
next. -/
inductive Walks : Identity → List Identity → List ObjectNode → List (Identity × Identity) →
    List Identity → Prop
  | done (owner : Identity) (seen : List Identity) : Walks owner seen [] [] seen
  | absent {owner : Identity} {seen after : List Identity} {n : ObjectNode} {rest : List ObjectNode}
      {walk : List (Identity × Identity)} (habsent : g.heap.opened n.value = .none)
      (hrest : Walks owner seen rest walk after) : Walks owner seen (n :: rest) walk after
  | again {owner : Identity} {seen after : List Identity} {n : ObjectNode} {rest : List ObjectNode}
      {walk : List (Identity × Identity)} (hpresent : g.IsPresent n.value) (hseen : n.id ∈ seen)
      (hrest : Walks owner seen rest walk after) :
      Walks owner seen (n :: rest) ((owner, n.id) :: walk) after
  | first {owner : Identity} {seen between after : List Identity} {n : ObjectNode}
      {rest : List ObjectNode} {inside walk : List (Identity × Identity)}
      (hpresent : g.IsPresent n.value) (hnew : n.id ∉ seen)
      (hinside : Walks n.id (n.id :: seen) (g.nodes n) inside between)
      (hrest : Walks owner between rest walk after) :
      Walks owner seen (n :: rest) ((owner, n.id) :: (inside ++ walk)) after

end ObjectGraph

/-- The first reference to an object in a walk, with the object that it stands in. -/
def firstReference (walk : List (Identity × Identity)) (id : Identity) :
    Option (Identity × Identity) :=
  walk.find? fun step ↦ step.2 = id

namespace ObjectGraph

variable {g : ObjectGraph} {root owner a b n : ObjectNode} {schema : ClassSchema}

theorem nodes_of_schemaOf (hschema : g.schemaOf owner.value = some schema) :
    g.nodes owner = g.nodesFrom owner 0 schema.slots := by
  simp [nodes, hschema]

/-- What is seen after a walk was seen before it or is referred to in it. -/
theorem Walks.mem_seen {id : Identity} {seen after : List Identity} {nodes : List ObjectNode}
    {walk : List (Identity × Identity)} {place : Identity}
    (hwalk : g.Walks place seen nodes walk after) :
    id ∈ after ↔ id ∈ seen ∨ id ∈ walk.map (·.2) := by
  induction hwalk with
  | done => simp
  | absent habsent hrest ih => exact ih
  | again hpresent hseen hrest ih =>
    rw [ih, List.map_cons, List.mem_cons]
    constructor
    · rintro (h | h)
      · exact .inl h
      · exact .inr (.inr h)
    · rintro (h | rfl | h)
      · exact .inl h
      · exact .inl hseen
      · exact .inr h
  | first hpresent hnew hinside hrest ihinside ihrest =>
    rw [ihrest, ihinside]
    simp only [List.map_cons, List.map_append, List.mem_cons, List.mem_append]
    simp only [or_assoc, or_left_comm]

/-- A walk is determined by where it begins. -/
theorem Walks.unique {seen after after' : List Identity} {nodes : List ObjectNode}
    {walk walk' : List (Identity × Identity)} {place : Identity}
    (h : g.Walks place seen nodes walk after) (h' : g.Walks place seen nodes walk' after') :
    walk = walk' ∧ after = after' := by
  induction h generalizing walk' after' with
  | done => cases h'; exact ⟨rfl, rfl⟩
  | absent habsent hrest ih =>
    cases h' with
    | absent _ hrest' => exact ih hrest'
    | again hpresent => exact absurd habsent hpresent
    | first hpresent => exact absurd habsent hpresent
  | again hpresent hseen hrest ih =>
    cases h' with
    | absent habsent => exact absurd habsent hpresent
    | again _ _ hrest' =>
      obtain ⟨rfl, rfl⟩ := ih hrest'
      exact ⟨rfl, rfl⟩
    | first _ hnew => exact absurd hseen hnew
  | first hpresent hnew hinside hrest ihinside ihrest =>
    cases h' with
    | absent habsent => exact absurd habsent hpresent
    | again _ hseen => exact absurd hseen hnew
    | first _ _ hinside' hrest' =>
      obtain ⟨rfl, rfl⟩ := ihinside hinside'
      obtain ⟨rfl, rfl⟩ := ihrest hrest'
      exact ⟨rfl, rfl⟩

/-! ### Identities -/

theorem mem_partsFrom {place : Identity} {position item : Nat} {items : List Value}
    (hmem : n ∈ partsFrom place position item items) :
    ∃ k, item ≤ k ∧ items[k - item]? = some n.value ∧
      n.id = n.value.identityAt (place.part position k) := by
  induction items generalizing item with
  | nil => simp [partsFrom] at hmem
  | cons v rest ih =>
    rw [partsFrom, List.mem_cons] at hmem
    obtain rfl | hmem := hmem
    · exact ⟨item, Nat.le_refl _, by simp, rfl⟩
    · obtain ⟨k, hle, hitem, hid⟩ := ih hmem
      refine ⟨k, by omega, ?_, hid⟩
      rw [show k - item = (k - (item + 1)) + 1 by omega, List.getElem?_cons_succ]
      exact hitem

theorem mem_slotNodes {position : Nat} {slot : SlotSchema}
    (hmem : n ∈ g.slotNodes owner position slot) :
    slot.reference.isSome ∧ ∃ v, g.heap.attribute? owner.value slot.attr = some v ∧
      ∃ k, (slot.targets g.heap v)[k]? = some n.value ∧
        n.id = n.value.identityAt (owner.id.part position k) := by
  unfold slotNodes at hmem
  split at hmem
  · rename_i r v href hattr
    obtain ⟨k, -, hitem, hid⟩ := mem_partsFrom hmem
    exact ⟨by simp [href], v, hattr, k, hitem, hid⟩
  · simp at hmem

theorem mem_nodesFrom {position : Nat} {slots : List SlotSchema}
    (hmem : n ∈ g.nodesFrom owner position slots) :
    ∃ k slot, position ≤ k ∧ slots[k - position]? = some slot ∧ n ∈ g.slotNodes owner k slot := by
  induction slots generalizing position with
  | nil => simp [nodesFrom] at hmem
  | cons slot rest ih =>
    rw [nodesFrom, List.mem_append] at hmem
    obtain hmem | hmem := hmem
    · exact ⟨position, slot, Nat.le_refl _, by simp, hmem⟩
    · obtain ⟨k, found, hle, hslot, hfound⟩ := ih hmem
      refine ⟨k, found, by omega, ?_, hfound⟩
      rw [show k - position = (k - (position + 1)) + 1 by omega, List.getElem?_cons_succ]
      exact hslot

theorem mem_nodesFrom_of_mem_slotNodes {position k : Nat} {slots : List SlotSchema}
    {slot : SlotSchema} (hle : position ≤ k) (hslot : slots[k - position]? = some slot)
    (hmem : n ∈ g.slotNodes owner k slot) : n ∈ g.nodesFrom owner position slots := by
  induction slots generalizing position with
  | nil => simp at hslot
  | cons first rest ih =>
    rw [nodesFrom, List.mem_append]
    by_cases hsame : position = k
    · subst hsame
      obtain rfl : first = slot := by simpa using hslot
      exact .inl hmem
    · rw [show k - position = (k - (position + 1)) + 1 by omega, List.getElem?_cons_succ] at hslot
      exact .inr (ih (by omega) hslot)

/-- What stands in a slot of an owner, and where. -/
structure Stands (g : ObjectGraph) (owner n : ObjectNode) (position item : Nat) : Prop where
  place : n.id = n.value.identityAt (owner.id.part position item)
  value : ∃ schema slot v, g.schemaOf owner.value = some schema ∧
    schema.slots[position]? = some slot ∧ slot.reference.isSome ∧
    g.heap.attribute? owner.value slot.attr = some v ∧
    (slot.targets g.heap v)[item]? = some n.value

theorem stands_of_mem_nodes (hmem : n ∈ g.nodes owner) :
    ∃ position item, g.Stands owner n position item := by
  unfold nodes at hmem
  cases hschema : g.schemaOf owner.value with
  | none => simp [hschema] at hmem
  | some schema =>
    rw [hschema, Option.map_some, Option.getD_some] at hmem
    obtain ⟨position, slot, -, hslot, hmem⟩ := mem_nodesFrom hmem
    obtain ⟨href, v, hattr, item, hitem, hid⟩ := mem_slotNodes hmem
    exact ⟨position, item, hid, schema, slot, v, hschema, hslot, href, hattr, hitem⟩

/-- In one place of one owner stands one value. -/
theorem Stands.value_eq {position item : Nat} {other : ObjectNode}
    (hn : g.Stands owner n position item) (hvalue : owner.value = other.value)
    (hb : g.Stands other b position item) : n.value = b.value := by
  obtain ⟨schema, slot, v, hschema, hslot, -, hattr, hitem⟩ := hn.value
  obtain ⟨schema', slot', v', hschema', hslot', -, hattr', hitem'⟩ := hb.value
  rw [← hvalue] at hschema' hattr'
  obtain rfl : schema = schema' := by simpa [hschema] using hschema'
  obtain rfl : slot = slot' := by simpa [hslot] using hslot'
  obtain rfl : v = v' := by simpa [hattr] using hattr'
  simpa [hitem] using hitem'


/-- Nodes that hang on an owner: they have cells, or stand in places of the owner, each in one of
its own. -/
structure Hangs (owner : Identity) (nodes : List ObjectNode) : Prop where
  place : ∀ n ∈ nodes, ∃ position item, n.id = n.value.identityAt (owner.part position item)
  apart : nodes.Pairwise fun a b ↦ a.value.cell? = none → a.id ≠ b.id

theorem identityAt_of_cell? {v : Value} {id : Nat} {place : Identity} (hcell : v.cell? = some id) :
    v.identityAt place = .cell id := by
  simp [Value.identityAt, hcell]

theorem identityAt_of_no_cell {v : Value} {place : Identity} (hcell : v.cell? = none) :
    v.identityAt place = place := by
  simp [Value.identityAt, hcell]

theorem identityAt_part {v : Value} {place owner : Identity} {position item : Nat}
    (hid : v.identityAt place = owner.part position item) :
    v.cell? = none ∧ place = owner.part position item := by
  cases hcell : v.cell? with
  | none => exact ⟨rfl, by rwa [identityAt_of_no_cell hcell] at hid⟩
  | some id => rw [identityAt_of_cell? hcell] at hid; cases hid

theorem pairwise_partsFrom (owner : Identity) (position item : Nat) (items : List Value) :
    (partsFrom owner position item items).Pairwise fun a b ↦ a.value.cell? = none →
      a.id ≠ b.id := by
  induction items generalizing item with
  | nil => exact .nil
  | cons v rest ih =>
    refine .cons (fun b hb hcell hsame ↦ ?_) (ih (item + 1))
    obtain ⟨k, hle, -, hid⟩ := mem_partsFrom hb
    rw [identityAt_of_no_cell hcell, hid] at hsame
    obtain ⟨-, hplace⟩ := identityAt_part hsame.symm
    injection hplace with _ _ hitem
    omega

theorem pairwise_nodesFrom (owner : ObjectNode) (position : Nat) (slots : List SlotSchema) :
    (g.nodesFrom owner position slots).Pairwise fun a b ↦ a.value.cell? = none → a.id ≠ b.id := by
  induction slots generalizing position with
  | nil => exact .nil
  | cons slot rest ih =>
    refine List.pairwise_append.mpr ⟨?_, ih (position + 1), fun a ha b hb hcell hsame ↦ ?_⟩
    · unfold slotNodes
      split
      · exact pairwise_partsFrom ..
      · exact .nil
    · obtain ⟨-, -, -, item, -, hida⟩ := mem_slotNodes ha
      obtain ⟨k, found, hle, -, hfound⟩ := mem_nodesFrom hb
      obtain ⟨-, -, -, other, -, hidb⟩ := mem_slotNodes hfound
      rw [hida, identityAt_of_no_cell hcell, hidb] at hsame
      obtain ⟨-, hplace⟩ := identityAt_part hsame.symm
      injection hplace with _ hposition _
      omega

theorem hangs_nodes (n : ObjectNode) : Hangs n.id (g.nodes n) where
  place b hb := by
    obtain ⟨position, item, hstands⟩ := stands_of_mem_nodes hb
    exact ⟨position, item, hstands.place⟩
  apart := by
    unfold nodes
    cases g.schemaOf n.value with
    | none => exact .nil
    | some schema => exact pairwise_nodesFrom n 0 schema.slots

/-! ### Coherence -/

/-- A graph is coherent if every reference to a cell refers to it with the same type. -/
def Coherent (g : ObjectGraph) (root : ObjectNode) : Prop :=
  ∀ a b, g.Reaches root a → g.Reaches root b → ∀ id, a.value.cell? = some id →
    b.value.cell? = some id → a.value = b.value

/-- What an object other than the root is, seen from one that refers to it. -/
theorem Reaches.eq_or_stands (hn : g.Reaches root n) :
    n = root ∨ ∃ owner position item, g.Reaches root owner ∧ g.Stands owner n position item := by
  obtain rfl | ⟨owner, howner, hrefers⟩ := Relation.ReflTransGen.cases_tail hn
  · exact .inl rfl
  · obtain ⟨position, item, hstands⟩ := stands_of_mem_nodes hrefers.1
    exact .inr ⟨owner, position, item, howner, hstands⟩

/-- An object with a cell is known by it, and no other one by a cell. -/
theorem Reaches.id_eq_cell (hroot : root.id = root.value.identityAt .root) (hn : g.Reaches root n)
    (id : Nat) : n.id = .cell id ↔ n.value.cell? = some id := by
  obtain ⟨place, hplace, hne⟩ : ∃ place, n.id = n.value.identityAt place ∧ place ≠ .cell id := by
    obtain rfl | ⟨owner, position, item, -, hstands⟩ := hn.eq_or_stands
    · exact ⟨.root, hroot, by simp⟩
    · exact ⟨_, hstands.place, by simp⟩
  rw [hplace]
  cases hcell : n.value.cell? with
  | none => simpa [identityAt_of_no_cell hcell] using hne
  | some other => simp [identityAt_of_cell? hcell]

/-- What an identity says about the object that has it. -/
theorem Reaches.value_of_id (hroot : root.id = root.value.identityAt .root)
    (hn : g.Reaches root n) :
    match n.id with
    | .cell id => n.value.cell? = some id
    | .root => n = root
    | .part place position item => ∃ owner, g.Reaches root owner ∧ owner.id = place ∧
        g.Stands owner n position item := by
  obtain rfl | ⟨owner, position, item, howner, hstands⟩ := hn.eq_or_stands
  · rw [hroot]
    cases hcell : n.value.cell? <;> simp [Value.identityAt, hcell]
  · rw [hstands.place]
    cases hcell : n.value.cell? with
    | none =>
      simp only [Value.identityAt, hcell, Option.map_none, Option.getD_none]
      exact ⟨owner, howner, rfl, hstands⟩
    | some id => simp [Value.identityAt, hcell]

/-- In a coherent graph one identity belongs to one value. -/
theorem Coherent.value_eq (hcoherent : g.Coherent root)
    (hroot : root.id = root.value.identityAt .root) (ha : g.Reaches root a)
    (hb : g.Reaches root b) (hid : a.id = b.id) : a.value = b.value := by
  induction hident : a.id generalizing a b with
  | cell id =>
    have hcella := ha.value_of_id hroot
    have hcellb := hb.value_of_id hroot
    rw [hident] at hcella
    rw [← hid, hident] at hcellb
    exact hcoherent a b ha hb id hcella hcellb
  | root =>
    have hroota := ha.value_of_id hroot
    have hrootb := hb.value_of_id hroot
    rw [hident] at hroota
    rw [← hid, hident] at hrootb
    exact congrArg ObjectNode.value (hroota.trans hrootb.symm)
  | part place position item ih =>
    have hplacea := ha.value_of_id hroot
    have hplaceb := hb.value_of_id hroot
    rw [hident] at hplacea
    rw [← hid, hident] at hplaceb
    obtain ⟨owner, howner, rfl, hstandsa⟩ := hplacea
    obtain ⟨other, hother, hplace, hstandsb⟩ := hplaceb
    exact hstandsa.value_eq (ih howner hother hplace.symm rfl) hstandsb

/-! ### Agreement of heaps -/

/-- The values that an insertion of a graph looks at: the root, and what stands in class-reference
slots of objects that are reached. -/
inductive Meets (g : ObjectGraph) (root : ObjectNode) : Value → Prop
  | root : Meets g root root.value
  | field {owner : ObjectNode} {schema : ClassSchema} {slot : SlotSchema} {v : Value}
      (howner : g.Reaches root owner) (hschema : g.schemaOf owner.value = some schema)
      (hslot : slot ∈ schema.slots) (href : slot.reference.isSome)
      (hattr : g.heap.attribute? owner.value slot.attr = some v) : Meets g root v
  | item {owner n : ObjectNode} (howner : g.Reaches root owner) (hn : n ∈ g.nodes owner) :
      Meets g root n.value

/-- The cells that a graph has to do with. -/
def Mentions (g : ObjectGraph) (root : ObjectNode) (id : Nat) : Prop :=
  ∃ v, g.Meets root v ∧ (v.cell? = some id ∨ (g.heap.opened v).cell? = some id)

/-- A heap that has kept the cells that a graph has to do with. -/
def Agrees (g : ObjectGraph) (root : ObjectNode) (heap : Heap) : Prop :=
  ∀ id, g.Mentions root id → heap.get? id = g.heap.get? id

theorem Reaches.meets (hn : g.Reaches root n) : g.Meets root n.value := by
  obtain rfl | ⟨owner, howner, hrefers⟩ := Relation.ReflTransGen.cases_tail hn
  · exact .root
  · exact .item howner hrefers.1

section

variable {heap : Heap} {v : Value} (hagrees : g.Agrees root heap) (hmeets : g.Meets root v)
include hagrees hmeets

theorem opened_of_agrees : heap.opened v = g.heap.opened v := by
  cases v with
  | held id =>
    have hcell := hagrees id ⟨_, hmeets, .inl rfl⟩
    simp [Heap.opened, Heap.heldIn, hcell]
  | _ => rfl

theorem attribute?_of_agrees (attr : String) :
    heap.attribute? v attr = g.heap.attribute? v attr := by
  unfold Heap.attribute?
  rw [opened_of_agrees hagrees hmeets]
  cases hopened : g.heap.opened v with
  | object struct id =>
    have hcell := hagrees id ⟨v, hmeets, .inr (by rw [hopened]; rfl)⟩
    simp [Heap.attrs, hcell]
  | _ => rfl

end

end ObjectGraph

end RuleMarshal
