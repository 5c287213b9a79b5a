import RuleMarshal.Proofs.Insertion.Traversal
/-!
Representation of an object graph by instances. The instances that a traversal makes from a root are
one for each object that the root reaches, under names of their own, with a slot for every slot of
the schema; a slot that refers to objects holds the names of their instances, and no instance is
made before those of the objects that it is the first to refer to (`Represents`).
-/

set_option autoImplicit false
set_option relaxedAutoImplicit false

namespace RuleMarshal

open ObjectGraph

/-- Whether instances, in the order in which they were made, represent what a root reaches. -/
structure Represents (g : ObjectGraph) (root : ObjectNode) (made : List Made) : Prop where
  /-- The objects of the instances are those that are reached. -/
  objects : ∀ n, n ∈ made.map (·.node) ↔ g.Reaches root n
  /-- No object has two instances. -/
  identities : (made.map (·.node.id)).Nodup
  names : (made.map (·.name)).Nodup
  slots : ∀ m ∈ made, ∃ schema, g.schemaOf m.node.value = some schema ∧
    m.className = schema.name ∧ m.slots.map (·.1) = schema.slots.map (·.name) ∧
    ∀ position slot, schema.slots[position]? = some slot → slot.reference.isSome →
      ∃ values t, m.slots[position]? = some (slot.name, t) ∧ slot.Carries values t.value ∧
        List.Forall₂ (Denotes g (namingOf made)) (g.slotNodes m.node position slot) values
  /-- An object's instance is made before that of the object that refers to it first. -/
  order : ∃ walk seen, g.Walks root.id [root.id] (g.nodes root) walk seen ∧
    ∀ n, g.Reaches root n → n ≠ root → ∃ owner, firstReference walk n.id = some (owner, n.id) ∧
      [n.id, owner].Sublist (made.map (·.node.id))

variable {g : ObjectGraph} {plain : SlotSchema → Value → EngineValue → Prop}
variable {root owner : ObjectNode} {naming after : Naming} {made : List Made} {name : String}

/-! ### Slots -/

theorem Fills.map_fst {position : Nat} {slots : List SlotSchema} {es : List EngineValue}
    {terms : List (String × Term)} (h : Fills g plain owner position slots es terms) :
    terms.map (·.1) = slots.map (·.name) := by
  induction h with
  | done => rfl
  | plain href hattr hplain hrest ih => simp [ih]
  | reference href hlength hcarries hrest ih => simp [ih]

/-- The slot in one position. -/
theorem Fills.slot {position k : Nat} {slots : List SlotSchema} {es : List EngineValue}
    {terms : List (String × Term)} {slot : SlotSchema}
    (h : Fills g plain owner position slots es terms)
    (hdenotes : List.Forall₂ (Denotes g naming) (g.nodesFrom owner position slots) es)
    (hslot : slots[k]? = some slot) (href : slot.reference.isSome) :
    ∃ values t, terms[k]? = some (slot.name, t) ∧ slot.Carries values t.value ∧
      List.Forall₂ (Denotes g naming) (g.slotNodes owner (position + k) slot) values := by
  induction h generalizing k with
  | done => simp at hslot
  | @plain position first rest es others v t hnone hattr hplain hrest ih =>
    have hempty : g.slotNodes owner position first = [] := by simp [slotNodes, hnone]
    rw [nodesFrom, hempty, List.nil_append] at hdenotes
    cases k with
    | zero =>
      obtain rfl : first = slot := by simpa using hslot
      simp [hnone] at href
    | succ k =>
      obtain ⟨values, u, hterm, hcarries, hvalues⟩ := ih hdenotes (by simpa using hslot)
      refine ⟨values, u, by simpa using hterm, hcarries, ?_⟩
      rwa [show position + (k + 1) = position + 1 + k by omega]
  | @reference position first rest values es others t hsome hlength hcarries hrest ih =>
    rw [nodesFrom] at hdenotes
    have hhere := List.forall₂_take_append _ _ _ hdenotes
    have hlater := List.forall₂_drop_append _ _ _ hdenotes
    rw [← hlength] at hhere hlater
    rw [List.take_left] at hhere
    rw [List.drop_left] at hlater
    cases k with
    | zero =>
      obtain rfl : first = slot := by simpa using hslot
      exact ⟨values, t, rfl, hcarries, hhere⟩
    | succ k =>
      obtain ⟨found, u, hterm, hfound, hvalues⟩ := ih hlater (by simpa using hslot)
      refine ⟨found, u, by simpa using hterm, hfound, ?_⟩
      rwa [show position + (k + 1) = position + 1 + k by omega]

/-! ### The traversal of a whole graph -/

theorem Value.identityAt_root_ne (v : Value) (place : Identity) (position item : Nat) :
    v.identityAt .root ≠ place.part position item := by
  intro hid
  cases (identityAt_part hid).2

/-- What a root refers to is pending once the root is named. -/
theorem pending_root (hroot : root.id = root.value.identityAt .root) (name : String) :
    Pending [(root.id, name)] root.id (g.nodes root) where
  hangs := hangs_nodes root
  nodup := List.nodup_cons.mpr ⟨List.not_mem_nil, .nil⟩
  owner := List.mem_cons_self
  parts n hn hcell hmem := by
    obtain ⟨position, item, hplace⟩ := (hangs_nodes root).place n hn
    rw [identityAt_of_no_cell hcell] at hplace
    rw [hplace] at hmem
    exact root.id.part_ne position item (by simpa using hmem)
  closed x position item hmem := by
    have hid : x.part position item = root.id := by simpa using hmem
    exact absurd (hroot.symm.trans hid.symm) (Value.identityAt_root_ne _ _ _ _)

/-- What is reached has an instance, if the root has one and what instances refer to was named after
instances. -/
theorem mem_of_reaches {n : ObjectNode} (hcoherent : g.Coherent root)
    (hroot : root.id = root.value.identityAt .root)
    (hreaches : ∀ m ∈ made, g.Reaches root m.node)
    (hsettled : ∀ m ∈ made, Settled g plain (namingOf made) m) (hmem : root ∈ made.map (·.node))
    (hn : g.Reaches root n) : n ∈ made.map (·.node) := by
  induction hn with
  | refl => exact hmem
  | @tail owner n howner hrefers ih =>
    obtain ⟨m, hm, rfl⟩ := List.mem_map.mp ih
    have hnamed := (hsettled m hm).named hrefers
    rw [namingOf, List.map_map] at hnamed
    obtain ⟨other, hother, hid⟩ := List.mem_map.mp hnamed
    have hvalue := hcoherent.value_eq hroot (hreaches other hother) (howner.tail hrefers) hid
    exact List.mem_map.mpr ⟨other, hother, ObjectNode.ext hid hvalue⟩

theorem map_id_eq (hadded : after.Perm (namingOf made)) :
    (after.map (·.1)).Perm (made.map (·.node.id)) := by
  have hperm := List.Perm.map (·.1) hadded
  rwa [namingOf, List.map_map] at hperm

/-- The instances that a traversal makes from a root represent what the root reaches. -/
theorem Inserts.represents (hcoherent : g.Coherent root)
    (hroot : root.id = root.value.identityAt .root) {depth : Nat}
    (h : Inserts g plain depth [] [root] [.instanceName name] made after) :
    Represents g root made ∧ (root.id, name) ∈ namingOf made := by
  obtain ⟨added, hafter, hadded⟩ := h.added
  rw [List.append_nil] at hafter
  subst hafter
  have hreaches : ∀ m ∈ made, g.Reaches root m.node :=
    h.reaches fun n hn _ ↦ by rw [List.mem_singleton.mp hn]; exact .refl
  have hnames := h.nodup_names List.nodup_nil
  have hsettled : ∀ m ∈ made, Settled g plain (namingOf made) m := fun m hm ↦
    (h.settled m hm).mono fun p hp ↦ hadded.mem_iff.mp hp
  cases h with
  | again _ hnamed => simp at hnamed
  | @first _ _ _ _ _ _ nested _ inside _ _ schema slots hpresent hschema hnew hname hinside hfills
      hrest =>
    cases hrest
    have hpending := pending_root (g := g) hroot name
    have hids := map_id_eq hadded
    obtain ⟨walk, hwalk, horder⟩ := hinside.walks hpending
    have hmem : root ∈ (inside ++ [Made.mk root name schema.name slots]).map (·.node) := by
      simp
    have hobject {n : ObjectNode} (hn : g.Reaches root n) :=
      mem_of_reaches hcoherent hroot hreaches hsettled hmem hn
    refine ⟨{ objects := fun n ↦ ⟨fun hn ↦ ?_, hobject⟩, identities := ?_, names := ?_, slots := ?_,
              order := ⟨walk, _, hwalk, fun n hn hne ↦ ?_⟩ }, ?_⟩
    · obtain ⟨m, hm, rfl⟩ := List.mem_map.mp hn
      exact hreaches m hm
    · exact hids.nodup (hinside.extends hpending).nodup
    · have hperm := List.Perm.map (·.2) hadded
      rw [namingOf, List.map_map] at hperm
      exact hperm.nodup hnames
    · intro m hm
      obtain ⟨schema, es, hschema, hclass, hfills, hdenotes⟩ := hsettled m hm
      rw [nodes_of_schemaOf hschema] at hdenotes
      refine ⟨schema, hschema, hclass, hfills.map_fst, fun position slot hslot href ↦ ?_⟩
      have hfound := hfills.slot hdenotes hslot href
      rwa [Nat.zero_add] at hfound
    · have hid : n.id ≠ root.id := fun hid ↦
        hne (ObjectNode.ext hid (hcoherent.value_eq hroot hn .refl hid))
      have hseen : n.id ∉ [(root.id, name)].map (·.1) := by simpa using hid
      obtain ⟨m, hm, rfl⟩ := List.mem_map.mp (hobject hn)
      have hafter := hids.mem_iff.mpr (List.mem_map_of_mem (f := (·.node.id)) hm)
      have hwalked := (hwalk.mem_seen.mp hafter).resolve_left hseen
      cases hfirst : firstReference walk m.node.id with
      | none => exact absurd hwalked (firstReference_eq_none hfirst)
      | some step =>
        obtain ⟨owner, id⟩ := step
        obtain rfl : id = m.node.id := (mem_of_firstReference hfirst).1
        refine ⟨owner, rfl, ?_⟩
        obtain howner | hsub := horder _ _ hseen hfirst
        · have hmade : m.node.id ∈ inside.map (·.node.id) := by
            have hmap := hids.mem_iff.mp hafter
            simpa [hid] using hmap
          simp only [List.map_append, List.map_cons, List.map_nil]
          rw [show owner = root.id from howner]
          exact (List.singleton_sublist.mpr hmade).append (.refl _)
        · rw [List.map_append]
          exact hsub.trans (List.sublist_append_left _ _)
    · simp [namingOf]

end RuleMarshal
