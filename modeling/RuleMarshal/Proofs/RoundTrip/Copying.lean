import RuleMarshal.Proofs.RoundTrip.Making
import RuleMarshal.Proofs.Schema.Slot
/-!
An extraction follows the insertion that made its instances. An insertion that succeeds goes through
an object graph depth-first, with so many objects begun one inside the other at most (`Inserts`).
The extraction of what it made visits the same objects in the same order, and copies each of them
(`Copied`): an object that is named for the first time is visited for the first time, and one that
was named was visited. So where the insertion went deep enough, the extraction does.
-/

set_option autoImplicit false
set_option relaxedAutoImplicit false

namespace RuleMarshal

open Act ObjectGraph

/-! ### Fields and their values -/

/-- Whether a value is exactly of the type of a field: a plain value, an object of a struct type, an
absent one, or a row of objects. -/
inductive FieldOf (heap : Heap) (h : Hint) (v : Value) : Prop
  | plain (hv : PlainOf h (heap.content v))
  | absent {struct : String} (hunwrap : h.unwrapOptional = (.struct struct, true))
      (hv : heap.opened v = .none)
  | object {struct : String} {optional : Bool} {id : Nat}
      (hunwrap : h.unwrapOptional = (.struct struct, optional)) (hv : v = .object struct id)
  | objects {asTuple : Bool} {struct : String} {items : List Value}
      (hitems : h.items = .each asTuple (.struct struct)) (hv : heap.opened v = .row asTuple items)
      (hobjects : ∀ w ∈ items, ∃ id, w = .object struct id)

section

variable {heap : Heap} {v : Value} {items : List Value} {asTuple : Bool}

theorem settledEach_of_objects {struct : String}
    (hobjects : ∀ w ∈ items, ∃ id, w = .object struct id) (depth : Nat) :
    settledEach heap depth items = items := by
  induction items with
  | nil => simp [settledEach]
  | cons w rest ih =>
    obtain ⟨id, rfl⟩ := hobjects w List.mem_cons_self
    rw [settledEach, ih fun w hw ↦ hobjects w (List.mem_cons_of_mem _ hw)]
    simp [Value.settledWithin]

/-- What a variable holds is in its cell. -/
theorem Heap.content_held (id : Nat) (hpresent : heap.heldIn id ≠ .none) :
    ∃ depth, heap.content (.held id) = (heap.heldIn id).settledWithin heap depth := by
  unfold content
  cases hsize : heap.cells.size with
  | zero =>
    have hempty : heap.cells[id]? = none := Array.getElem?_eq_none (by omega)
    simp [heldIn, get?, hempty] at hpresent
  | succ depth => exact ⟨depth, by rw [Value.settledWithin]⟩

/-- The content of a row of objects is the row. -/
theorem Heap.content_of_opened_row {struct : String} (hopened : heap.opened v = .row asTuple items)
    (hobjects : ∀ w ∈ items, ∃ id, w = .object struct id) :
    heap.content v = .row asTuple items := by
  have hrow : ∀ depth, (Value.row asTuple items).settledWithin heap depth = .row asTuple items := by
    intro depth
    cases asTuple <;> simp [Value.row, Value.settledWithin, settledEach_of_objects hobjects]
  have hpresent : Value.row asTuple items ≠ .none := by
    cases asTuple <;> simp [Value.row]
  cases v with
  | held id =>
    obtain ⟨depth, hcontent⟩ :=
      content_held id (show heap.opened (.held id) ≠ .none by rwa [hopened])
    rw [hcontent, show heap.heldIn id = .row asTuple items from hopened, hrow]
  | _ =>
    dsimp only [opened] at hopened
    rw [content, hopened, hrow]

theorem Heap.content_of_opened_none (hopened : heap.opened v = .none) : heap.content v = .none := by
  unfold content
  cases v with
  | held id =>
    cases heap.cells.size with
    | zero => simp [Value.settledWithin]
    | succ depth =>
      rw [Value.settledWithin, show heap.heldIn id = .none from hopened]
      simp [Value.settledWithin]
  | none => simp [Value.settledWithin]
  | _ => cases hopened

end

/-- Whether everything that is reached is an object of a struct type, with values that are exactly
of the types of its fields. -/
def WellTyped (world : World) (g : ObjectGraph) (root : ObjectNode) : Prop :=
  ∀ n, g.Reaches root n → ∃ struct id, n.value = .object struct id ∧
    ∀ fields, world.types.fields world.config.tags (.struct struct) = .ok fields → ∀ f ∈ fields,
      ∃ v, g.heap.attribute? n.value f.attr = some v ∧ FieldOf g.heap f.hint v

/-! ### Copies -/

/-- An object that was copied: of what type, in which cell it is and in which its copy is, and what
the instance between them is named. -/
structure Copy where
  struct : String
  original : Nat
  copy : Nat
  name : String

namespace Copy

/-- What an extraction visits for a copy. -/
def visit (c : Copy) : (String × Destination) × Value :=
  ((c.name, .struct c.struct), .object c.struct c.copy)

/-- What an insertion named for a copy. -/
def naming (c : Copy) : Identity × String := (.cell c.original, c.name)

end Copy

/-- Whether cells go over to others as objects were copied. -/
def Moves (cell : Nat → Nat) (copies : List Copy) : Prop := ∀ c ∈ copies, cell c.original = c.copy

/-- Whether a value is the copy of another, as far as objects were copied. -/
def CopyOf (copies : List Copy) (v w : Value) : Prop :=
  ∀ cell, Moves cell copies → w = v.renamed cell

/-- Whether an attribute of a copy holds the copy of what the object holds there. -/
def CopiesAttribute (g : ObjectGraph) (heap : Heap) (copies : List Copy) (c : Copy)
    (attr : String) : Prop :=
  ∃ v w, g.heap.attribute? (.object c.struct c.original) attr = some v ∧
    (heap.attrs c.copy).lookup attr = some w ∧ CopyOf copies (g.heap.content v) w

/-- Whether a copy is an object that is one in all its fields. -/
structure Completes (world : World) (g : ObjectGraph) (heap : Heap) (copies : List Copy)
    (c : Copy) : Prop where
  object : ∃ attrs, heap.get? c.copy = some (.object attrs)
  fields : ∀ fields,
    world.types.fields world.config.tags (.struct c.struct) = .ok fields → ∀ f ∈ fields,
    CopiesAttribute g heap copies c f.attr

theorem CopyOf.mono {copies more : List Copy} {v w : Value} (hcopy : CopyOf copies v w)
    (hmore : copies ⊆ more) : CopyOf more v w :=
  fun cell hmoves ↦ hcopy cell fun c hc ↦ hmoves c (hmore hc)

theorem eq_map_of_copyOf {copies : List Copy} {vs ws : List Value} {cell : Nat → Nat}
    (hcopies : List.Forall₂ (CopyOf copies) vs ws) (hmoves : Moves cell copies) :
    ws = vs.map (Value.renamed cell) := by
  induction hcopies with
  | nil => rfl
  | cons hfirst _ ih => rw [List.map_cons, ← hfirst cell hmoves, ← ih]

theorem copyOf_object {copies : List Copy} {c : Copy} (hc : c ∈ copies) :
    CopyOf copies (.object c.struct c.original) (.object c.struct c.copy) := by
  intro cell hmoves
  rw [Value.renamed, hmoves c hc]

theorem CopiesAttribute.mono {g : ObjectGraph} {heap after : Heap} {copies more : List Copy}
    {c : Copy} {attr : String} (hcopies : CopiesAttribute g heap copies c attr)
    (hcell : after.get? c.copy = heap.get? c.copy) (hmore : copies ⊆ more) :
    CopiesAttribute g after more c attr := by
  obtain ⟨v, w, hv, hw, hcopy⟩ := hcopies
  exact ⟨v, w, hv, by rwa [Heap.attrs, hcell], hcopy.mono hmore⟩

theorem Completes.mono {world : World} {g : ObjectGraph} {heap after : Heap}
    {copies more : List Copy} {c : Copy} (hcomplete : Completes world g heap copies c)
    (hcell : after.get? c.copy = heap.get? c.copy) (hmore : copies ⊆ more) :
    Completes world g after more c :=
  ⟨by rw [hcell]; exact hcomplete.object,
    fun fields hfields f hf ↦ (hcomplete.fields fields hfields f hf).mono hcell hmore⟩

/-! ### Half way -/

/-- What an extraction of copies takes place in: a world with a store that its engine answers from,
an object graph, and the state that the extraction begins in. The values of the graph are of their
types, and what stands in fields is kept in every heap that they were encoded from. -/
structure Scene where
  world : World
  store : Store
  graph : ObjectGraph
  root : ObjectNode
  keep : Heap → Prop
  begun : State
  placed : root.id = root.value.identityAt .root
  typed : WellTyped world graph root
  coherent : graph.Coherent root
  kept : ∀ heap, keep heap → ∀ n attr v, graph.Reaches root n →
    graph.heap.attribute? n.value attr = some v →
    heap.content v = graph.heap.content v
  schema : ∀ n struct id schema, graph.Reaches root n → n.value = .object struct id →
    graph.schemaOf n.value = some schema →
      buildSchema world.types world.config.tags (.struct struct) = .ok schema
  makes : ∀ n struct id, graph.Reaches root n → n.value = .object struct id →
    world.Makes begun struct

variable (σ : Scene)

/-- A state half way through an extraction, in which the objects of some copies were visited. -/
structure Halfway (copies : List Copy) (s : State) : Prop where
  ready : Ready σ.world σ.store s
  epoch : s.dataEpoch = σ.begun.dataEpoch
  continues : σ.begun.Continues s
  visited : s.visited = copies.map Copy.visit
  originals : (copies.map (·.original)).Nodup
  names : (copies.map (·.name)).Nodup
  apart : (copies.map (·.copy)).Nodup
  fresh : ∀ c ∈ copies, σ.begun.heap.cells.size ≤ c.copy ∧ c.copy < s.heap.cells.size
  reached : ∀ c ∈ copies, ∃ n, σ.graph.Reaches σ.root n ∧ n.value = .object c.struct c.original

/-- What lies between two states of an extraction, if the cells that it wrote are new or its own and
what was visited was copied. -/
structure Copied (own : Option Nat) (copies : List Copy) (s : State) (more : List Copy)
    (t : State) : Prop where
  halfway : Halfway σ more t
  size : s.heap.cells.size ≤ t.heap.cells.size
  cells : ∀ id < s.heap.cells.size, own ≠ some id → t.heap.get? id = s.heap.get? id
  added : ∃ new, more = new ++ copies ∧ ∀ c ∈ new, s.heap.cells.size ≤ c.copy ∧
    Completes σ.world σ.graph t.heap more c

section

variable {σ} {own : Option Nat} {copies more most : List Copy} {s t u : State}

namespace Halfway

/-- A state that differs from one half way in nothing that matters. -/
theorem of_eq (hs : Halfway σ copies s) (hready : Ready σ.world σ.store t)
    (hepoch : t.dataEpoch = s.dataEpoch) (hcontinues : σ.begun.Continues t)
    (hvisited : t.visited = s.visited) (hsize : s.heap.cells.size ≤ t.heap.cells.size) :
    Halfway σ copies t :=
  { hs with
    ready := hready
    epoch := hepoch.trans hs.epoch
    continues := hcontinues
    visited := hvisited.trans hs.visited
    fresh := fun c hc ↦ ⟨(hs.fresh c hc).1, Nat.lt_of_lt_of_le (hs.fresh c hc).2 hsize⟩ }

theorem asking (hs : Halfway σ copies s) {asked : List Expression}
    (hready : Ready σ.world σ.store (s.asking asked)) : Halfway σ copies (s.asking asked) :=
  hs.of_eq hready rfl (hs.continues.of_eq rfl rfl rfl) rfl (Nat.le_refl _)

theorem keys_nodup (hs : Halfway σ copies s) : (s.visited.map (·.1)).Nodup := by
  rw [hs.visited, List.map_map]
  refine List.Nodup.of_map (·.1) ?_
  rw [List.map_map]
  exact hs.names

theorem built_of_mem (hs : Halfway σ copies s) {c : Copy} (hc : c ∈ copies) :
    s.visited.lookup (c.name, .struct c.struct) = some (.object c.struct c.copy) := by
  refine lookup_of_mem_of_nodup hs.keys_nodup ?_
  rw [hs.visited]
  exact List.mem_map_of_mem (f := Copy.visit) hc

theorem built_eq_none (hs : Halfway σ copies s) {name struct : String}
    (hnew : name ∉ copies.map (·.name)) : s.visited.lookup (name, .struct struct) = none := by
  rw [List.lookup_eq_none_iff, hs.visited]
  intro p hp
  obtain ⟨c, hc, rfl⟩ := List.mem_map.mp hp
  have hne : name ≠ c.name := fun heq ↦ hnew (heq ▸ List.mem_map_of_mem hc)
  simpa [Copy.visit] using fun heq : name = c.name ↦ absurd heq hne

/-- One more copy is made and visited. -/
theorem visiting (hs : Halfway σ copies s) {c : Copy} (hanew : Anew s c.copy t)
    (horiginal : c.original ∉ copies.map (·.original)) (hname : c.name ∉ copies.map (·.name))
    (hreached : ∃ n, σ.graph.Reaches σ.root n ∧ n.value = .object c.struct c.original) :
    Halfway σ (c :: copies) (t.visiting (c.name, .struct c.struct) (.object c.struct c.copy)) := by
  have hcontinues := hanew.continues hs.continues
  obtain ⟨⟨heap, labels, readings, rfl, -⟩, hsize, -, hfresh, attrs, hget⟩ := hanew
  exact
    { ready := ⟨hs.ready.isOpen, hs.ready.parked, hs.ready.answers⟩
      epoch := hs.epoch
      continues := hcontinues.of_eq rfl rfl rfl
      visited := congrArg (c.visit :: ·) hs.visited
      originals := List.nodup_cons.mpr ⟨horiginal, hs.originals⟩
      names := List.nodup_cons.mpr ⟨hname, hs.names⟩
      apart := by
        refine List.nodup_cons.mpr ⟨fun hmem ↦ ?_, hs.apart⟩
        obtain ⟨other, hother, hsame⟩ := List.mem_map.mp hmem
        have hlt := (hs.fresh other hother).2
        rw [hsame] at hlt
        exact absurd hlt (Nat.not_lt.mpr hfresh)
      fresh := by
        intro other hother
        obtain rfl | hother := List.mem_cons.mp hother
        · exact ⟨Nat.le_trans hs.continues.size hfresh, Heap.lt_size_of_get? hget⟩
        · obtain ⟨hbegun, hlt⟩ := hs.fresh other hother
          exact ⟨hbegun, Nat.lt_of_lt_of_le hlt hsize⟩
      reached := by
        intro other hother
        obtain rfl | hother := List.mem_cons.mp hother
        · exact hreached
        · exact hs.reached other hother }

end Halfway

namespace Copied

theorem refl (hs : Halfway σ copies s) : Copied σ own copies s copies s :=
  ⟨hs, Nat.le_refl _, fun _ _ _ ↦ rfl, [], rfl, nofun⟩

theorem subset (hst : Copied σ own copies s more t) : copies ⊆ more := by
  obtain ⟨new, rfl, -⟩ := hst.added
  exact List.subset_append_right _ _

/-- What happens before anything is visited. -/
theorem of_halfway (ht : Halfway σ copies t) (hsize : s.heap.cells.size ≤ t.heap.cells.size)
    (hcells : ∀ id < s.heap.cells.size, own ≠ some id → t.heap.get? id = s.heap.get? id) :
    Copied σ own copies s copies t :=
  ⟨ht, hsize, hcells, [], rfl, nofun⟩

theorem trans (hst : Copied σ own copies s more t) (htu : Copied σ own more t most u)
    (hown : ∀ id, own = some id → id < s.heap.cells.size) : Copied σ own copies s most u where
  halfway := htu.halfway
  size := Nat.le_trans hst.size htu.size
  cells id hid hne := (htu.cells id (Nat.lt_of_lt_of_le hid hst.size) hne).trans
    (hst.cells id hid hne)
  added := by
    have hsubset := htu.subset
    obtain ⟨new, rfl, hnew⟩ := hst.added
    obtain ⟨newer, rfl, hnewer⟩ := htu.added
    refine ⟨newer ++ new, (List.append_assoc _ _ _).symm, fun c hc ↦ ?_⟩
    obtain hc | hc := List.mem_append.mp hc
    · obtain ⟨hfresh, hcomplete⟩ := hnewer c hc
      exact ⟨Nat.le_trans hst.size hfresh, hcomplete⟩
    · obtain ⟨hfresh, hcomplete⟩ := hnew c hc
      refine ⟨hfresh, hcomplete.mono ?_ hsubset⟩
      refine htu.cells _ (hst.halfway.fresh c (List.mem_append_left _ hc)).2 fun heq ↦ ?_
      exact absurd (hown _ heq) (Nat.not_lt.mpr hfresh)

/-- What a state that has the same heap as another goes on to, the other goes on to. -/
theorem of_heap (htu : Copied σ own copies t more u) (hheap : t.heap = s.heap) :
    Copied σ own copies s more u :=
  ⟨htu.halfway, hheap ▸ htu.size, hheap ▸ htu.cells, hheap ▸ htu.added⟩

/-- What writes no cell but new ones writes none besides its own. -/
theorem widen (hst : Copied σ none copies s more t) : Copied σ own copies s more t :=
  { hst with cells := fun id hid _ ↦ hst.cells id hid nofun }

/-- What makes a copy and fills it. -/
theorem of_anew {c : Copy} {x : State} (hanew : Anew s c.copy x)
    (hfilled : Copied σ (some c.copy) (c :: copies)
      (x.visiting (c.name, .struct c.struct) (.object c.struct c.copy)) more t)
    (hcomplete : Completes σ.world σ.graph t.heap more c) : Copied σ own copies s more t where
  halfway := hfilled.halfway
  size := Nat.le_trans hanew.size hfilled.size
  cells id hid _ := by
    have hother : some c.copy ≠ some id := fun heq ↦
      absurd (Option.some.inj heq ▸ hid) (Nat.not_lt.mpr hanew.fresh)
    exact (hfilled.cells id (Nat.lt_of_lt_of_le hid hanew.size) hother).trans (hanew.cells id hid)
  added := by
    obtain ⟨new, rfl, hnew⟩ := hfilled.added
    refine ⟨new ++ [c], by rw [List.append_assoc, List.singleton_append], fun other hother ↦ ?_⟩
    obtain hother | hother := List.mem_append.mp hother
    · obtain ⟨hfresh, hcopied⟩ := hnew other hother
      exact ⟨Nat.le_trans hanew.size hfresh, hcopied⟩
    · obtain rfl := List.mem_singleton.mp hother
      exact ⟨hanew.fresh, hcomplete⟩

/-- What writes the cell of a copy at last writes no other one that was there. -/
theorem put {c : Copy} (hst : Copied σ none copies s more t) (hc : c ∈ copies)
    (hsize : c.copy < s.heap.cells.size) (cell : Cell) :
    Copied σ (some c.copy) copies s more { t with heap := t.heap.put c.copy cell } := by
  have hkept : (t.heap.put c.copy cell).cells.size = t.heap.cells.size := by simp [Heap.put]
  have hready := hst.halfway.ready
  have hfresh := (hst.halfway.fresh c (hst.subset hc)).1
  have hafter : Halfway σ more { t with heap := t.heap.put c.copy cell } :=
    hst.halfway.of_eq ⟨hready.isOpen, hready.parked, hready.answers⟩ rfl
      (hst.halfway.continues.put hfresh cell) rfl (Nat.le_of_eq hkept.symm)
  refine hst.widen.trans
    (.of_halfway hafter (Nat.le_of_eq hkept.symm) fun id _ hne ↦ ?_) fun id heq ↦ ?_
  · exact t.heap.get?_put_ne cell fun heq ↦ hne (congrArg some heq)
  · cases heq
    exact hsize

end Copied

end

end RuleMarshal
