import RuleMarshal.Proofs.Extraction.Store
/-!
What an extraction makes of a store. A value shows a value of the engine under a hint when a
conversion can come to it, where every reference to an instance under a destination is the one
object that was built for it (`Shows`). An object presents an instance when its attributes or
entries show what the slots hold (`Presents`). A hint that offers neither a choice nor a mapping
leads to objects only (`Hint.turns`).
-/

set_option autoImplicit false
set_option relaxedAutoImplicit false

namespace RuleMarshal

open Act

/-! ### Turns -/

/-- Where a hint can lead an extraction, besides to objects of struct types: to a mapping, or to a
choice between members. -/
inductive Turn where
  | mapping | choice
  deriving DecidableEq

namespace Hint

mutual

/-- The turns that an extraction can take under a hint, those inside mappings too. -/
def turns : Hint → List Turn
  | .mapping => [.mapping]
  | .atom _ => []
  | .listOf h => turns h
  | .tupleOf h => turns h
  | .fixedTuple hs => turnsEach hs
  | .sequenceOf h => turns h
  | .mutableSequenceOf h => turns h
  | .setOf _ => []
  | .mappingOf _ _ value => .mapping :: turns value
  | .generic origin hs => if origin = .mapping then [.mapping] else turnsEach hs
  | .union _ hs =>
    if hs.any isNoneType && hasSoleMember hs then turnsEach hs else .choice :: turnsEach hs

/-- The turns under some hints, one after the other. -/
def turnsEach : List Hint → List Turn
  | [] => []
  | h :: rest => turns h ++ turnsEach rest

end

theorem turns_sublist_turnsEach {h : Hint} {hs : List Hint} (hmem : h ∈ hs) :
    h.turns.Sublist (turnsEach hs) := by
  induction hs with
  | nil => simp at hmem
  | cons first rest ih =>
    rw [turnsEach]
    rcases List.mem_cons.mp hmem with rfl | hrest
    · exact List.sublist_append_left _ _
    · exact (ih hrest).trans (List.sublist_append_right _ _)

theorem turnsEach_sublist_turns_union (spelling : UnionSpelling) (hs : List Hint) :
    (turnsEach hs).Sublist (Hint.union spelling hs).turns := by
  rw [turns]
  split
  · exact List.Sublist.refl _
  · exact List.sublist_cons_self _ _

theorem isNoneType_mapPlaces (f : Nat → Place → Place) (way : Nat) (h : Hint) :
    (mapPlaces f way h).isNoneType = h.isNoneType := by
  cases h with
  | union spelling hs =>
    rw [mapPlaces]
    split <;> rfl
  | _ => rfl

theorem map_isNoneType_mapPlacesEach (f : Nat → Place → Place) (way : Nat) (hs : List Hint) :
    (mapPlacesEach f way hs).map isNoneType = hs.map isNoneType := by
  induction hs generalizing way with
  | nil => rfl
  | cons h rest ih => rw [mapPlacesEach, List.map_cons, List.map_cons, isNoneType_mapPlaces, ih]

/-- Whether a union takes the absent value and has one more member is told by which members are its
type. -/
theorem optional_eq_of_map {hs rest : List Hint} (hsame : hs.map isNoneType = rest.map isNoneType) :
    (hs.any isNoneType && hasSoleMember hs) = (rest.any isNoneType && hasSoleMember rest) := by
  have hany : ∀ hs : List Hint, hs.any isNoneType = (hs.map isNoneType).any id := fun hs ↦ by
    simp [List.any_map]
  have hsole : ∀ hs : List Hint,
      (hs.filter fun m ↦ !m.isNoneType).length = ((hs.map isNoneType).filter not).length :=
        fun hs ↦ by
    simp [List.filter_map, Function.comp_def]
  unfold hasSoleMember
  rw [hany, hany, hsole, hsole, hsame]

mutual

/-- Where mappings are made does not change the turns of a hint. -/
theorem turns_mapPlaces (f : Nat → Place → Place) :
    ∀ (way : Nat) (h : Hint), (mapPlaces f way h).turns = h.turns
  | way, .atom a => rfl
  | way, .listOf h => by rw [mapPlaces, turns, turns, turns_mapPlaces]
  | way, .tupleOf h => by rw [mapPlaces, turns, turns, turns_mapPlaces]
  | way, .fixedTuple hs => by rw [mapPlaces, turns, turns, turnsEach_mapPlacesEach]
  | way, .sequenceOf h => by rw [mapPlaces, turns, turns, turns_mapPlaces]
  | way, .mutableSequenceOf h => by rw [mapPlaces, turns, turns, turns_mapPlaces]
  | way, .setOf h => by rw [mapPlaces, turns, turns]
  | way, .mappingOf place key value => by rw [mapPlaces, turns, turns, turns_mapPlaces]
  | way, .generic origin hs => by rw [mapPlaces, turns, turns, turnsEach_mapPlacesEach]
  | way, .union spelling hs => by
    rw [mapPlaces]
    split
    · rfl
    · rw [turns, turns, turnsEach_mapPlacesEach,
        optional_eq_of_map (map_isNoneType_mapPlacesEach f way hs)]

theorem turnsEach_mapPlacesEach (f : Nat → Place → Place) :
    ∀ (way : Nat) (hs : List Hint), turnsEach (mapPlacesEach f way hs) = turnsEach hs
  | way, [] => rfl
  | way, h :: rest => by
    rw [mapPlacesEach, turnsEach, turnsEach, turns_mapPlaces, turnsEach_mapPlacesEach]

end

theorem turns_inReading (number : Nat) (h : Hint) : (h.inReading number).turns = h.turns :=
  turns_mapPlaces _ 1 h

end Hint

/-! ### What values show -/

/-- Whether a value shows a value of the engine under a hint, where references to instances are the
objects that were built for them. -/
inductive Shows (objects : String × Destination → Option Value) :
    EngineValue → Hint → Value → Prop
  | atom {a : HintAtom} {e : EngineValue} {w : Value} :
      Hint.decodeAtom? a e = some (.ok w) → Shows objects e (.atom a) w
  /-- Absence, where it is one of several types. -/
  | absent {e : EngineValue} {spelling : UnionSpelling} {members : List Hint} :
      e.isNil → members.any Hint.isNoneType → Shows objects e (.union spelling members) .none
  /-- Absence in the place of an object. -/
  | missing {e : EngineValue} {struct : String} :
      e.isNil → Shows objects e (.struct struct) .none
  | member {e : EngineValue} {spelling : UnionSpelling} {members : List Hint} {m : Hint}
      {w : Value} : m ∈ members → Shows objects e m w → Shows objects e (.union spelling members) w
  | row {es : List EngineValue} {h item : Hint} {asTuple : Bool} {ws : List Value} :
      h.items = .each asTuple item → ws.length = es.length →
      (∀ p ∈ es.zip ws, Shows objects p.1 item p.2) →
      Shows objects (.multifield es) h (if asTuple then .tuple ws else .list ws)
  | handle {e : EngineValue} {h : InstanceHandle} :
      e.instance? = some h.name → Shows objects e .instanceHandle (.instanceHandle h)
  /-- A reference to an instance under a destination is what was built for it. -/
  | reference {e : EngineValue} {h : Hint} {name : String} {d : Destination} {w : Value} :
      e.instance? = some name → h.destination? = some d → objects (name, d) = some w →
      Shows objects e h w

theorem Shows.mono {objects more : String × Destination → Option Value} {e : EngineValue} {h : Hint}
    {w : Value} (hshows : Shows objects e h w)
    (hmore : ∀ key o, objects key = some o → more key = some o) : Shows more e h w := by
  induction hshows with
  | atom hatom => exact .atom hatom
  | absent hnil hmember => exact .absent hnil hmember
  | missing hnil => exact .missing hnil
  | member hmem _ ih => exact .member hmem ih
  | row hitems hlength _ ih => exact .row hitems hlength ih
  | handle hinstance => exact .handle hinstance
  | reference hinstance hdest hfound => exact .reference hinstance hdest (hmore _ _ hfound)

/-! ### What objects present -/

/-- The cell that an object or a mapping is kept in. -/
def Value.storage? : Value → Option Nat
  | .object _ id | .mapping id => some id
  | _ => Option.none

/-- The value of a mapping under a text. -/
def Heap.entry? (heap : Heap) (id : Nat) (key : String) : Option Value :=
  ((heap.entries id).find? fun p ↦ p.1.scalarEq (.text key)).map (·.2)

/-- Whether the fields of a type are as some reading of its declaration gives them. -/
def World.Reads (world : World) (dest : Hint) (fields : List Field) : Prop :=
  ∃ declared number, world.types.fields world.config.tags dest = .ok declared ∧
    fields = declared.map fun f ↦ { f with hint := f.hint.inReading number }

theorem Heap.lt_size_of_get? {heap : Heap} {id : Nat} {cell : Cell}
    (hget : heap.get? id = some cell) :
    id < heap.cells.size :=
  (Array.getElem?_eq_some_iff.mp hget).1

/-- Whether a destination is a mapping with values of a type. -/
inductive Destination.Takes : Destination → Hint → Prop
  | mapping : Takes .mapping .any
  | mappingAt (place : Place) (item : Hint) : Takes (.mappingAt place) item

section

variable (world : World) (store : Store) (objects : String × Destination → Option Value)
variable (heap : Heap)

/-- Whether a value shows what a slot of an instance holds. -/
def ShowsSlot (name slot : String) (h : Hint) (w : Value) : Prop :=
  ∃ e, (store.value name slot).Gives e ∧ Shows objects e h w

/-- Whether the attributes of an object show those slots of an instance that fields go to. -/
def ShowsFields (name : String) (id : Nat) (fields : List Field) : Prop :=
  ∀ f ∈ fields, f.engineName ∈ store.slotsOf name → ∃ w, (heap.attrs id).lookup f.attr = some w ∧
    ShowsSlot store objects name f.engineName f.hint w

/-- Whether the entries of a mapping show slots of an instance. -/
def ShowsEntries (name : String) (id : Nat) (item : Hint) (slots : List String) : Prop :=
  ∀ slot ∈ slots, ∃ w, heap.entry? id slot = some w ∧ ShowsSlot store objects name slot item w

/-- Whether an object presents an instance under a destination: the whole of it, or a first part. Of
what becomes an engine value, nothing is said. -/
inductive Presents (whole : Prop) : String × Destination → Value → Prop
  | struct {name struct : String} {id : Nat} {attrs : List (String × Value)}
      {done rest : List Field} :
      heap.get? id = some (.object attrs) → world.Reads (.struct struct) (done ++ rest) →
      (whole → rest = []) → ShowsFields store objects heap name id done →
      Presents whole (name, .struct struct) (.object struct id)
  | mapping {name : String} {d : Destination} {item : Hint} {id : Nat}
      {entries : List (Value × Value)} {done rest : List String} :
      d.Takes item → heap.get? id = some (.mapping entries) → store.slotsOf name = done ++ rest →
      (whole → rest = []) → ShowsEntries store objects heap name id item done →
      Presents whole (name, d) (.mapping id)
  | engineValue {name : String} {kind : Option ValueKind} {o : Value} :
      (∀ id, o.storage? = some id → (heap.get? id).isSome) →
        Presents whole (name, .engineValue kind) o

end

section

variable {world : World} {store : Store} {objects more : String × Destination → Option Value}
variable {heap after : Heap} {name slot : String} {id : Nat} {whole : Prop}

theorem ShowsSlot.mono {h : Hint} {w : Value} (hshows : ShowsSlot store objects name slot h w)
    (hmore : ∀ key o, objects key = some o → more key = some o) :
    ShowsSlot store more name slot h w := by
  obtain ⟨e, hgives, hshows⟩ := hshows
  exact ⟨e, hgives, hshows.mono hmore⟩

theorem ShowsFields.mono {fields : List Field}
    (hshows : ShowsFields store objects heap name id fields) (hcell : after.get? id = heap.get? id)
    (hmore : ∀ key o, objects key = some o → more key = some o) :
    ShowsFields store more after name id fields := by
  intro f hf hslot
  obtain ⟨w, hattr, hshown⟩ := hshows f hf hslot
  exact ⟨w, by rwa [Heap.attrs, hcell], hshown.mono hmore⟩

theorem ShowsEntries.mono {item : Hint} {slots : List String}
    (hshows : ShowsEntries store objects heap name id item slots)
    (hcell : after.get? id = heap.get? id)
    (hmore : ∀ key o, objects key = some o → more key = some o) :
    ShowsEntries store more after name id item slots := by
  intro slot hslot
  obtain ⟨w, hentry, hshown⟩ := hshows slot hslot
  exact ⟨w, by rwa [Heap.entry?, Heap.entries, hcell], hshown.mono hmore⟩

/-- An object presents what it presented as long as its cell stays. -/
theorem Presents.mono {key : String × Destination} {o : Value}
    (hpresents : Presents world store objects heap whole key o)
    (hcell : ∀ id, o.storage? = some id → after.get? id = heap.get? id)
    (hmore : ∀ key o, objects key = some o → more key = some o) :
    Presents world store more after whole key o := by
  cases hpresents with
  | struct hget hreads hwhole hshows =>
    have hkept := hcell _ rfl
    exact .struct (hkept.trans hget) hreads hwhole (hshows.mono hkept hmore)
  | mapping htakes hget hslots hwhole hshows =>
    have hkept := hcell _ rfl
    exact .mapping htakes (hkept.trans hget) hslots hwhole (hshows.mono hkept hmore)
  | engineValue hstored => exact .engineValue fun id hid ↦ hcell id hid ▸ hstored id hid

theorem Presents.storage_lt {key : String × Destination} {o : Value}
    (hpresents : Presents world store objects heap whole key o) (hstorage : o.storage? = some id) :
    id < heap.cells.size := by
  cases hpresents with
  | struct hget _ _ _ =>
    cases hstorage
    exact Heap.lt_size_of_get? hget
  | mapping _ hget _ _ _ =>
    cases hstorage
    exact Heap.lt_size_of_get? hget
  | engineValue hstored =>
    obtain ⟨cell, hget⟩ := Option.isSome_iff_exists.mp (hstored id hstorage)
    exact Heap.lt_size_of_get? hget

end

/-! ### Which slots are read -/

/-- The slots of an instance that are read for a destination, in order: those that the fields of a
type go to, or all of them. -/
def World.pass (world : World) (store : Store) : String × Destination → List String
  | (name, .struct struct) => ofFields name (.struct struct)
  | (name, .engineValue kind) => ofFields name (.engineValue kind)
  | (name, _) => store.slotsOf name
where
  ofFields (name : String) (dest : Hint) : List String :=
    match world.types.fields world.config.tags dest with
    | .ok fields => (fields.map Field.engineName).filter (· ∈ store.slotsOf name)
    | .error _ => []

/-- How often the passes of what was visited read a slot of an instance. -/
def World.quota (world : World) (store : Store) (visited : Visited) (name slot : String) : Nat :=
  (visited.map fun p ↦ if p.1.1 = name then (world.pass store p.1).count slot else 0).sum

/-- Whether some field of a declared type has a hint with a turn. -/
def World.Declares (world : World) (turn : Turn) : Prop :=
  ∃ struct fields, world.types.fields world.config.tags (.struct struct) = .ok fields ∧
    ∃ f ∈ fields, turn ∈ f.hint.turns

end RuleMarshal
