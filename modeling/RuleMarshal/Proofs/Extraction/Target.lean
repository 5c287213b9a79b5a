import RuleMarshal.Proofs.Extraction.Aside
/-!
Targets of extractions. A mapping, an object of a struct type and a list that something holds can be
filled (`Value.FillableAs`), the first two place by place. An extraction of slots fills the places
that they go to in turn, each as soon as something is converted for it (`FilledInTurn`). So where it
answers, every one of them was filled, and the answer is the target (`SlotsInto.of_ok`); where it
fails, those before the one that failed were (`SlotsInto.of_error`). An extraction of an ordered
fact stores nothing before all is converted, so where it fails the target is as it was
(`OrderInto.of_error`).
-/

set_option autoImplicit false
set_option relaxedAutoImplicit false

namespace RuleMarshal

open Act

/-! ### What can be filled -/

/-- A value that stands in a cell and is filled there, with its type: a mapping, an object of a
struct type, or a list that something holds. -/
inductive Value.FillableAs (table : TypeTable) (id : Nat) : Value → Cell → Hint → Prop where
  | mapping (entries : List (Value × Value)) :
      FillableAs table id (.mapping id) (.mapping entries) .mapping
  | object {struct : String} (attrs : List (String × Value))
      (hstruct : table.isStruct (.struct struct) = true) :
      FillableAs table id (.object struct id) (.object attrs) (.struct struct)
  | list (items : List Value) : FillableAs table id (.held id) (.value (.list items)) .list

/-- Stores a value in a place of a target: under a key of a mapping, or in an attribute of an
object. -/
def Value.store (target : Value) (key : String) (v : Value) : Act Unit :=
  match target with
  | .mapping _ => putKey target key v
  | _ => assign target key v

/-- A cell with another value in one of its places. -/
def Cell.withPlace (cell : Cell) (key : String) (v : Value) : Cell :=
  match cell with
  | .mapping entries => .mapping (putEntry entries (.text key) v)
  | .object attrs => .object (putNamed attrs key v)
  | cell => cell

section

variable {table : TypeTable} {heap : Heap} {id : Nat} {target : Value} {cell : Cell} {type : Hint}
variable {s : State}

theorem Value.FillableAs.splitDestination (htarget : target.FillableAs table id cell type)
    (hcell : heap.get? id = some cell) :
    target.splitDestination table heap = .ok (type, some target) := by
  cases htarget with
  | mapping => rfl
  | object attrs hstruct =>
    unfold Value.splitDestination
    dsimp only [Heap.opened, Value.fillableType?, Value.structType?]
    rw [if_pos hstruct]
  | list =>
    unfold Value.splitDestination
    dsimp only [Heap.opened]
    rw [Heap.heldIn, hcell]
    rfl

theorem Value.FillableAs.isDynamic (htarget : target.FillableAs table id cell type) :
    type.isDynamic = false := by
  cases htarget <;> rfl

theorem Value.FillableAs.withPlace (htarget : target.FillableAs table id cell type) (key : String)
    (v : Value) :
    target.FillableAs table id (cell.withPlace key v) type := by
  cases htarget with
  | mapping entries => exact .mapping _
  | object attrs hstruct => exact .object _ hstruct
  | list items => exact .list items

/-- What is stored in a target stands in its cell. -/
theorem Value.FillableAs.runIn_store (htarget : target.FillableAs table id cell type)
    (hcell : s.heap.get? id = some cell) (world : World) (key : String) (v : Value) :
    ∃ t, (target.store key v).runIn world s = (.ok ⟨⟩, t) ∧
      t.heap.get? id = some (cell.withPlace key v) := by
  have hlt : id < s.heap.cells.size := (Array.getElem?_eq_some_iff.mp hcell).1
  refine ⟨((target.store key v).runIn world s).2, ?_, ?_⟩
  · cases htarget <;> rfl
  · cases htarget with
    | mapping entries =>
      have hentries : s.heap.entries id = entries := by rw [Heap.entries, hcell]
      show (s.heap.put id (.mapping (putEntry (s.heap.entries id) (.text key) v))).get? id = _
      rw [hentries, Heap.get?_put_self _ _ hlt]
      rfl
    | object attrs hstruct =>
      have hattrs : s.heap.attrs id = attrs := by rw [Heap.attrs, hcell]
      show (s.heap.put id (.object (putNamed (s.heap.attrs id) key v))).get? id = _
      rw [hattrs, Heap.get?_put_self _ _ hlt]
      rfl
    | list items => exact hcell

end

/-! ### Places -/

/-- A slot, the place that it goes to, and the type that it is converted to for that. -/
structure SlotPlace where
  slot : String
  key : String
  hint : Hint

/-- The place in a mapping that a slot goes to. -/
def SlotPlace.ofName (name : String) : SlotPlace := ⟨name, name, .any⟩

/-- The place in an object that a slot goes to. -/
def SlotPlace.ofField (f : Field) : SlotPlace := ⟨f.engineName, f.attr, f.hint⟩

/-- The places that slots of the given names go to: for a mapping all of them under their names, for
an object those that its fields go to. -/
inductive PlacesFor (world : World) (names : List String) : Value → List SlotPlace → Prop where
  | keys (id : Nat) : PlacesFor world names (.mapping id) (names.map .ofName)
  | fields {struct : String} {fields : List Field} {s t : State} (id : Nat)
      (hfields : (fieldsAnew (.struct struct)).runIn world s = (.ok fields, t)) :
      PlacesFor world names (.object struct id)
        ((fields.filter fun f ↦ names.contains f.engineName).map .ofField)

/-- How the slots of an instance or a fact are read. -/
structure SlotReader where
  names : Act (List String)
  slot : String → Act EngineValue

/-- How the slots of an instance are read. -/
def InstanceHandle.reader (h : InstanceHandle) : SlotReader :=
  ⟨h.slotNames, fun name ↦ h.slot (.text name)⟩

/-- How the slots of a fact are read. -/
def FactHandle.reader (h : FactHandle) : SlotReader := ⟨h.slotNames, fun name ↦ h.slot (.text name)⟩

/-- What goes to a place. -/
def SlotReader.convert (reader : SlotReader) (place : SlotPlace) : Act Value := do
  extractValue (← reader.slot place.slot) place.hint

/-- Reading slots, and their names, keeps to what inquiries keep to. -/
structure SlotReader.Inquires (reader : SlotReader) : Prop where
  names : ∀ {C : Contract} {world : World} {allowed : Command → Prop}, Inquiring C world allowed →
    reader.names.Meets C world
  slot : ∀ {C : Contract} {world : World} {allowed : Command → Prop}, Inquiring C world allowed →
    ∀ name, (reader.slot name).Meets C world

theorem InstanceHandle.inquires (h : InstanceHandle) : h.reader.Inquires where
  names hC := h.meets_slotNames hC
  slot hC name := h.meets_slot hC (.text name)

theorem FactHandle.inquires (h : FactHandle) : h.reader.Inquires where
  names hC := h.meets_slotNames hC
  slot hC name := h.meets_slot hC (.text name)

section

variable {world : World} {allowed : Command → Prop} {own : Nat → Prop}
variable {R : State → State → Prop} [IsPreorder State R]
variable {reader : SlotReader} (hreader : reader.Inquires)
variable (hE : Extracting (.ofRelation R) world allowed own)
include hreader hE

theorem SlotReader.Inquires.keeps_names : reader.names.Keeps R world :=
  Meets.iff_keeps.mp (hreader.names hE.toInquiring)

/-- What goes to a place keeps to what extractions keep to. -/
theorem SlotReader.Inquires.keeps_convert (place : SlotPlace) :
    (reader.convert place).Keeps R world :=
  (Meets.iff_keeps.mp (hreader.slot hE.toInquiring place.slot)).bind fun v ↦
    Meets.iff_keeps.mp (hE.extractWithin callLimit v place.hint)

end

/-! ### One place after the other -/

/-- How the cell of a target goes from one content to another while places are filled: place after
place something is converted for it and stored in it, up to the first one that nothing can be
converted for. -/
inductive FilledInTurn (world : World) (reader : SlotReader) :
    Cell → List SlotPlace → Except Error Unit → Cell → Prop where
  | done (cell : Cell) : FilledInTurn world reader cell [] (.ok ⟨⟩) cell
  | broken {cell : Cell} {place : SlotPlace} {rest : List SlotPlace} {e : Error} {s t : State}
      (hfails : (reader.convert place).runIn world s = (.error e, t)) :
      FilledInTurn world reader cell (place :: rest) (.error e) cell
  | stored {cell after : Cell} {place : SlotPlace} {rest : List SlotPlace} {v : Value}
      {answer : Except Error Unit}
      {s t : State} (hconverts : (reader.convert place).runIn world s = (.ok v, t))
      (hrest : FilledInTurn world reader (cell.withPlace place.key v) rest answer after) :
      FilledInTurn world reader cell (place :: rest) answer after

/-- A cell with values stored in places of it, one after the other. -/
def Cell.withPlaces (cell : Cell) (stored : List (SlotPlace × Value)) : Cell :=
  stored.foldl (fun cell p ↦ cell.withPlace p.1.key p.2) cell

/-- Each value is what came of converting a slot for its place. -/
def SlotReader.Converted (world : World) (reader : SlotReader) (stored : List (SlotPlace × Value)) :
    Prop :=
  ∀ p ∈ stored, ∃ s t, (reader.convert p.1).runIn world s = (.ok p.2, t)

section

variable {world : World} {reader : SlotReader} {target : Value} {cell after : Cell}
variable {places : List SlotPlace}
variable {id : Nat} {s t : State} {type : Hint}

theorem SlotReader.Converted.cons {place : SlotPlace} {v : Value}
    {stored : List (SlotPlace × Value)}
    (hconverts : (reader.convert place).runIn world s = (.ok v, t))
    (hstored : reader.Converted world stored) :
    reader.Converted world ((place, v) :: stored) := by
  intro p hp
  obtain rfl | hp := List.mem_cons.mp hp
  · exact ⟨s, t, hconverts⟩
  · exact hstored p hp

/-- A filling that comes to an end has stored something in every place. -/
theorem FilledInTurn.of_ok (hfilled : FilledInTurn world reader cell places (.ok ⟨⟩) after) :
    ∃ stored, stored.map Prod.fst = places ∧ reader.Converted world stored ∧
      after = cell.withPlaces stored := by
  generalize hanswer : (Except.ok ⟨⟩ : Except Error Unit) = answer at hfilled
  induction hfilled with
  | done => exact ⟨[], rfl, fun _ hp ↦ absurd hp List.not_mem_nil, rfl⟩
  | broken => cases hanswer
  | stored hconverts _ ih =>
    obtain ⟨stored, hplaces, hstored, hafter⟩ := ih hanswer
    exact ⟨(_, _) :: stored, by rw [List.map_cons, hplaces], hstored.cons hconverts, hafter⟩

/-- A filling that fails has stored something in the places before the one that it fails at. -/
theorem FilledInTurn.of_error {e : Error}
    (hfilled : FilledInTurn world reader cell places (.error e) after) :
    ∃ stored place rest, places = stored.map Prod.fst ++ place :: rest ∧
      reader.Converted world stored ∧
      (∃ s t, (reader.convert place).runIn world s = (.error e, t)) ∧
        after = cell.withPlaces stored := by
  generalize hanswer : (Except.error e : Except Error Unit) = answer at hfilled
  induction hfilled with
  | done => cases hanswer
  | broken hfails =>
    cases hanswer
    exact ⟨[], _, _, rfl, fun _ hp ↦ absurd hp List.not_mem_nil, ⟨_, _, hfails⟩, rfl⟩
  | stored hconverts _ ih =>
    obtain ⟨stored, place, rest, hplaces, hstored, hfails, hafter⟩ := ih hanswer
    exact ⟨(_, _) :: stored, place, rest,
      by rw [hplaces]; rfl, hstored.cons hconverts, hfails, hafter⟩

/-- A walk along places that converts something for each of them and stores it fills them in
turn. -/
theorem filledInTurn_of_forM (hconvert : ∀ place, (reader.convert place).Keeps (CellStays id) world)
    (htarget : target.FillableAs world.types id cell type) (hcell : s.heap.get? id = some cell)
    {answer : Except Error Unit}
    (hrun : Act.runIn (places.forM fun place ↦ reader.convert place >>= target.store place.key)
      world s = (answer, t)) :
    ∃ after, t.heap.get? id = some after ∧ FilledInTurn world reader cell places answer after := by
  induction places generalizing s cell with
  | nil =>
    cases hrun
    exact ⟨cell, hcell, .done cell⟩
  | cons place rest ih =>
    have hrun : Act.runIn ((reader.convert place >>= target.store place.key) >>= fun _ ↦
        rest.forM fun place ↦ reader.convert place >>= target.store place.key) world s =
          (answer, t) := hrun
    rw [runIn_bind, runIn_bind] at hrun
    cases hconverted : (reader.convert place).runIn world s with
    | mk found u =>
      have hstays : u.heap.get? id = some cell := (hconvert place).of_runIn hconverted cell hcell
      rw [hconverted] at hrun
      cases found with
      | error e =>
        cases hrun
        exact ⟨cell, hstays, .broken hconverted⟩
      | ok v =>
        obtain ⟨w, hstored, hholds⟩ := htarget.runIn_store hstays world place.key v
        dsimp only at hrun
        rw [hstored] at hrun
        obtain ⟨after, hafter, hrest⟩ := ih (htarget.withPlace place.key v) hholds hrun
        exact ⟨after, hafter, .stored hconverted hrest⟩

end

/-! ### What becomes of a target -/

/-- What an extraction of slots comes to, with what stands in the cell of the target before and
after: it fails before anything is stored, or the places that the slots go to are filled in turn,
and the answer is the target. -/
inductive SlotsInto (world : World) (reader : SlotReader) (target : Value) (cell : Cell) :
    Except Error Value → Cell → Prop where
  | refused (e : Error) : SlotsInto world reader target cell (.error e) cell
  | filled {names : List String} {places : List SlotPlace} {answer : Except Error Unit}
      {after : Cell} {s t : State}
      (hnames : reader.names.runIn world s = (.ok names, t))
      (hplaces : PlacesFor world names target places)
      (hfilled : FilledInTurn world reader cell places answer after) :
      SlotsInto world reader target cell (answer.map fun _ ↦ target) after

/-- What an extraction of an ordered fact comes to, with what stands in the cell of the target
before and after: it fails with nothing stored, or all the values are stored, in the place of the
items of a list or under one key of a mapping, and the answer is the target. -/
inductive OrderInto (world : World) (h : FactHandle) :
    Value → Cell → Except Error Value → Cell → Prop where
  | refused (target : Value) (cell : Cell) (e : Error) :
      OrderInto world h target cell (.error e) cell
  | entry {id : Nat} {cell : Cell} {values : List EngineValue} {items : List Value}
      {s t u v : State}
      (hvalues : h.values.runIn world s = (.ok values, t))
      (hitems : (values.mapM fun v ↦ extractValue v .any).runIn world u = (.ok items, v)) :
      OrderInto world h (.mapping id) cell (.ok (.mapping id))
        (cell.withPlace orderedSlot (.list items))
  | list {id : Nat} {cell : Cell} {values : List EngineValue} {items held : List Value}
      {s t u v w z : State}
      (hvalues : h.values.runIn world s = (.ok values, t))
      (hitems : (values.mapM fun v ↦ extractValue v .any).runIn world u = (.ok items, v))
      (hheld : (holdEach items).runIn world w = (.ok held, z)) :
      OrderInto world h (.held id) cell (.ok (.held id)) (.value (.list held))

section

variable {world : World} {reader : SlotReader} {h : FactHandle} {target w : Value}
variable {cell after : Cell} {e : Error}

/-- Where an extraction of slots answers, it answers the target, with every slot that goes to a
place of it there. -/
theorem SlotsInto.of_ok (hinto : SlotsInto world reader target cell (.ok w) after) :
    w = target ∧ ∃ names stored, (∃ s t, reader.names.runIn world s = (.ok names, t)) ∧
      PlacesFor world names target (stored.map Prod.fst) ∧ reader.Converted world stored ∧
      after = cell.withPlaces stored := by
  generalize hanswer : (Except.ok w : Except Error Value) = given at hinto
  cases hinto with
  | refused => cases hanswer
  | @filled names places answer _ s t hnames hplaces hfilled =>
    cases answer with
    | error => cases hanswer
    | ok =>
      cases hanswer
      obtain ⟨stored, rfl, hstored, rfl⟩ := hfilled.of_ok
      exact ⟨rfl, names, stored, ⟨s, t, hnames⟩, hplaces, hstored, rfl⟩

/-- Where an extraction of slots fails, the target holds what was stored in the places before the
one that failed. -/
theorem SlotsInto.of_error (hinto : SlotsInto world reader target cell (.error e) after) :
    after = cell ∨ ∃ names stored place rest,
      PlacesFor world names target (stored.map Prod.fst ++ place :: rest) ∧
        reader.Converted world stored ∧
      (∃ s t, (reader.convert place).runIn world s = (.error e, t)) ∧
        after = cell.withPlaces stored := by
  generalize hanswer : (Except.error e : Except Error Value) = given at hinto
  cases hinto with
  | refused => exact .inl rfl
  | @filled names places answer _ s t hnames hplaces hfilled =>
    cases answer with
    | ok => cases hanswer
    | error =>
      cases hanswer
      obtain ⟨stored, place, rest, rfl, hstored, hfails, hafter⟩ := hfilled.of_error
      exact .inr ⟨names, stored, place, rest, hplaces, hstored, hfails, hafter⟩

/-- Where an extraction of an ordered fact fails, the target is as it was. -/
theorem OrderInto.of_error (hinto : OrderInto world h target cell (.error e) after) :
    after = cell := by
  cases hinto
  rfl

/-- Where an extraction of an ordered fact answers, it answers the target. -/
theorem OrderInto.of_ok (hinto : OrderInto world h target cell (.ok w) after) : w = target := by
  cases hinto <;> rfl

end

end RuleMarshal
