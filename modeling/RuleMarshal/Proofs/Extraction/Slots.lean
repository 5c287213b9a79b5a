import RuleMarshal.Proofs.Computation.Result
import RuleMarshal.Proofs.Extraction.Placement
import RuleMarshal.Proofs.RoundTrip.Making
/-!
Extractions of named slots into what exists already. An extraction into a target first reads the
names of the slots of its source and then fills the target (`Slotted.fillsSlots`). Where the
functions that the engine calls meanwhile leave the cell that the target stands in, the cell holds
in the end what was stored in its places (`Slotted.get?_eq`).
-/

set_option autoImplicit false
set_option relaxedAutoImplicit false

namespace RuleMarshal

open Act

/-! ### Sources with named slots -/

/-- An extraction that begins in one state reads the slots of its source from another on: those of
an instance at once, those of a fact when it is known to have slots with names. -/
inductive Slotted (world : World) (s : State) (source : Value) : SlotReader → State → Prop where
  | ofInstance {h : InstanceHandle} (hsource : s.heap.content source = .instanceHandle h) :
      Slotted world s source h.reader { s with visited := [] }
  | ofFact {h : FactHandle} {t : State} (hsource : s.heap.content source = .factHandle h)
      (hnamed : h.isOrdered.runIn world { s with visited := [] } = (.ok false, t)) :
      Slotted world s source h.reader t

/-- States that differ in what was noted on the way, if at all. -/
def Aside (s t : State) : Prop := t = { s with readings := t.readings, visited := t.visited }

theorem Aside.history_eq {s t : State} (hst : Aside s t) : t.history = s.history := by rw [hst]

theorem Aside.heap_eq {s t : State} (hst : Aside s t) : t.heap = s.heap := by rw [hst]

theorem Aside.calls_eq {s t : State} (hst : Aside s t) : t.calls = s.calls := by rw [hst]

theorem Aside.trans {s t u : State} (hst : Aside s t) (htu : Aside t u) : Aside s u := by
  rw [Aside] at hst htu ⊢
  rw [htu, hst]

/-- How a target is filled once the names of the slots are read: as a mapping, or in the fields of
its type. -/
inductive FillsSlots (world : World) (reader : SlotReader) (names : List String) (target : Value)
    (type : Hint) (s t : State) : Value → Prop where
  | mapping {item : Hint} (htype : type.mappingValue? = some item)
      (hfills : (fillMapping extractValue target item reader.slot names).runIn world s =
        (.ok ⟨⟩, t)) :
      FillsSlots world reader names target type s t target
  | fields {declared : List Field} {number : Nat} {w : Value} (htype : type.mappingValue? = none)
      (hfields : world.types.fields world.config.tags type = .ok declared)
      (hfills : (filling target fun object ↦
        fillFields extractValue object (fieldsInReading number declared)
        reader.slot names).runIn world s = (.ok w, t)) :
      FillsSlots world reader names target type s t w

section

variable {world : World} {source target w : Value} {reader : SlotReader} {type : Hint}
variable {s t begun : State}

theorem ok_of_fieldsAnew {fields : List Field}
    (hrun : (fieldsAnew type).runIn world s = (.ok fields, t)) :
    ∃ declared number, world.types.fields world.config.tags type = .ok declared ∧
      fields = fieldsInReading number declared ∧ Aside s t := by
  obtain ⟨_, _, hread, hrun⟩ := ok_of_bind hrun
  cases hread
  obtain ⟨declared, u, hdeclared, hrun⟩ := ok_of_bind hrun
  cases hfound : world.types.fields world.config.tags type with
  | error e =>
    rw [hfound] at hdeclared
    cases hdeclared
  | ok found =>
    rw [hfound] at hdeclared
    cases hdeclared
    cases hrun
    exact ⟨declared, s.readings + 1, rfl, rfl, rfl⟩

theorem aside_of_visit {name : String} (hrun : (visit name type w).runIn world s = (.ok ⟨⟩, t)) :
    Aside s t := by
  unfold visit at hrun
  split at hrun <;> cases hrun <;> rfl

/-- An extraction of an instance that was not visited reads the names of its slots and then fills
the target. -/
theorem InstanceHandle.fillsSlots {h : InstanceHandle} (hvisited : s.visited = [])
    (hrun : (extractInstance extractValue h type (some target)).runIn world s = (.ok w, t)) :
    ∃ names u v, h.slotNames.runIn world s = (.ok names, u) ∧ Aside u v ∧
      FillsSlots world h.reader names target type v t w := by
  obtain ⟨found, _, hfound, hrun⟩ := ok_of_bind hrun
  rw [runIn_visitedFor_of_unvisited hvisited] at hfound
  cases hfound
  obtain ⟨names, u, hnames, hrun⟩ := ok_of_bind hrun
  obtain ⟨_, _, hread, hrun⟩ := ok_of_bind hrun
  cases hread
  dsimp only at hrun
  split at hrun
  · rename_i item hitem
    obtain ⟨mapping, _, hmapping, hrun⟩ := ok_of_bind hrun
    cases hmapping
    obtain ⟨⟨⟩, v, hvisit, hrun⟩ := ok_of_bind hrun
    obtain ⟨⟨⟩, x, hfills, hrun⟩ := ok_of_bind hrun
    cases hrun
    exact ⟨names, u, v, hnames, aside_of_visit hvisit, .mapping hitem hfills⟩
  · rename_i hitem
    obtain ⟨-, hrun⟩ := ok_of_refuse hrun
    obtain ⟨fields, x, hfields, hrun⟩ := ok_of_bind hrun
    obtain ⟨declared, number, hdeclared, rfl, hread⟩ := ok_of_fieldsAnew hfields
    obtain ⟨object, _, hobject, hrun⟩ := ok_of_bind hrun
    cases hobject
    obtain ⟨⟨⟩, v, hvisit, hfills⟩ := ok_of_bind hrun
    exact ⟨names, u, v, hnames, hread.trans (aside_of_visit hvisit), .fields hitem hdeclared hfills⟩

/-- Once the names of the slots are read, an object of a struct type is filled with what goes into
its fields. -/
theorem InstanceHandle.runIn_extractInstance_of_names {h : InstanceHandle} {names : List String}
    {u : State} {convert : EngineValue → Hint → Act Value} (hvisited : s.visited = [])
    (hnames : h.slotNames.runIn world s = (.ok names, u)) (htype : type.mappingValue? = none)
    (hstruct : world.types.isStruct type = true) :
    (extractInstance convert h type (some target)).runIn world s =
      (do
        let fields ← fieldsAnew type
        visit h.name type target
        filling target fun object ↦
          fillFields convert object fields (fun name ↦ h.slot (.text name)) names
        : Act Value).runIn world u := by
  unfold extractInstance
  rw [runIn_bind_of_ok (runIn_visitedFor_of_unvisited hvisited)]
  dsimp only
  rw [runIn_bind_of_ok hnames, runIn_bind_of_ok (runIn_read world u)]
  rw [htype]
  dsimp only
  rw [hstruct]
  rfl

/-- A fact that is known to have named slots is extracted as such. -/
theorem FactHandle.runIn_extractFact_of_named {h : FactHandle} {target : Option Value}
    (hdynamic : type.isDynamic = false) (hnamed : h.isOrdered.runIn world s = (.ok false, t)) :
    (extractFact extractValue h type target).runIn world s =
      (extractSlots extractValue h type target).runIn world t := by
  unfold extractFact
  rw [if_neg (by rw [hdynamic]; nofun), pure_bind, runIn_bind_of_ok hnamed]
  rfl

/-- An extraction of the named slots of a fact reads their names and then fills the target. -/
theorem FactHandle.fillsSlots {h : FactHandle}
    (hrun : (extractSlots extractValue h type (some target)).runIn world s = (.ok w, t)) :
    ∃ names u v, h.slotNames.runIn world s = (.ok names, u) ∧ Aside u v ∧
      FillsSlots world h.reader names target type v t w := by
  obtain ⟨sequence, _, hsequence, hrun⟩ := ok_of_bind hrun
  rw [runIn_ofExcept] at hsequence
  obtain ⟨-, rfl⟩ := Prod.mk.inj hsequence
  obtain ⟨-, hrun⟩ := ok_of_refuse hrun
  obtain ⟨names, u, hnames, hrun⟩ := ok_of_bind hrun
  obtain ⟨_, _, hread, hrun⟩ := ok_of_bind hrun
  cases hread
  dsimp only at hrun
  split at hrun
  · rename_i item hitem
    obtain ⟨mapping, _, hmapping, hrun⟩ := ok_of_bind hrun
    cases hmapping
    obtain ⟨⟨⟩, x, hfills, hrun⟩ := ok_of_bind hrun
    cases hrun
    exact ⟨names, u, u, hnames, rfl, .mapping hitem hfills⟩
  · rename_i hitem
    obtain ⟨-, hrun⟩ := ok_of_refuse hrun
    obtain ⟨fields, v, hfields, hrun⟩ := ok_of_bind hrun
    obtain ⟨declared, number, hdeclared, rfl, hread⟩ := ok_of_fieldsAnew hfields
    obtain ⟨object, _, hobject, hfills⟩ := ok_of_bind hrun
    cases hobject
    exact ⟨names, u, v, hnames, hread, .fields hitem hdeclared hfills⟩

/-- An extraction into a target reads the names of the slots of its source and then fills the
target. -/
theorem Slotted.fillsSlots (hslotted : Slotted world s source reader begun)
    (htarget : target.splitDestination world.types s.heap = .ok (type, some target))
    (hdynamic : type.isDynamic = false)
    (hrun : (extract source target).runIn world s = (.ok w, t)) :
    ∃ names u v x, reader.names.runIn world begun = (.ok names, u) ∧ Aside u v ∧
      FillsSlots world reader names target type v x w ∧ Aside x t := by
  rw [runIn_extract_of_split htarget, hdynamic, runIn_freshly] at hrun
  obtain ⟨hanswer, rfl⟩ := Prod.mk.inj hrun
  cases hslotted with
  | ofInstance hsource =>
    rw [hsource] at hanswer ⊢
    obtain ⟨names, u, v, hnames, hv, hfills⟩ :=
      InstanceHandle.fillsSlots (s := { s with visited := [] }) rfl (Prod.ext hanswer rfl)
    exact ⟨names, u, v, _, hnames, hv, hfills, rfl⟩
  | @ofFact h begun hsource hnamed =>
    rw [hsource] at hanswer ⊢
    dsimp only at hanswer ⊢
    rw [FactHandle.runIn_extractFact_of_named hdynamic hnamed] at hanswer ⊢
    obtain ⟨names, u, v, hnames, hv, hfills⟩ := FactHandle.fillsSlots (Prod.ext hanswer rfl)
    exact ⟨names, u, v, _, hnames, hv, hfills, rfl⟩

theorem Slotted.inquires (hslotted : Slotted world s source reader begun) : reader.Inquires := by
  cases hslotted with
  | ofInstance => exact InstanceHandle.inquires _
  | ofFact => exact FactHandle.inquires _

/-- What goes before the filling keeps to what extractions keep to. -/
theorem Slotted.of_names {R : State → State → Prop} [IsPreorder State R] {allowed : Command → Prop}
    {own : Nat → Prop} {names : List String} {u : State}
    (hslotted : Slotted world s source reader begun)
    (hE : Extracting (.ofRelation R) world allowed own)
    (hnames : reader.names.runIn world begun = (.ok names, u)) : R s u := by
  have hread : R begun u := (hslotted.inquires.keeps_names hE).of_runIn hnames
  have hvisited : R s { s with visited := [] } := hE.notes s s.readings []
  cases hslotted with
  | ofInstance => exact trans_of R hvisited hread
  | @ofFact h _ _ hnamed =>
    have hasked : R { s with visited := [] } begun :=
      (Meets.iff_keeps.mp (h.meets_isOrdered hE.toInquiring)).of_runIn hnamed
    exact trans_of R hvisited (trans_of R hasked hread)

/-- What goes before the filling leaves a cell that the functions called meanwhile leave. -/
theorem Slotted.stays {id : Nat} {names : List String} {u v : State}
    (hslotted : Slotted world s source reader begun) (hgrowing : world.Growing)
    (hnames : reader.names.runIn world begun = (.ok names, u)) (hv : Aside u v) :
    StaysMeanwhile id s v :=
  trans_of (StaysMeanwhile id) (hslotted.of_names (StaysMeanwhile.extracting hgrowing) hnames)
    (.of_eq hv.heap_eq hv.calls_eq)

/-- A filling forgets no call. -/
theorem FillsSlots.callsGrow {names : List String}
    (hfills : FillsSlots world reader names target type s t w) (hreader : reader.Inquires) :
    CallsGrow s t := by
  have hE : Extracting (.ofRelation CallsGrow) world (fun _ ↦ True) fun _ ↦ True :=
    CallsGrow.extracting
  have hextract := hE.extractWithin callLimit
  have hslot := hreader.slot hE.toInquiring
  have hwithin : ∀ v : Value, v.Within fun _ ↦ True := fun v ↦ v.within_of_all fun _ ↦ trivial
  cases hfills with
  | @mapping item _ hfills =>
    have hkept := Meets.iff_keeps.mp (hE.fillMapping hextract (hwithin target) item hslot names)
    exact hkept.of_runIn hfills
  | @fields declared number _ _ _ hfills =>
    have hkept := Meets.iff_keeps.mp (hE.filling (hwithin target) fun object hobject ↦
      hE.fillFields hextract hobject (fieldsInReading number declared) hslot names)
    exact hkept.of_runIn hfills

/-- Where the functions called meanwhile leave the cell of a target, it holds in the end what was
stored in it. -/
theorem Slotted.get?_eq {id : Nat} {names : List String} {cell : Cell}
    {stored : List (SlotPlace × Value)} {u v x : State}
    (hslotted : Slotted world s source reader begun) (hgrowing : world.Growing)
    (hleave : CallsLeave id s x) (hnames : reader.names.runIn world begun = (.ok names, u))
    (hv : Aside u v) (htarget : target.FillableAs world.types id cell type)
    (hcell : s.heap.get? id = some cell) (htransfers : Transfers world reader target stored v x) :
    x.heap.get? id = some (cell.withPlaces stored) := by
  have hid : id < s.heap.cells.size := Heap.lt_size_of_get? hcell
  have hfares : Fares id s v := hslotted.stays hgrowing hnames hv hid
  have hcalled : CallsGrow v x := htransfers.callsGrow hslotted.inquires
  have hsooner : CallsLeave id s v := hleave.within (refl_of CallsGrow s) hfares.called hcalled
  have hafter : CallsLeave id v x := hleave.within hfares.called hcalled (refl_of CallsGrow x)
  exact htransfers.get?_eq hslotted.inquires hgrowing htarget hafter
    ((hfares.stays hsooner).trans hcell)

end

end RuleMarshal
