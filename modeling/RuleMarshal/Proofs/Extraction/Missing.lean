import RuleMarshal.Proofs.Extraction.Initial
import RuleMarshal.Proofs.Extraction.Merge
/-!
Extractions into new objects. Once the names of the slots are read, a new object is made and then
filled (`SlotReader.intoNew`). That fails for the type, or for a field that has a slot
(`Slotted.failsAnew`), so a slot that is missing makes it fail only where there is nothing that its
field can hold at first; and if it does not fail, that is what the field holds in the end
(`MadeAnew.starts_of_missing`).

A field can hold nothing at first if it has no default and the items of its type have types of their
own. An extraction into a new object of such a type fails for every instance and fact
(`Slotted.fails_of_undefined`), also where the slot is missing and the field would be passed over
(`missing_slot_refused`).
-/

set_option autoImplicit false
set_option relaxedAutoImplicit false

namespace RuleMarshal

open Act

/-! ### Once the names of the slots are read -/

/-- Makes a new object of a struct type and fills it from slots of some names. It may be noted for
later in between. -/
def SlotReader.intoNew (reader : SlotReader) (struct : String) (seen : Value → Act Unit)
    (names : List String) : Act Value := do
  let fields ← fieldsAnew (.struct struct)
  let object ← blank (.struct struct) fields
  seen object
  filling object fun object ↦ fillFields extractValue object fields reader.slot names

/-- Whether something only notes what it is given. -/
def OnlyNotes (world : World) (seen : Value → Act Unit) : Prop :=
  ∀ object s, ∃ t, (seen object).runIn world s = (.ok ⟨⟩, t) ∧ Aside s t

section

variable {world : World} {reader : SlotReader} {struct : String} {names : List String}
variable {source : Value}
variable {s t begun : State}

theorem onlyNotes_visit (name : String) (type : Hint) : OnlyNotes world (visit name type) := by
  intro object s
  unfold visit
  cases type.destination? with
  | none => exact ⟨s, rfl, rfl⟩
  | some d => exact ⟨_, rfl, rfl⟩

theorem InstanceHandle.runIn_intoNew {h : InstanceHandle}
    (hstruct : world.types.isStruct (.struct struct) = true) (hvisited : s.visited = []) :
    (extractInstance extractValue h (.struct struct) none).runIn world s =
      (h.reader.names >>= h.reader.intoNew struct
        (visit h.name (.struct struct))).runIn world s := by
  unfold extractInstance
  rw [runIn_bind_of_ok (runIn_visitedFor_of_unvisited hvisited)]
  refine Act.runIn_bind_congr (fun names u ↦ ?_) s
  rw [runIn_bind_of_ok (runIn_read world u), hstruct]
  rfl

theorem FactHandle.runIn_intoNew {h : FactHandle}
    (hstruct : world.types.isStruct (.struct struct) = true) :
    (extractSlots extractValue h (.struct struct) none).runIn world s =
      (h.reader.names >>= h.reader.intoNew struct fun _ ↦ pure ⟨⟩).runIn world s := by
  have hsequence :
      (MonadExcept.ofExcept (Hint.sequence? (.struct struct)) :
      Act (Option (Bool × Hint))).runIn world s =
      (.ok none, s) := rfl
  unfold extractSlots
  rw [runIn_bind_of_ok hsequence]
  refine Act.runIn_bind_congr (fun names u ↦ ?_) s
  rw [runIn_bind_of_ok (runIn_read world u), hstruct]
  rfl

/-- An extraction into a new object reads the names of the slots and goes on from there. -/
theorem Slotted.exists_intoNew (hslotted : Slotted world s source reader begun)
    (hstruct : world.types.isStruct (.struct struct) = true) :
    ∃ seen answer last, OnlyNotes world seen ∧
      (reader.names >>= reader.intoNew struct seen).runIn world begun = (answer, last) ∧
      (extract source (.hint (.struct struct))).runIn world s =
        (answer, { last with visited := s.visited }) := by
  have hsplit : (Value.hint (.struct struct)).splitDestination world.types s.heap =
      .ok (.struct struct, none) := rfl
  rw [runIn_extract_of_split hsplit, runIn_freshly]
  cases hslotted with
  | @ofInstance h hsource =>
    refine ⟨_, _, _, onlyNotes_visit h.name (.struct struct), Prod.mk.eta.symm, ?_⟩
    rw [hsource, ← InstanceHandle.runIn_intoNew (s := { s with visited := [] }) hstruct rfl]
    rfl
  | @ofFact h begun hsource hnamed =>
    refine ⟨fun _ ↦ pure ⟨⟩, _, _, fun _ u ↦ ⟨u, rfl, rfl⟩, Prod.mk.eta.symm, ?_⟩
    rw [hsource, ← FactHandle.runIn_intoNew hstruct]
    dsimp only
    rw [FactHandle.runIn_extractFact_of_named rfl hnamed]

end

/-! ### What makes it fail -/

/-- Why nothing new can be made of some slots: the declaration of the type cannot be read, no new
object of it can be made, or nothing can be converted for a field that has a slot. -/
inductive FailsAnew (world : World) (reader : SlotReader) (struct : String) (names : List String)
    (e : Error) : Prop where
  | declaration (hfields : world.types.fields world.config.tags (.struct struct) = .error e)
  | blank {declared : List Field} {number : Nat}
      (hfields : world.types.fields world.config.tags (.struct struct) = .ok declared)
      (hcause : Unmakeable world (.struct struct) (fieldsInReading number declared) e)
  | slot {declared : List Field} {number : Nat} {f : Field} {s t : State}
      (hfields : world.types.fields world.config.tags (.struct struct) = .ok declared)
      (hf : f ∈ fieldsInReading number declared) (hnamed : f.engineName ∈ names)
      (hrun : (reader.convert (.ofField f)).runIn world s = (.error e, t)) :
      FailsAnew world reader struct names e

section

variable {world : World} {reader : SlotReader} {struct : String} {names : List String}
variable {kind : Error → Prop}
variable {source : Value} {s t begun : State} {e : Error}

theorem raises_asEngineValue (object : Value) :
    (asEngineValue object).Raises (fun _ ↦ True) kind world := by
  unfold asEngineValue
  cases object
  case object => exact .reading (.ite (.pure _) (.bind .get fun _ ↦ .pure _))
  all_goals exact .pure _

theorem raises_filling {fill : Value → Act Unit}
    (hfill : ∀ object, (fill object).Raises (fun _ ↦ True) kind world) (target : Value) :
    (filling target fill).Raises (fun _ ↦ True) kind world := by
  unfold filling
  refine .bind .get fun s ↦ ?_
  split
  · refine .bind (.of_answers (fun _ _ ↦ trivial) fun _ ↦ ⟨_, _, rfl⟩) fun id ↦ ?_
    refine (hfill _).bind fun _ ↦ (raises_asEngineValue _).bind fun filled ↦ ?_
    split
    · exact .bind (.of_answers (fun _ _ ↦ trivial) fun _ ↦ ⟨_, _, rfl⟩) fun _ ↦ .pure _
    · exact .pure _
  · exact (hfill _).bind fun _ ↦ raises_asEngineValue _

theorem raises_fillFields {extract : EngineValue → Hint → Act Value}
    {slot : String → Act EngineValue} {fields : List Field}
    (hconvert : ∀ f ∈ fields, f.engineName ∈ names → ∀ s e t,
      (do extract (← slot f.engineName) f.hint : Act Value).runIn world s = (.error e, t) → kind e)
    (object : Value) :
    (fillFields extract object fields slot names).Raises (fun _ ↦ True) kind world := by
  refine .forM fields fun f hf ↦ ?_
  split
  · rename_i hnamed
    have hread : (slot f.engineName >>= fun v ↦ extract v f.hint >>= fun w ↦
        assign object f.attr w) =
        (slot f.engineName >>= fun v ↦ extract v f.hint) >>= fun w ↦ assign object f.attr w :=
      (bind_assoc _ _ _).symm
    rw [hread]
    have hconverts := hconvert f hf (List.contains_iff_mem.mp hnamed)
    exact (Act.Raises.of_error fun s e t hrun ↦ hconverts s e t hrun).bind fun w ↦
      raises_assign object f.attr w
  · exact .pure _

theorem error_of_fieldsAnew {type : Hint} (hrun : (fieldsAnew type).runIn world s = (.error e, t)) :
    world.types.fields world.config.tags type = .error e := by
  obtain hread | ⟨w, u, hread, hrun⟩ := cases_of_bind_error hrun
  · cases hread
  cases hread
  obtain hfields | ⟨declared, v, -, hrun⟩ := cases_of_bind_error hrun
  · cases hfound : world.types.fields world.config.tags type with
    | ok declared =>
      rw [hfound] at hfields
      cases hfields
    | error found =>
      rw [hfound] at hfields
      cases hfields
      rfl
  · cases hrun

/-- Making a new object, noting it and filling it by any conversion fails for the type, or for a
field that has a slot. -/
theorem kind_of_anew_error {convert : EngineValue → Hint → Act Value}
    {slot : String → Act EngineValue} {seen : Value → Act Unit} (hseen : OnlyNotes world seen)
    (hdeclaration : ∀ e, world.types.fields world.config.tags (.struct struct) = .error e → kind e)
    (hblank : ∀ declared number e,
      world.types.fields world.config.tags (.struct struct) = .ok declared →
        Unmakeable world (.struct struct) (fieldsInReading number declared) e → kind e)
    (hslot : ∀ declared number f,
      world.types.fields world.config.tags (.struct struct) = .ok declared →
        f ∈ fieldsInReading number declared → f.engineName ∈ names → ∀ s e t,
        (do convert (← slot f.engineName) f.hint : Act Value).runIn world s = (.error e, t) →
          kind e)
    (hrun : (do
      let fields ← fieldsAnew (.struct struct)
      let object ← blank (.struct struct) fields
      seen object
      filling object fun object ↦ fillFields convert object fields slot names :
        Act Value).runIn world s = (.error e, t)) :
    kind e := by
  obtain hfields | ⟨fields, u, hfields, hrun⟩ := cases_of_bind_error hrun
  · exact hdeclaration e (error_of_fieldsAnew hfields)
  obtain ⟨declared, number, hdeclared, rfl, -⟩ := ok_of_fieldsAnew hfields
  obtain hmade | ⟨object, v, -, hrun⟩ := cases_of_bind_error hrun
  · exact hblank declared number e hdeclared (raises_blank.raised trivial hmade)
  obtain ⟨x, hnoted, -⟩ := hseen object v
  rw [runIn_bind_of_ok hnoted] at hrun
  have hconverts := fun f hf ↦ hslot declared number f hdeclared hf
  exact (raises_filling (raises_fillFields hconverts) object).raised trivial hrun

/-- Making a new object and filling it fails for the type, or for a field that has a slot. -/
theorem failsAnew_of_intoNew {seen : Value → Act Unit} (hseen : OnlyNotes world seen)
    (hrun : (reader.intoNew struct seen names).runIn world s = (.error e, t)) :
    FailsAnew world reader struct names e :=
  kind_of_anew_error hseen (fun _ hfields ↦ .declaration hfields)
    (fun _ _ _ hfields hcause ↦ .blank hfields hcause)
    (fun _ _ _ hfields hf hnamed _ _ _ hrun ↦ .slot hfields hf hnamed hrun) hrun

/-- An extraction into a new object fails because the names of the slots cannot be read, or for the
type or a field that has a slot. A field without a slot makes it fail only where there is nothing
that the field can hold at first. -/
theorem Slotted.failsAnew (hslotted : Slotted world s source reader begun)
    (hstruct : world.types.isStruct (.struct struct) = true)
    (hrun : (extract source (.hint (.struct struct))).runIn world s = (.error e, t)) :
    (∃ u, reader.names.runIn world begun = (.error e, u)) ∨
      ∃ names u, reader.names.runIn world begun = (.ok names, u) ∧
        FailsAnew world reader struct names e := by
  obtain ⟨seen, answer, last, hseen, hinto, hsame⟩ := hslotted.exists_intoNew hstruct
  cases hsame.symm.trans hrun
  obtain hnames | ⟨names, u, hnames, hinto⟩ := cases_of_bind_error hinto
  · exact .inl ⟨_, hnames⟩
  · exact .inr ⟨names, u, hnames, failsAnew_of_intoNew hseen hinto⟩

/-- Where a field of a type can hold nothing at first, no instance or fact can be extracted into a
new object of it, whether it has a slot for the field or not. -/
theorem Slotted.fails_of_undefined {declared : List Field}
    (hslotted : Slotted world s source reader begun)
    (hstruct : world.types.isStruct (.struct struct) = true)
    (hfields : world.types.fields world.config.tags (.struct struct) = .ok declared)
    (hundefined : ∀ number, ∃ f ∈ fieldsInReading number declared, ∃ e, f.initial = .error e)
    (w : Value) :
    (extract source (.hint (.struct struct))).runIn world s ≠ (.ok w, t) := by
  intro hrun
  obtain ⟨seen, answer, last, hseen, hinto, hsame⟩ := hslotted.exists_intoNew hstruct
  cases hsame.symm.trans hrun
  obtain ⟨names, u, hnames, hinto⟩ := ok_of_bind hinto
  obtain ⟨fields, v, hread, hmade⟩ := ok_of_bind hinto
  obtain ⟨found, number, hfound, rfl, -⟩ := ok_of_fieldsAnew hread
  cases hfields.symm.trans hfound
  obtain ⟨object, x, hblank, -⟩ := ok_of_bind hmade
  obtain ⟨f, hf, e, hundefined⟩ := hundefined number
  have hattrs : ((fieldsInReading number declared).map (·.attr)).Nodup :=
    attrs_fieldsInReading number declared ▸ TypeTable.attr_nodup_of_fields hfields
  obtain ⟨initial, hinitial⟩ := exists_initial_of_blank hattrs hblank hf
  cases hundefined.symm.trans hinitial

end

/-- A struct type with a field for two items of different types, and no default for it. -/
def couplingTypes : TypeTable where
  types := [{ name := "Coupling", kind := .described,
              fields := [{ attr := "both", hint := .fixedTuple [.int .unsized, .text] }] }]

/-- An instance without slots. -/
def slotlessStore : Store where
  instances := [("p", "Coupling")]
  slots _ := []
  value _ _ := .null

/-- A field that has neither a slot nor a default makes the extraction fail for its type. -/
theorem missing_slot_refused :
    let world := World.ofDepth couplingTypes {} slotlessStore.engine 0
    let h : InstanceHandle := ⟨"p", 0, 1⟩
    let run := (extract (.instanceHandle h) (.hint (.struct "Coupling"))).runIn world {}
    world.types.isStruct (.struct "Coupling") = true ∧
      (world.types.fields world.config.tags (.struct "Coupling")).toOption.map
        (·.map (·.engineName)) = some ["both"] ∧
      (h.slotNames.runIn world {}).1.toOption = some [] ∧
      (match run.1 with
        | .error e => e.class?
        | .ok _ => none) = some .unsupported := by
  intro world h run
  have hrun : run = _ := runIn_extract (Heap.content_instanceHandle _ _) rfl
  rw [hrun]
  decide +kernel

/-! ### What is made anew -/

/-- What is made anew of some slots, with the names of these: an object of its own that holds what
was converted for the fields that have a slot, and for the others what they hold at first. -/
inductive MadeAnew (world : World) (reader : SlotReader) (struct : String) (names : List String)
    (t : State) :
    Value → Prop where
  | intro {id number : Nat} {declared : List Field} {own after : List (String × Value)}
      {stored : List (SlotPlace × Value)} {v x : State}
      (hfields : world.types.fields world.config.tags (.struct struct) = .ok declared)
      (hown : List.Forall₂ (Field.Starts world) (fieldsInReading number declared) own)
      (htransfers : Transfers world reader (.object struct id) stored v x) (hend : x.heap = t.heap)
      (hafter : t.heap.get? id = some (.object after))
      (hmerged : FieldsMerged names (fieldsInReading number declared) stored (own.lookup ·)
        (after.lookup ·)) :
      MadeAnew world reader struct names t (.object struct id)

section

variable {world : World} {reader : SlotReader} {struct : String} {names : List String}
variable {source w : Value}
variable {s t begun : State}

theorem madeAnew_of_intoNew {seen : Value → Act Unit} (hreader : reader.Inquires)
    (hgrowing : world.Growing) (hstruct : world.types.isStruct (.struct struct) = true)
    (haliases : ∀ declaration, world.types.find? struct = some declaration →
      world.types.kindOf declaration = .model →
      AliasesApart (world.types.declaredFields declaration))
    (hleave : ∀ id v, s.heap.cells.size ≤ id → CallsGrow s v → CallsGrow v t → CallsLeave id v t)
    (hseen : OnlyNotes world seen)
    (hrun : (reader.intoNew struct seen names).runIn world s = (.ok w, t)) :
    MadeAnew world reader struct names t w := by
  obtain ⟨fields, a, hfields, hrun⟩ := ok_of_bind hrun
  obtain ⟨declared, number, hdeclared, rfl, ha⟩ := ok_of_fieldsAnew hfields
  obtain ⟨object, b, hblank, hrun⟩ := ok_of_bind hrun
  obtain ⟨v, hnoted, hv⟩ := hseen object b
  rw [runIn_bind_of_ok hnoted] at hrun
  obtain ⟨id, own, rfl, hid, hown, hcell⟩ := own_of_blank hdeclared haliases hblank
  have hnew : s.heap.cells.size ≤ id := by
    rw [ha] at hid
    exact hid
  have hthere : v.heap.get? id = some (.object own) := by
    rw [hv]
    exact hcell
  obtain ⟨rfl, stored, hplaces, htransfers⟩ := ok_of_filling_object hstruct hrun
  obtain ⟨after, hafter⟩ := Cell.exists_object_of_withPlaces own stored
  have hcalled : CallsGrow a b :=
    (keeps_blank CallsGrow.leavesHostFree.building _ _).of_runIn hblank
  have hsv : CallsGrow s v := trans_of CallsGrow (.of_calls_eq ha.calls_eq)
    (trans_of CallsGrow hcalled (.of_calls_eq hv.calls_eq))
  have hholds := htransfers.get?_eq hreader hgrowing (.object own hstruct)
    (hleave id v hnew hsv (htransfers.callsGrow hreader)) hthere
  have hattrs : ((fieldsInReading number declared).map (·.attr)).Nodup :=
    attrs_fieldsInReading number declared ▸ TypeTable.attr_nodup_of_fields hdeclared
  exact .intro hdeclared hown htransfers rfl (hholds.trans (congrArg some hafter))
    (fieldsMerged_of_withPlaces hplaces hattrs hafter)

/-- What an extraction into a new object makes, where the functions that the engine calls meanwhile
leave new cells alone, and of a model where its aliases are apart from the attributes of other
fields. -/
theorem Slotted.madeAnew (hslotted : Slotted world s source reader begun) (hgrowing : world.Growing)
    (hstruct : world.types.isStruct (.struct struct) = true)
    (haliases : ∀ declaration, world.types.find? struct = some declaration →
      world.types.kindOf declaration = .model →
      AliasesApart (world.types.declaredFields declaration))
    (hleave : ∀ id, s.heap.cells.size ≤ id → CallsLeave id s t)
    (hrun : (extract source (.hint (.struct struct))).runIn world s = (.ok w, t)) :
    ∃ names u, reader.names.runIn world begun = (.ok names, u) ∧
      MadeAnew world reader struct names t w := by
  obtain ⟨seen, answer, last, hseen, hinto, hsame⟩ := hslotted.exists_intoNew hstruct
  cases hsame.symm.trans hrun
  obtain ⟨names, u, hnames, hinto⟩ := ok_of_bind hinto
  have hsize : HeapGrows s u := hslotted.of_names hgrowing.extracting hnames
  have hsu : CallsGrow s u := hslotted.of_names CallsGrow.extracting hnames
  obtain ⟨hdeclared, hown, htransfers, hend, hafter, hmerged⟩ :=
    madeAnew_of_intoNew (t := last) hslotted.inquires
    hgrowing hstruct haliases (fun id v hid huv hvl ↦ (hleave id (Nat.le_trans hsize hid)).within
      (trans_of CallsGrow hsu huv) hvl (refl_of CallsGrow last)) hseen hinto
  exact ⟨names, u, hnames, .intro hdeclared hown htransfers hend hafter hmerged⟩

/-- A field without a slot holds in the end what it held at first. -/
theorem MadeAnew.starts_of_missing (hmade : MadeAnew world reader struct names t w) :
    ∃ declared number, world.types.fields world.config.tags (.struct struct) = .ok declared ∧
      ∀ f ∈ fieldsInReading number declared, f.engineName ∉ names →
        ∃ v, f.Starts world (f.attr, v) ∧ t.heap.attr? f.attr w = some v := by
  cases hmade with
  | @intro id number declared own after _ _ _ hfields hown _ _ hafter hmerged =>
    refine ⟨declared, number, hfields, fun f hf hmissing ↦ ?_⟩
    obtain ⟨v, hmem, hstarts⟩ := exists_of_starts hown hf
    have hattrs : (own.map (·.1)).Nodup := by
      rw [attrs_of_starts hown, attrs_fieldsInReading]
      exact TypeTable.attr_nodup_of_fields hfields
    refine ⟨v, hstarts, ?_⟩
    show (t.heap.attrs id).lookup f.attr = some v
    rw [Heap.attrs, hafter]
    dsimp only
    rw [hmerged.others f hf hmissing, lookup_of_mem_of_nodup hattrs hmem]

end

end RuleMarshal
