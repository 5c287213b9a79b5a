import RuleMarshal.Proofs.Extraction.Remaking
import RuleMarshal.Proofs.Function.Meddling
/-!
Extractions into what exists already are lenient merges (`extract_merges`). A field with a slot, or
a key that is the name of one, holds in the end what was converted for it on the way; all else holds
what it held before. That holds of mappings, of objects and of engine values, and also where an
instance leads back to the target while it is filled. It takes that the functions that the engine
calls meanwhile leave the target alone: one of them can change a field that has no slot
(`unslotted_field_changed`).
-/

set_option autoImplicit false
set_option relaxedAutoImplicit false

namespace RuleMarshal

open Act

/-! ### Merges -/

/-- A value that slots can be merged into, and the type that says how: a mapping, an object of a
struct type, or an engine value, by itself or in a variable. -/
inductive Value.Mergeable (table : TypeTable) (heap : Heap) : Value → Hint → Prop where
  | mapping {id : Nat} {entries : List (Value × Value)}
      (hcell : heap.get? id = some (.mapping entries)) :
      Mergeable table heap (.mapping id) .mapping
  | object {struct : String} {id : Nat} {attrs : List (String × Value)}
      (hcell : heap.get? id = some (.object attrs))
      (hstruct : table.isStruct (.struct struct) = true) :
      Mergeable table heap (.object struct id) (.struct struct)
  | engineValue {target : Value} {v : EngineValue} {kind : ValueKind}
      (hopened : heap.opened target = .engine v)
      (hkind : v.kind? = some kind) : Mergeable table heap target (.engineValue (some kind))

/-- The cell that a value stands in. -/
def Value.standsIn? : Value → Option Nat
  | .object _ id | .mapping id | .held id => some id
  | _ => Option.none

/-- What the merge of some slots makes of a target, from one heap to another. A mapping or an object
is answered itself; so is an engine value that a variable holds, and for another one the value that
it has become is answered. -/
inductive Merged (table : TypeTable) (tags : Tags) (names : List String)
    (stored : List (SlotPlace × Value)) (heap later : Heap) : Value → Value → Prop where
  | mapping {id : Nat} {before after : List (Value × Value)}
      (hbefore : heap.get? id = some (.mapping before))
      (hafter : later.get? id = some (.mapping after))
      (hmerged : EntriesMerged names stored before after) :
      Merged table tags names stored heap later (.mapping id) (.mapping id)
  | object {struct : String} {id number : Nat} {before after : List (String × Value)}
      {declared : List Field}
      (hbefore : heap.get? id = some (.object before))
      (hafter : later.get? id = some (.object after))
      (hfields : table.fields tags (.struct struct) = .ok declared)
      (hmerged : FieldsMerged names (fieldsInReading number declared) stored (before.lookup ·)
        (after.lookup ·))
      (hothers : ∀ attr ∉ declared.map (·.attr), after.lookup attr = before.lookup attr) :
      Merged table tags names stored heap later (.object struct id) (.object struct id)
  | engineValue {target w : Value} {v : EngineValue} {kind : ValueKind} {number : Nat}
      {declared : List Field}
      (hbefore : heap.opened target = .engine v) (hkind : v.kind? = some kind)
      (hfields : table.fields tags (.engineValue (some kind)) = .ok declared)
      (hmerged : FieldsMerged names (fieldsInReading number declared) stored v.attribute?
        (later.attribute? w))
      (hheld : ∀ id, target = .held id → w = target) :
        Merged table tags names stored heap later target w

/-- From a state to the end of a run, the names of the slots are read, and then something is
converted for one place after the other and stored there. -/
def SlotReader.Transferred (world : World) (reader : SlotReader) (s t : State) (names : List String)
    (stored : List (SlotPlace × Value)) : Prop :=
  ∃ object u b x, reader.names.runIn world s = (.ok names, u) ∧ b.history = u.history ∧
    Transfers world reader object stored b x ∧ x.history = t.history

section

variable {world : World} {source target w : Value} {reader : SlotReader} {type : Hint}
variable {s t begun : State}

/-- Slots are merged into a mapping or an object that in the end holds what was stored in it. -/
theorem FillsSlots.merged_mapping {names : List String} {id : Nat} {before : List (Value × Value)}
    {v x : State} (hfills : FillsSlots world reader names (.mapping id) .mapping v x w)
    (hcell : s.heap.get? id = some (.mapping before))
    (hkept : ∀ {stored}, Transfers world reader (.mapping id) stored v x →
      x.heap.get? id = some ((Cell.mapping before).withPlaces stored)) :
    ∃ stored, Transfers world reader (.mapping id) stored v x ∧
      Merged world.types world.config.tags names stored s.heap x.heap (.mapping id) w := by
  cases hfills with
  | fields htype => cases htype
  | mapping htype hfills =>
    cases htype
    rw [fillMapping_eq_forM] at hfills
    obtain ⟨stored, hplaces, htransfers⟩ := transfers_of_forM hfills
    obtain ⟨after, hafter⟩ := Cell.exists_mapping_of_withPlaces before stored
    exact ⟨stored, htransfers, .mapping hcell ((hkept htransfers).trans (congrArg some hafter))
      (entriesMerged_of_withPlaces hplaces hafter)⟩

/-- Filling an object of a struct type hands it over. -/
theorem ok_of_filling {struct : String} {id : Nat} {fill : Value → Act Unit}
    (hstruct : world.types.isStruct (.struct struct) = true)
    (hrun : (filling (.object struct id) fill).runIn world s = (.ok w, t)) :
    w = .object struct id ∧ (fill (.object struct id)).runIn world s = (.ok ⟨⟩, t) := by
  have hfill : filling (.object struct id) fill =
      ((get : Act State) >>= fun _ ↦ fill (.object struct id) >>= fun _ ↦
        asEngineValue (.object struct id)) := rfl
  rw [hfill, runIn_bind_of_ok (runIn_get world s)] at hrun
  obtain ⟨⟨⟩, u, hfilled, hmade⟩ := ok_of_bind hrun
  rw [runIn_asEngineValue hstruct] at hmade
  cases hmade
  exact ⟨rfl, hfilled⟩

/-- An object of a struct type is filled by a walk along the fields that have a slot. -/
theorem ok_of_filling_object {names : List String} {struct : String} {id : Nat}
    {fields : List Field} {v x : State} (hstruct : world.types.isStruct (.struct struct) = true)
    (hfills : (filling (.object struct id) fun object ↦
      fillFields extractValue object fields reader.slot names).runIn world v = (.ok w, x)) :
    w = .object struct id ∧ ∃ stored,
      stored.map Prod.fst = (fields.filter fun f ↦ names.contains f.engineName).map .ofField ∧
      Transfers world reader (.object struct id) stored v x := by
  obtain ⟨rfl, hfilled⟩ := ok_of_filling hstruct hfills
  rw [fillFields_eq_forM] at hfilled
  exact ⟨rfl, transfers_of_forM hfilled⟩

theorem FillsSlots.merged_object {names : List String} {struct : String} {id : Nat}
    {before : List (String × Value)} {v x : State}
    (hfills : FillsSlots world reader names (.object struct id) (.struct struct) v x w)
    (hstruct : world.types.isStruct (.struct struct) = true)
    (hcell : s.heap.get? id = some (.object before))
    (hkept : ∀ {stored}, Transfers world reader (.object struct id) stored v x →
      x.heap.get? id = some ((Cell.object before).withPlaces stored)) :
    ∃ stored, Transfers world reader (.object struct id) stored v x ∧
      Merged world.types world.config.tags names stored s.heap x.heap (.object struct id) w := by
  cases hfills with
  | mapping htype => cases htype
  | @fields declared number _ _ hdeclared hfills =>
    obtain ⟨rfl, stored, hplaces, htransfers⟩ := ok_of_filling_object hstruct hfills
    obtain ⟨after, hafter⟩ := Cell.exists_object_of_withPlaces before stored
    have hsame := attrs_fieldsInReading number declared
    have hattrs : ((fieldsInReading number declared).map (·.attr)).Nodup :=
      hsame ▸ TypeTable.attr_nodup_of_fields hdeclared
    refine ⟨stored, htransfers,
      .object hcell ((hkept htransfers).trans (congrArg some hafter)) hdeclared
      (fieldsMerged_of_withPlaces hplaces hattrs hafter) fun attr hattr ↦ ?_⟩
    -- only fields have places
    have hplace : (Cell.object after).place? attr = after.lookup attr := rfl
    rw [← hplace, ← hafter, Cell.place?_withPlaces]
    · rfl
    · intro hkey
      obtain ⟨p, hp, rfl⟩ := List.mem_map.mp hkey
      obtain ⟨f, hf, -, heq⟩ := (mem_places_iff hplaces).mp (List.mem_map_of_mem hp)
      refine hattr (hsame ▸ List.mem_map.mpr ⟨f, hf, ?_⟩)
      rw [← heq]
      rfl

theorem Heap.lt_size_of_heldIn {heap : Heap} {id : Nat} {v : EngineValue}
    (hheld : heap.heldIn id = .engine v) :
    id < heap.cells.size := by
  by_contra hout
  rw [Heap.heldIn, Heap.get?, Array.getElem?_eq_none (Nat.le_of_not_lt hout)] at hheld
  cases hheld

theorem Value.Mergeable.splitDestination (htarget : target.Mergeable world.types s.heap type) :
    target.splitDestination world.types s.heap = .ok (type, some target) := by
  cases htarget with
  | mapping hcell => exact (Value.FillableAs.mapping _).splitDestination hcell
  | object hcell hstruct => exact (Value.FillableAs.object _ hstruct).splitDestination hcell
  | engineValue hopened hkind =>
    unfold Value.splitDestination
    rw [hopened]
    dsimp only [Value.fillableType?, Value.structType?]
    rw [hkind]
    rfl

theorem Value.Mergeable.isDynamic (htarget : target.Mergeable world.types s.heap type) :
    type.isDynamic = false := by
  cases htarget <;> rfl

/-- What is merged into a target, where the functions called meanwhile leave the target alone. -/
theorem Slotted.merged (hslotted : Slotted world s source reader begun)
    (hgrowing : world.Growing) (htarget : target.Mergeable world.types s.heap type)
    (hleave : ∀ id, target.standsIn? = some id → CallsLeave id s t)
    (hrun : (extract source target).runIn world s = (.ok w, t)) :
    ∃ names stored, reader.Transferred world begun t names stored ∧
      Merged world.types world.config.tags names stored s.heap t.heap target w := by
  obtain ⟨names, u, v, x, hnames, hv, hfills, hend⟩ :=
    hslotted.fillsSlots htarget.splitDestination htarget.isDynamic hrun
  have hended : x.history = t.history := hend.history_eq.symm
  have hleft : ∀ id, target.standsIn? = some id → CallsLeave id s x := by
    intro id hid
    rw [CallsLeave, State.callsUntil, ← hend.calls_eq]
    exact hleave id hid
  rw [hend.heap_eq]
  cases htarget with
  | mapping hcell =>
    obtain ⟨stored, htransfers, hmerged⟩ := hfills.merged_mapping hcell fun htransfers ↦
      hslotted.get?_eq hgrowing (hleft _ rfl) hnames hv (.mapping _) hcell htransfers
    exact ⟨names, stored, ⟨_, u, v, x, hnames, hv.history_eq, htransfers, hended⟩, hmerged⟩
  | object hcell hstruct =>
    obtain ⟨stored, htransfers, hmerged⟩ := hfills.merged_object hstruct hcell fun htransfers ↦
      hslotted.get?_eq hgrowing (hleft _ rfl) hnames hv (.object _ hstruct) hcell htransfers
    exact ⟨names, stored, ⟨_, u, v, x, hnames, hv.history_eq, htransfers, hended⟩, hmerged⟩
  | @engineValue _ e kind hopened hkind =>
    have hcalled : CallsGrow v x := hfills.callsGrow hslotted.inquires
    have hkept : ∀ id, target = .held id →
        id < v.heap.cells.size ∧ v.heap.heldIn id = s.heap.heldIn id := by
      rintro id rfl
      have hthere := Heap.lt_size_of_heldIn hopened
      have hfares : Fares id s v := hslotted.stays hgrowing hnames hv hthere
      have hsooner : CallsLeave id s v :=
        (hleft id rfl).within (refl_of CallsGrow s) hfares.called hcalled
      refine ⟨Nat.lt_of_lt_of_le hthere hfares.grows, ?_⟩
      rw [Heap.heldIn, hfares.stays hsooner, Heap.heldIn]
    have hbegun : v.heap.opened target = .engine e := by
      cases target with
      | held id => exact (hkept id rfl).2.trans hopened
      | _ => exact hopened
    obtain ⟨declared, number, stored, object, b, y, hfields, hbefore, htransfers, hafter,
        hmerged, hheld⟩ :=
      hfills.merged_engine hslotted.inquires hgrowing hbegun fun id htarget ↦ (hkept id htarget).1
    exact ⟨names, stored, ⟨object, u, b, y, hnames, hbefore.trans hv.history_eq, htransfers,
      hafter.symm.trans hended⟩, .engineValue hopened hkind hfields hmerged hheld⟩

end

/-! ### Extractions into what exists -/

/-- An extraction of an instance, or of a fact with named slots, into a mapping, an object or an
engine value that exists already is a merge of its slots, where the functions that the engine calls
meanwhile leave the target alone. -/
theorem extract_merges (types : TypeTable) (config : Config)
    (engine : Array Event → Command → Reply) (depth : Nat) {source target w : Value}
    {reader : SlotReader} {type : Hint} {s t begun : State}
    (hslotted : Slotted (.ofDepth types config engine depth) s source reader begun)
    (htarget : target.Mergeable types s.heap type)
    (hleave : ∀ id, target.standsIn? = some id → CallsLeave id s t)
    (hrun : (extract source target).runIn (.ofDepth types config engine depth) s = (.ok w, t)) :
    ∃ names stored, reader.Transferred (.ofDepth types config engine depth) begun t names stored ∧
      Merged types config.tags names stored s.heap t.heap target w := by
  have htypes : (World.ofDepth types config engine depth).types = types :=
    congrArg Setup.types (World.ofDepth_setup types config engine depth)
  have hconfig : (World.ofDepth types config engine depth).config = config :=
    congrArg Setup.config (World.ofDepth_setup types config engine depth)
  obtain ⟨names, stored, htransferred, hmerged⟩ :=
    hslotted.merged (World.ofDepth_growing types config engine depth)
      (by rw [htypes]; exact htarget) hleave hrun
  rw [htypes, hconfig] at hmerged
  exact ⟨names, stored, htransferred, hmerged⟩

/-- A struct type with a field of its own type, or none, and one for a number. -/
def loopTypes : TypeTable where
  types :=
    [{ name := "Loop", kind := .described,
       fields :=
         [{ attr := "next", hint := .union .word [.struct "Loop", .noneType],
            default := some .none },
          { attr := "count", hint := .int .unsized, default := some (.int .unsized 0) }] }]

/-- An instance that refers to itself, with a slot that no field goes to, and none for the
number. -/
def loopStore : Store where
  instances := [("a", "Loop")]
  slots _ := ["next", "spare"]
  value _ slot := if slot = "next" then .instanceName "a" else .int 3

/-- An instance that leads back to the target is merged into it: the target then refers to itself,
and the number that has no slot is as it was. -/
theorem extract_merges_loop :
    let world := World.ofDepth loopTypes {} loopStore.engine 0
    let object := Value.object "Loop" 0
    let h : InstanceHandle := ⟨"a", 0, 1⟩
    let s : State :=
      { heap := { cells := #[.object [("next", .none), ("count", .int .unsized 5)]] } }
    let run := (extract (.instanceHandle h) object).runIn world s
    Slotted world s (.instanceHandle h) h.reader { s with visited := [] } ∧
      object.Mergeable loopTypes s.heap (.struct "Loop") ∧
      (∀ id, object.standsIn? = some id → CallsLeave id s run.2) ∧
      ∃ w names stored, run.1 = .ok w ∧
        h.reader.Transferred world { s with visited := [] } run.2 names stored ∧
        Merged loopTypes ({} : Config).tags names stored s.heap run.2.heap object w ∧
        (run.2.heap.attr? "next" object).bind (·.standsIn?) = some 0 ∧
        (run.2.heap.attr? "count" object).bind (·.integer?) = some 5 := by
  intro world object h s run
  have hslotted : Slotted world s (.instanceHandle h) h.reader { s with visited := [] } :=
    .ofInstance (Heap.content_instanceHandle _ _)
  have htarget : object.Mergeable loopTypes s.heap (.struct "Loop") := .object rfl (by decide)
  have hrun : run = _ := runIn_extract (Heap.content_instanceHandle _ _) htarget.splitDestination
  have hleave : ∀ id, object.standsIn? = some id → CallsLeave id s run.2 := by
    have hnone : run.2.calls.size = 0 := by
      rw [hrun]
      decide +kernel
    intro id _ call hcall
    rw [State.callsUntil, Array.size_eq_zero_iff.mp hnone] at hcall
    cases hcall
  have hsucceeds : run.1.toOption.isSome = true ∧
      (run.2.heap.attr? "next" object).bind (·.standsIn?) = some 0 ∧
      (run.2.heap.attr? "count" object).bind (·.integer?) = some 5 := by
    rw [hrun]
    decide +kernel
  obtain ⟨w, hanswer⟩ := Option.isSome_iff_exists.mp hsucceeds.1
  have hok : run.1 = .ok w := Except.ok_of_toOption hanswer
  obtain ⟨names, stored, htransferred, hmerged⟩ :=
    extract_merges loopTypes {} loopStore.engine 0 hslotted htarget hleave (Prod.ext hok rfl)
  exact ⟨hslotted, htarget, hleave, w, names, stored, hok, htransferred, hmerged, hsucceeds.2⟩

/-- Two instances, one with each of the slots of a couple. -/
def halvesStore : Store where
  instances := [("x", "Left"), ("y", "Right")]
  slots className := if className = "Left" then ["a"] else ["b"]
  value name _ := if name = "x" then .int 1 else .int 7

/-- An engine that calls a function when it is first asked something. -/
def meddlingEngine (history : Array Event) (c : Command) : Reply :=
  { halvesStore.engine history c with calls := if history.isEmpty then [⟨"meddle", []⟩] else [] }

/-- A couple of zeros, held by a variable, and a function that extracts the second instance into
it. -/
def meddlingState : State where
  heap := { cells := #[.object [("a", .int .unsized 0), ("b", .int .unsized 0)]] }
  named := [("o", .object "Couple" 0)]
  bound := [("meddle", extractingRegistration "meddle" "y" "o")]

/-- The state in which the engine has been asked whether the first instance exists. -/
def askingState : State :=
  { meddlingState with history := #[.command (.evaluate (.instanceExists "x"))] }

/-- The state in which the function extracts. -/
def meddledState : State := askingState.entering "meddle" coupleTypes

/-- What the function extracts, and the state that this leads to. -/
def meddling : Except Error Value × State :=
  extraction (.ofDepth coupleTypes {} meddlingEngine 0) meddledState ⟨"y", 0, 0⟩
    (Hint.struct "Couple").forInstance (some (.object "Couple" 0)) callLimit

theorem runIn_meddling : (extract (.instanceHandle ⟨"y", 0, 0⟩) (.object "Couple" 0)).runIn
    (.ofDepth coupleTypes {} meddlingEngine 0) meddledState =
      (meddling.1, { meddling.2 with visited := meddledState.visited }) := by
  have hsplit : (Value.object "Couple" 0).splitDestination
      (World.ofDepth coupleTypes {} meddlingEngine 0).types
      meddledState.heap = .ok (.struct "Couple", some (.object "Couple" 0)) := rfl
  unfold meddling
  exact runIn_extract (Heap.content_instanceHandle _ _) hsplit

/-- The state in which the engine has said that the first instance exists. -/
def meddled : State :=
  { meddling.2 with visited := meddledState.visited }.leaving askingState "meddle"

theorem runIn_check_meddled :
    (InstanceHandle.check ⟨"x", 0, 0⟩).runIn (.ofDepth coupleTypes {} meddlingEngine 1)
    meddlingState = (.ok ⟨⟩, meddled) := by
  have hanswered : meddling.1.toOption.isSome = true := by decide +kernel
  obtain ⟨w, hw⟩ := Option.isSome_iff_exists.mp hanswered
  have hrun := runIn_meddling
  rw [Except.ok_of_toOption hw] at hrun
  have hparked : meddled.parked = none := by
    have hnone : meddled.parked.isNone = true := by decide +kernel
    exact Option.isNone_iff_eq_none.mp hnone
  refine InstanceHandle.runIn_check_of_serve rfl rfl rfl ?_ hparked
  exact runIn_serve_extracting (s := askingState) (o := .object "Couple" 0) rfl rfl hrun

/-- What the first instance is asked once it is known to exist, and the state that this leads to. -/
def afterMeddling : Except Error (List String) × State :=
  (do
    let className ← content (← eval (.classOf "x"))
    return (← eval (.classSlots className)).lexemes : Act (List String)).runIn
      (.ofDepth coupleTypes {} meddlingEngine 1) meddled

theorem runIn_slotNames_meddled : (InstanceHandle.slotNames ⟨"x", 0, 0⟩).runIn
    (.ofDepth coupleTypes {} meddlingEngine 1) meddlingState = afterMeddling := by
  unfold InstanceHandle.slotNames
  rw [runIn_bind_of_ok runIn_check_meddled]
  rfl

/-- A function that the engine calls meanwhile changes a field that has no slot. -/
theorem unslotted_field_changed :
    let world := World.ofDepth coupleTypes {} meddlingEngine 1
    let object := Value.object "Couple" 0
    let h : InstanceHandle := ⟨"x", 0, 0⟩
    let run := (extract (.instanceHandle h) object).runIn world meddlingState
    object.Mergeable coupleTypes meddlingState.heap (.struct "Couple") ∧
      (coupleTypes.fields ({} : Config).tags (.struct "Couple")).toOption.map
        (·.map (·.engineName)) = some ["a", "b"] ∧
      (h.slotNames.runIn world meddlingState).1 = .ok ["a"] ∧ run.1.toOption.isSome = true ∧
      (meddlingState.heap.attr? "b" object).bind (·.integer?) = some 0 ∧
      (run.2.heap.attr? "b" object).bind (·.integer?) = some 7 := by
  intro world object h run
  have htarget : object.Mergeable coupleTypes meddlingState.heap (.struct "Couple") :=
    .object rfl (by decide)
  have hfound : afterMeddling.1.toOption = some ["a"] := by decide +kernel
  have hnames : h.slotNames.runIn world meddlingState = (.ok ["a"], afterMeddling.2) := by
    rw [runIn_slotNames_meddled, ← Except.ok_of_toOption hfound]
  have hrun : run = _ := runIn_extract (Heap.content_instanceHandle _ _) htarget.splitDestination
  have hfill : extraction world meddlingState h (Hint.struct "Couple").forInstance
      (some object) callLimit = _ :=
    InstanceHandle.runIn_extractInstance_of_names (s := { meddlingState with visited := [] })
      rfl hnames rfl rfl
  have hfilled : run.1.toOption.isSome = true ∧
      (run.2.heap.attr? "b" object).bind (·.integer?) = some 7 := by
    rw [hrun, hfill]
    decide +kernel
  exact ⟨htarget, by decide +kernel, congrArg Prod.fst hnames, hfilled.1, rfl, hfilled.2⟩

end RuleMarshal
