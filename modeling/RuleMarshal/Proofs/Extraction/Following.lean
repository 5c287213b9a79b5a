import RuleMarshal.Proofs.Extraction.Missing
import RuleMarshal.Proofs.Extraction.Multifield
import RuleMarshal.Proofs.Insertion.Absence
/-!
References that are followed. An insertion puts the name of an instance or nil into a slot that
refers to objects, or a row of these (`exists_referring_of_slotValue`). Where the objects are of a
declared struct type, an extraction under the type of the field follows each name to its instance
(`runIn_extractWithin_reference`, `runIn_extractWithin_references`). What it comes to is a new
object of that type (`eq_object_of_followed`), or it fails for what is the instance's own: its
slots, its type, or what one of its slots holds (`unfollowed_of_error`).

The types of engine values have slots of that kind as well, but a name under such a type is read as
an engine value and not followed: it is refused, unless a name is asked for
(`extractWithin_engineValue`, `extractWithin_engineValues_refused`). So the instance that stands for
such a field is not found again (`engine_value_field_unfollowed`).
-/

set_option autoImplicit false
set_option relaxedAutoImplicit false

namespace RuleMarshal

open Act
open MonadExcept (ofExcept)

/-! ### What slots refer to -/

section

variable {table : TypeTable} {owner className struct : String} {f : Field} {slot : SlotSchema}
variable {m g : Hint}
variable {kind : SlotKind}

theorem eq_of_slotKind?_some (hkind : slotKind? table m = some (kind, some g)) : m = g := by
  unfold slotKind? at hkind
  split at hkind
  all_goals first
    | cases hkind
    | (split at hkind
       · cases hkind
         rfl
       · split at hkind <;> cases hkind)

/-- A slot that refers to objects of a struct type is that of a field of this type, or of rows of
it. -/
theorem reading_of_reference (hslot : reflectField table owner f = .ok slot)
    (hreference : slot.reference = some (g, className)) :
    SlotReading f.hint slot.multi g slot.optional ∧ table.isStruct g = true := by
  obtain ⟨-, m, optional, multi, hreading, hholding⟩ := exists_slotHolding_of_reflectField hslot
  have hrefers := f.refersTo_of_slotHolding hholding hreference
  unfold Field.slotHolding at hholding
  split at hholding
  · cases hholding
  · rename_i kind referred hkind
    cases referred with
    | none =>
      cases hholding
      cases hreference
    | some h =>
      obtain rfl := eq_of_slotKind?_some hkind
      obtain ⟨reference, hfound, hreturn⟩ := Except.ok_of_bind hholding
      obtain ⟨named, hnamed, hpair⟩ := Except.ok_of_bind hfound
      obtain ⟨text, -, hpaired⟩ := Except.ok_of_bind hnamed
      cases hpaired
      cases hpair
      cases hreturn
      cases hreference
      exact ⟨hreading, hrefers.isStruct⟩

end

/-- What a slot holds that refers to the instance of a name, or to none. -/
def referring : Option String → EngineValue
  | some name => .instanceName name
  | none => .nil

section

variable {slot : SlotSchema} {expected : Hint} {className : String}
variable {insertNested : Value → Inserting String}
variable {world : World} {i j : Insertion} {s t : State} {v : Value} {e : EngineValue}

theorem StandsFor.exists_referring {heap : Heap} (hstand : StandsFor heap v e) :
    ∃ reference, e = referring reference := by
  cases hstand with
  | absent => exact ⟨none, rfl⟩
  | present _ name => exact ⟨some name, rfl⟩

/-- What an insertion puts into a slot that refers to objects is a reference, or a row of
references. -/
theorem exists_referring_of_slotValue (hreference : slot.reference = some (expected, className))
    (hrun : Carrying.runIn (slotValue insertNested slot v) world i s = (.ok (e, j), t)) :
    (slot.multi = false ∧ ∃ reference, e = referring reference) ∨
      (slot.multi = true ∧ ∃ references : List (Option String),
        e = .multifield (references.map referring)) := by
  cases hmulti : slot.multi with
  | false =>
    refine .inl ⟨rfl, ?_⟩
    obtain ⟨_, _, _, hget, hvalue⟩ := Carrying.ok_of_bind hrun
    obtain ⟨rfl, rfl, rfl⟩ := Carrying.ok_of_getThe hget
    rw [hreference, hmulti] at hvalue
    exact (standsFor_of_referenceTo hvalue).exists_referring
  | true =>
    refine .inr ⟨rfl, ?_⟩
    obtain ⟨-, rfl⟩ | ⟨-, items, es, -, rfl, hstand⟩ :=
      standsFor_of_slotValue hreference hmulti hrun
    · exact ⟨[], rfl⟩
    · clear hrun
      induction hstand with
      | nil => exact ⟨[], rfl⟩
      | cons hfirst _ ih =>
        obtain ⟨_, hfirst⟩ := hfirst
        obtain ⟨reference, rfl⟩ := hfirst.exists_referring
        obtain ⟨references, hrest⟩ := ih
        cases hrest
        exact ⟨reference :: references, rfl⟩

end

/-! ### Following a reference -/

/-- What a reference comes to: a value of a struct type for the instance of that name, with further
instances followed at most the given number deep, or the absent value. -/
def followed (depth : Nat) (struct : String) : Option String → Act Value
  | some name =>
    do extractInstance (extractWithin depth) (← instanceHandle name) (.struct struct) none
  | none => return .none

section

variable {world : World} {owner className struct name : String} {f : Field} {slot : SlotSchema}
variable {m h : Hint}
variable {optional : Bool} {depth : Nat} {s t : State} {e : Error} {w : Value}

/-- Under a struct type the resolver follows a reference. -/
theorem runIn_resolveBy_referring (hstruct : world.types.isStruct (.struct struct) = true)
    (reference : Option String) :
    (resolveBy (extractWithin depth) (referring reference) (.struct struct)).runIn world s =
      (followed depth struct reference).runIn world s := by
  unfold resolveBy
  dsimp only
  rw [runIn_bind_of_ok (runIn_read world s), hstruct]
  cases reference with
  | none => rfl
  | some name =>
    have hcontainer : (Hint.struct struct).isContainer world.types = .ok true := by
      rw [Hint.isContainer, hstruct, Bool.or_true, if_pos rfl]
    rw [hcontainer]
    rfl

/-- A reference is decoded by following it, also where it may be absent. -/
theorem runIn_decode_referring (hunwrap : h.unwrapOptional = (.struct struct, optional))
    (hstruct : world.types.isStruct (.struct struct) = true) (reference : Option String)
    (s : State) :
    (h.decode (some (resolveBy (extractWithin depth))) (referring reference)).runIn world s =
      (followed depth struct reference).runIn world s := by
  rw [Hint.decode_of_unwrapOptional _ hunwrap rfl]
  split
  · rename_i habsent
    cases reference with
    | none => rfl
    | some name => simp [referring, EngineValue.isNil] at habsent
  · rw [Hint.decode_of_isMapping_or_isStruct _ (.inr hstruct) (by simp)]
    exact runIn_resolveBy_referring hstruct reference

/-- What a slot for one object of a declared struct type holds is extracted by following it. -/
theorem runIn_extractWithin_reference (hslot : reflectField world.types owner f = .ok slot)
    (hreference : slot.reference = some (.struct struct, className)) (hsingle : slot.multi = false)
    (reference : Option String) (depth : Nat) (s : State) :
    (extractWithin (depth + 1) (referring reference) f.hint).runIn world s =
      (followed depth struct reference).runIn world s := by
  obtain ⟨hreading, hstruct⟩ := reading_of_reference hslot hreference
  rw [hsingle] at hreading
  cases hreading with
  | single hunwrap =>
    rw [← runIn_decode_referring hunwrap hstruct reference s]
    cases reference <;> rfl

/-- Under a sequence type a row is extracted item by item. -/
theorem extractWithin_multifield {item : Hint} {asTuple : Bool} {es : List EngineValue}
    (hrow : h.unwrapOptional = (m, optional)) (hitems : m.items = .each asTuple item)
    (hitem : item ≠ .any) :
    extractWithin (depth + 1) (.multifield es) h =
      (do
        return .row asTuple (← es.mapM (item.decode (some (resolveBy (extractWithin depth))))) :
        Act Value) := by
  have hunion : m.isUnion = false := by cases m <;> first | rfl | cases hitems
  change h.decode _ _ = _
  rw [Hint.decode_of_unwrapOptional _ hrow hunion, if_neg (by simp [EngineValue.isNil]),
    Hint.decode_of_items hitems hitem]
  rfl

/-- What a slot for many objects of a declared struct type holds is extracted by following it item
by item. -/
theorem runIn_extractWithin_references (hslot : reflectField world.types owner f = .ok slot)
    (hreference : slot.reference = some (.struct struct, className)) (hmulti : slot.multi = true) :
    ∃ asTuple, ∀ (references : List (Option String)) depth s,
      (extractWithin (depth + 1) (.multifield (references.map referring)) f.hint).runIn world s =
        (do return .row asTuple (← references.mapM (followed depth struct)) :
          Act Value).runIn world s := by
  obtain ⟨hreading, hstruct⟩ := reading_of_reference hslot hreference
  rw [hmulti] at hreading
  cases hreading with
  | @row h item _ wide _ asTuple hrow hitems hunwrap =>
    refine ⟨asTuple, fun references depth s ↦ ?_⟩
    have hitem : item ≠ .any := by
      rintro rfl
      cases hunwrap
    have hsame : ∀ reference ∈ references, ∀ s,
        ((item.decode (some (resolveBy (extractWithin depth))) ∘ referring)
          reference).runIn world s = (followed depth struct reference).runIn world s :=
      fun reference _ s ↦ runIn_decode_referring hunwrap hstruct reference s
    rw [extractWithin_multifield hrow hitems hitem, List.mapM_map, runIn_bind, runIn_bind,
      runIn_mapM_congr hsame]

end

/-! ### What following comes to -/

/-- Why the instance of a name cannot be made anew: the names of its slots cannot be read, its type
cannot be read, no new object of the type can be made, or what a slot holds is not converted for its
field. -/
inductive Unfollowed (world : World) (depth : Nat) (struct name : String) (e : Error) : Prop where
  | names {h : InstanceHandle} {s t : State} (hname : h.name = name)
      (hrun : h.slotNames.runIn world s = (.error e, t))
  | declaration (hfields : world.types.fields world.config.tags (.struct struct) = .error e)
  | blank {declared : List Field} {number : Nat}
      (hfields : world.types.fields world.config.tags (.struct struct) = .ok declared)
      (hcause : Unmakeable world (.struct struct) (fieldsInReading number declared) e)
  | slot {declared : List Field} {number : Nat} {h : InstanceHandle} {f : Field} {s t : State}
      (hname : h.name = name)
      (hfields : world.types.fields world.config.tags (.struct struct) = .ok declared)
      (hf : f ∈ fieldsInReading number declared)
      (hrun : (do extractWithin depth (← h.slot (.text f.engineName)) f.hint :
        Act Value).runIn world s = (.error e, t))

/-- Makes a new object of a struct type for an instance whose slots have some names, notes it and
fills it. -/
def InstanceHandle.anew (h : InstanceHandle) (depth : Nat) (struct : String) (names : List String) :
    Act Value := do
  let fields ← fieldsAnew (.struct struct)
  let object ← blank (.struct struct) fields
  visit h.name (.struct struct) object
  filling object fun object ↦
    fillFields (extractWithin depth) object fields (fun name ↦ h.slot (.text name)) names

section

variable {world : World} {struct name : String} {depth : Nat} {s t : State} {e : Error} {w : Value}

/-- An instance that was not met before under a type has its slots listed and is made anew. -/
theorem exists_anew_of_followed (depth : Nat)
    (hstruct : world.types.isStruct (.struct struct) = true)
    (hnew : s.visited.lookup (name, .struct struct) = none) :
    ∃ (h : InstanceHandle) (u : State), h.name = name ∧
      (followed depth struct (some name)).runIn world s =
        (h.slotNames >>= h.anew depth struct).runIn world u := by
  obtain ⟨h, u, hname, hvisited, hhandle⟩ : ∃ h u, h.name = name ∧ u.visited = s.visited ∧
      (instanceHandle name).runIn world s = (.ok h, u) := ⟨_, _, rfl, rfl, rfl⟩
  refine ⟨h, u, hname, ?_⟩
  have hunseen : (visitedFor h.name (.struct struct)).runIn world u = (.ok none, u) := by
    change (Except.ok (u.visited.lookup (h.name, .struct struct)), u) = _
    rw [hname, hvisited, hnew]
  unfold followed
  dsimp only
  rw [runIn_bind_of_ok hhandle]
  unfold extractInstance
  rw [runIn_bind_of_ok hunseen]
  refine runIn_bind_congr (fun names v ↦ ?_) u
  rw [runIn_bind_of_ok (runIn_read world v), hstruct]
  rfl

theorem eq_object_of_blank {fields : List Field} {o : Value}
    (hrun : (blank (.struct struct) fields).runIn world s = (.ok o, t)) :
    ∃ id, o = .object struct id := by
  obtain ⟨_, _, hread, hblank⟩ := ok_of_bind hrun
  cases hread
  have hfilled : ∀ {initial : Field → Act Value} {s t : State},
      (blank.filled fields struct initial).runIn world s = (.ok o, t) → ∃ id,
        o = .object struct id := by
    intro initial s t hrun
    obtain ⟨id, _, halloc, hfill⟩ := ok_of_bind hrun
    obtain ⟨_, _, -, hreturn⟩ := ok_of_bind hfill
    cases halloc
    cases hreturn
    exact ⟨_, rfl⟩
  dsimp only at hblank
  split at hblank
  · split at hblank
    · obtain ⟨_, _, -, hrest⟩ := ok_of_bind hblank
      obtain ⟨id, _, halloc, hfill⟩ := ok_of_bind hrest
      obtain ⟨_, _, -, hreturn⟩ := ok_of_bind hfill
      cases halloc
      cases hreturn
      exact ⟨_, rfl⟩
    · exact hfilled hblank
  · exact hfilled hblank

/-- What following an instance comes to is an object of the type, if the instance was not met before
under it. -/
theorem eq_object_of_followed (hstruct : world.types.isStruct (.struct struct) = true)
    (hnew : s.visited.lookup (name, .struct struct) = none)
    (hrun : (followed depth struct (some name)).runIn world s = (.ok w, t)) :
    ∃ id, w = .object struct id := by
  obtain ⟨h, u, -, hfollowed⟩ := exists_anew_of_followed depth hstruct hnew
  rw [hfollowed] at hrun
  obtain ⟨names, _, -, hanew⟩ := ok_of_bind hrun
  obtain ⟨fields, _, -, hmade⟩ := ok_of_bind hanew
  obtain ⟨object, _, hblank, hnoted⟩ := ok_of_bind hmade
  obtain ⟨_, _, -, hfilled⟩ := ok_of_bind hnoted
  obtain ⟨id, rfl⟩ := eq_object_of_blank hblank
  exact ⟨id, (ok_of_filling hstruct hfilled).1⟩

/-- Following an instance that was not met before fails only for what is its own. -/
theorem unfollowed_of_error (hstruct : world.types.isStruct (.struct struct) = true)
    (hnew : s.visited.lookup (name, .struct struct) = none)
    (hrun : (followed depth struct (some name)).runIn world s = (.error e, t)) :
    Unfollowed world depth struct name e := by
  obtain ⟨h, u, hname, hfollowed⟩ := exists_anew_of_followed depth hstruct hnew
  rw [hfollowed] at hrun
  obtain hnames | ⟨names, v, -, hrun⟩ := cases_of_bind_error hrun
  · exact .names hname hnames
  exact kind_of_anew_error (onlyNotes_visit _ _) (fun _ hfields ↦ .declaration hfields)
    (fun _ _ _ hfields hcause ↦ .blank hfields hcause)
    (fun _ _ _ hfields hf _ _ _ _ hrun ↦ .slot hname hfields hf hrun) hrun

end

/-! ### Engine values -/

section

variable {world : World} {table : TypeTable} {owner className name : String} {f : Field}
variable {slot : SlotSchema}
variable {kind : ValueKind} {depth : Nat} {s t : State}

/-- A name is not followed under a type of engine values: it is refused, unless the type is that of
names. -/
theorem decode_instanceName_engineValue {resolve : Option (EngineValue → Hint → Act Value)}
    {h : Hint} {optional : Bool} (hunwrap : h.unwrapOptional = (.engineValue (some kind), optional))
    (name : String) :
    h.decode resolve (.instanceName name) =
      if kind = .instanceName then pure (.engine (.instanceName name))
      else throw (.unsupported (.typeExpected kind.typeName ValueKind.instanceName.typeName)) := by
  rw [Hint.decode_of_unwrapOptional _ hunwrap rfl, if_neg (by simp [EngineValue.isNil])]
  cases kind <;> rfl

/-- In a slot for one engine value a name is not followed: it is refused, unless a name is asked
for. -/
theorem extractWithin_engineValue (hslot : reflectField table owner f = .ok slot)
    (hreference : slot.reference = some (.engineValue (some kind), className))
    (hsingle : slot.multi = false) (name : String) (depth : Nat) :
    extractWithin (depth + 1) (.instanceName name) f.hint =
      if kind = .instanceName then pure (.engine (.instanceName name))
      else throw (.unsupported (.typeExpected kind.typeName ValueKind.instanceName.typeName)) := by
  obtain ⟨hreading, -⟩ := reading_of_reference hslot hreference
  rw [hsingle] at hreading
  cases hreading with
  | single hunwrap => exact decode_instanceName_engineValue hunwrap name

/-- A slot for many engine values that are no names takes no row with a name in it. -/
theorem extractWithin_engineValues_refused (hslot : reflectField table owner f = .ok slot)
    (hreference : slot.reference = some (.engineValue (some kind), className))
    (hmulti : slot.multi = true) (hkind : kind ≠ .instanceName) {references : List (Option String)}
    (hname : some name ∈ references) (w : Value) :
    (extractWithin (depth + 1) (.multifield (references.map referring)) f.hint).runIn world s ≠
      (.ok w, t) := by
  obtain ⟨hreading, -⟩ := reading_of_reference hslot hreference
  rw [hmulti] at hreading
  cases hreading with
  | @row h item _ wide _ asTuple hrow hitems hunwrap =>
    intro hrun
    have hitem : item ≠ .any := by
      rintro rfl
      cases hunwrap
    rw [extractWithin_multifield hrow hitems hitem] at hrun
    obtain ⟨ws, u, hread, -⟩ := ok_of_bind hrun
    obtain ⟨w, u, v, hdecode⟩ := exists_run_of_mapM hread (List.mem_map_of_mem hname)
    rw [referring, decode_instanceName_engineValue hunwrap, if_neg hkind] at hdecode
    cases hdecode

end

/-! ### An instance that is not found again -/

/-- A struct type with a field for an engine value. -/
def boxTypes : TypeTable where
  types := [{ name := "Box", kind := .described,
              fields := [{ attr := "content", hint := .engineValue (some .integer) }] }]

/-- Its field. -/
def contentField : Field := { attr := "content", hint := .engineValue (some .integer) }

/-- What an insertion of such an object leaves: an instance that refers to another one, which holds
the integer. -/
def boxStore : Store where
  instances := [("gen1", "Box"), ("gen2", "IntegerValue")]
  slots className := if className = "Box" then ["content"] else ["value"]
  value name _ := if name = "gen1" then .instanceName "gen2" else .int 3

/-- A field for an integer of the engine has a slot that refers to instances. The instance that is
there has the slot of its type, with an integer in it that converts, and its name is refused in the
slot of the field. -/
theorem engine_value_field_unfollowed :
    let world := World.ofDepth boxTypes {} boxStore.engine 0
    let h : InstanceHandle := ⟨"gen2", 0, 1⟩
    (reflectField boxTypes "Box" contentField).toOption.map (fun slot ↦ (slot.kind, slot.multi)) =
        some (.classReference, false) ∧
      ((boxTypes.fields {} (.engineValue (some .integer))).toOption.map (·.map (·.engineName)) =
        some ["value"] ∧
        (h.slotNames.runIn world {}).1.toOption = some ["value"] ∧
        ((do extractValue (← h.slot (.text "value")) (.int .unsized) :
          Act Value).runIn world {}).1.toOption.bind Value.integer? = some 3) ∧
      ((extractValue (.instanceName "gen2") contentField.hint).runIn world {}).1 =
        .error (.unsupported (.typeExpected "IntegerValue" "InstanceNameValue")) := by
  intro world h
  refine ⟨by decide +kernel, ⟨by decide +kernel, by decide +kernel, by decide +kernel⟩, ?_⟩
  rfl

end RuleMarshal
