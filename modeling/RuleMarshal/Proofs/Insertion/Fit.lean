import RuleMarshal.Environment.Insertion
import RuleMarshal.Proofs.Computation.Carrying
import RuleMarshal.Proofs.Computation.Result
import RuleMarshal.Proofs.Schema.Facet
import RuleMarshal.Proofs.Schema.Slot
/-!
Values that fit their slots. A slot that holds scalars is defined by a form with a facet for its
types, and one for the symbols that it takes where those are few. What such a slot is given on an
insertion, if it is given anything, is what that form asks for (`takes_of_slotValue`): a row if the
slot is for many values, a single value else, and in both cases scalars of the slot's kind, or nil
where the values are optional.
-/

set_option autoImplicit false
set_option relaxedAutoImplicit false

namespace RuleMarshal

open Act

/-- Whether a value is a scalar of the kind that a slot holds. -/
inductive SlotKind.Holds : SlotKind → EngineValue → Prop
  | integer (n : Int) (fits : FitsEngine n) : Holds .integer (.integer n fits)
  | float (x : Binary64) : Holds .float (.float x)
  | string (text : String) : Holds .string (.string text)
  | symbol (name : String) : Holds .symbol (.symbol name)
  | instanceName (name : String) : Holds .instanceName (.instanceName name)
  | boolean (b : Bool) : Holds .boolean (.ofBool b)

variable {table : TypeTable} {owner : String} {f : Field} {slot : SlotSchema}
variable {h item m : Hint} {kind : SlotKind} {referred : Option Hint} {v : Value} {e : EngineValue}
variable {optional multi asTuple : Bool}

/-! ### Scalars -/

/-- A slot that neither holds anything nor refers to objects is for values of a scalar type. -/
theorem isScalar_of_slotKind? (hkind : slotKind? table m = some (kind, referred))
    (hany : kind ≠ .any) (hclass : kind ≠ .classReference) :
    m.isScalar = true ∧ referred = none := by
  unfold slotKind? at hkind
  split at hkind
  case h_10 =>
    split_ifs at hkind
    · cases hkind
      exact absurd rfl hclass
    · cases hkind
      exact absurd rfl hany
  all_goals
    cases hkind
    first
    | exact ⟨rfl, rfl⟩
    | exact absurd rfl hany

theorem isDynamic_of_isScalar (hscalar : m.isScalar = true) : m.isDynamic = false := by
  obtain ⟨a, rfl⟩ := Hint.atom_of_isScalar hscalar
  cases a <;> first | rfl | cases hscalar

/-- Whether a value counts as a float: it is that float, or an integer that the float is nearest
to. -/
inductive Value.CountsAs (x : Binary64) : Value → Prop
  | float : CountsAs x (.float x)
  | int {width : IntType} {n : Int} (hn : Binary64.ofInt? n = some x) : CountsAs x (.int width n)

namespace Hint

/-- What a value is encoded as under a scalar type. -/
inductive ScalarWritten : Hint → Value → EngineValue → Prop
  | bool (b : Bool) : ScalarWritten .bool (.bool b) (.ofBool b)
  | int (declared width : IntType) (n : Int) (fits : FitsEngine n) :
      ScalarWritten (.int declared) (.int width n) (.integer n fits)
  | float {v : Value} {x : Binary64} (hv : v.CountsAs x) : ScalarWritten .float v (.float x)
  | symbol {v : Value} {s : String} (hv : v.text? = some s) : ScalarWritten .symbol v (.symbol s)
  | instanceName {v : Value} {s : String} (hv : v.text? = some s) :
      ScalarWritten .instanceName v (.instanceName s)
  | text {v : Value} {s : String} (hv : v.text? = some s) : ScalarWritten .text v (.string s)

theorem scalarWritten_of_encode (hscalar : h.isScalar = true) (hencode : h.encode v = .ok e) :
    ScalarWritten h v e := by
  obtain ⟨a, rfl⟩ := atom_of_isScalar hscalar
  have hatom : encodeAtom a v = .ok e := by
    cases v
    case none =>
      rw [encode.eq_def] at hencode
      dsimp only at hencode
      rw [isDynamic_of_isScalar hscalar] at hencode
      cases hencode
    all_goals exact hencode
  unfold encodeAtom at hatom
  cases a with
  | bool =>
    dsimp only at hatom
    split at hatom <;> cases hatom
    exact .bool _
  | int declared =>
    dsimp only at hatom
    split at hatom
    · obtain ⟨n, hn, hinteger⟩ := Except.ok_of_bind hatom
      unfold IntType.checked at hn
      split at hn <;> cases hn
      unfold EngineValue.ofInt at hinteger
      split at hinteger <;> cases hinteger
      exact .int _ _ _ _
    · cases hatom
  | float =>
    dsimp only at hatom
    split at hatom
    · cases hatom
      exact .float .float
    · split at hatom <;> cases hatom
      exact .float (.int ‹_›)
    · cases hatom
  | symbol =>
    dsimp only at hatom
    split at hatom <;> cases hatom
    exact .symbol ‹_›
  | instanceName =>
    dsimp only at hatom
    split at hatom <;> cases hatom
    exact .instanceName ‹_›
  | text =>
    dsimp only at hatom
    split at hatom <;> cases hatom
    exact .text ‹_›
  | _ => cases hscalar

end Hint

/-- What is encoded under a scalar type is of the kind of its slot. -/
theorem holds_of_encode (hkind : slotKind? table m = some (kind, referred))
    (hscalar : m.isScalar = true) (hencode : m.encode v = .ok e) : kind.Holds e := by
  cases Hint.scalarWritten_of_encode hscalar hencode <;> cases hkind <;> constructor

/-- What is encoded under a scalar type, or an optional one, is a scalar of the slot's kind, or nil
where a value may be absent. -/
theorem holds_or_eq_nil_of_encode (hunwrap : h.unwrapOptional = (m, optional))
    (hkind : slotKind? table m = some (kind, referred)) (hscalar : m.isScalar = true)
    (hencode : h.encode v = .ok e) : kind.Holds e ∨ (optional = true ∧ e = .nil) := by
  obtain ⟨a, rfl⟩ := Hint.atom_of_isScalar hscalar
  obtain ⟨rfl, -⟩ | ⟨-, -, -, rfl, -⟩ := Hint.unwrapOptional_cases hunwrap rfl
  · exact .inl (holds_of_encode hkind hscalar hencode)
  · by_cases hv : v = .none
    · subst hv
      rw [Hint.encode_none_of_optional hunwrap rfl] at hencode
      cases hencode
      exact .inr ⟨rfl, rfl⟩
    · rw [Hint.encode_of_unwrapOptional hunwrap rfl hv] at hencode
      exact .inl (holds_of_encode hkind hscalar hencode)

/-! ### Rows -/

namespace Hint

/-- Whether a value is a row that is encoded item by item. -/
def EncodedEach (item : Hint) (v : Value) (e : EngineValue) : Prop :=
  ∃ asRow vs es, v = .row asRow vs ∧ vs.mapM item.encode = .ok es ∧ e = .multifield es

/-- Under a sequence type nothing but rows is encoded, item by item. -/
theorem encodedEach_of_encode (hitems : h.items = .each asTuple item)
    (hencode : h.encode v = .ok e) :
    EncodedEach item v e := by
  by_cases hrow : ∃ asRow vs, v = .row asRow vs
  · obtain ⟨asRow, vs, rfl⟩ := hrow
    rw [encode_of_items hitems] at hencode
    obtain ⟨es, hes, hreturn⟩ := Except.ok_of_bind hencode
    cases hreturn
    exact ⟨asRow, vs, es, rfl, hes, rfl⟩
  · obtain ⟨cause, hrefused⟩ :=
      exists_unsupported_of_items hitems fun asRow vs hv ↦ hrow ⟨asRow, vs, hv⟩
    rw [hrefused] at hencode
    cases hencode

end Hint

/-! ### Slots -/

namespace SlotSchema

theorem word_mem_typeWords (hkind : slot.kind = kind) (hboolean : kind ≠ .boolean) :
    kind.word ∈ slot.typeWords := by
  subst hkind
  unfold typeWords
  split
  · exact absurd ‹_› hboolean
  · rename_i hsymbol
    rw [hsymbol]
    exact List.mem_singleton.mpr rfl
  · split
    · exact List.mem_cons_self
    · exact List.mem_singleton.mpr rfl

/-- A slot takes the scalars of its kind. -/
theorem letsIn_of_holds (hkind : slot.kind = kind) (hholds : kind.Holds e) :
    Form.LetsIn slot.facetForms e := by
  cases hholds with
  | integer n fits => exact letsIn_facetForms (word_mem_typeWords hkind nofun) nofun
  | float x => exact letsIn_facetForms (word_mem_typeWords hkind nofun) nofun
  | string text => exact letsIn_facetForms (word_mem_typeWords hkind nofun) nofun
  | instanceName name => exact letsIn_facetForms (word_mem_typeWords hkind nofun) nofun
  | symbol name =>
    refine letsIn_facetForms (word_mem_typeWords hkind nofun) fun _ words _ hallowed ↦ ?_
    unfold allowedSymbols? at hallowed
    rw [hkind] at hallowed
    cases hallowed
  | boolean b =>
    have htypes : "SYMBOL" ∈ slot.typeWords := by
      unfold typeWords
      rw [hkind]
      exact List.mem_singleton.mpr rfl
    refine letsIn_facetForms htypes fun name words hname hallowed ↦ ?_
    unfold allowedSymbols? at hallowed
    rw [hkind] at hallowed
    cases hallowed
    cases hname
    cases b <;> split <;> simp

/-- A slot of scalars whose values may be absent takes nil. -/
theorem letsIn_nil (hoptional : slot.optional = true) : Form.LetsIn slot.facetForms .nil := by
  have hnullable : slot.nullable = true := by simp [nullable, hoptional]
  refine letsIn_facetForms ?_ fun name words hname hallowed ↦ ?_
  · change "SYMBOL" ∈ slot.typeWords
    unfold typeWords
    split <;> simp [hnullable]
  · cases hname
    unfold allowedSymbols? at hallowed
    split at hallowed
    · cases hallowed
      simp [hnullable]
    · cases hallowed
    · rw [if_pos hnullable] at hallowed
      cases hallowed
      exact List.mem_singleton.mpr rfl

end SlotSchema

theorem SlotKind.Holds.ne_multifield (hholds : kind.Holds e) (items : List EngineValue) :
    e ≠ .multifield items := by
  cases hholds <;> nofun

theorem SlotSchema.letsIn_of_encode (hkind : slotKind? table m = some (slot.kind, referred))
    (hscalar : m.isScalar = true) (hunwrap : h.unwrapOptional = (m, slot.optional))
    (hencode : h.encode v = .ok e) :
    (∀ items, e ≠ .multifield items) ∧ Form.LetsIn slot.facetForms e := by
  obtain hholds | ⟨hoptional, rfl⟩ := holds_or_eq_nil_of_encode hunwrap hkind hscalar hencode
  · exact ⟨hholds.ne_multifield, slot.letsIn_of_holds rfl hholds⟩
  · exact ⟨nofun, slot.letsIn_nil hoptional⟩

/-- What the value of a field of scalars is encoded as is what the definition of its slot asks
for. -/
theorem SlotSchema.takes_of_encode (hkind : slotKind? table m = some (slot.kind, referred))
    (hscalar : m.isScalar = true) (hreading : SlotReading h slot.multi m slot.optional)
    (hencode : h.encode v = .ok e) (hv : slot.multi = true → v ≠ .none) : slot.form.Takes e := by
  unfold form
  generalize hmulti : slot.multi = multi at hreading hv ⊢
  cases hreading with
  | single hunwrap hitems =>
    obtain ⟨hsingle, hlets⟩ := slot.letsIn_of_encode hkind hscalar hunwrap hencode
    exact .single hsingle hlets
  | @row k item _ wide optional asTuple hrow hitems hunwrap =>
    have hunion : k.isUnion = false := by cases k <;> first | rfl | cases hitems
    rw [Hint.encode_of_unwrapOptional hrow hunion (hv rfl)] at hencode
    obtain ⟨-, vs, es, -, hes, rfl⟩ := Hint.encodedEach_of_encode hitems hencode
    refine .row fun e he ↦ ?_
    obtain ⟨v, -, hv⟩ := Except.exists_of_mem_mapM hes he
    exact (slot.letsIn_of_encode hkind hscalar hunwrap hv).2

/-- What a slot of scalars is given on an insertion is what its definition asks for. The definition
is one proper form, which can be told from its text: a slot for many values gets a row, another slot
a single value, and each single value is of a kind that the types of the definition list and, if it
is a symbol and the definition lists the symbols allowed, among these. -/
theorem takes_of_slotValue {insertNested : Value → Inserting String} {world : World}
    {i j : Insertion} {s t : State} (constrainClass : Bool)
    (hslot : reflectField table owner f = .ok slot) (hany : slot.kind ≠ .any)
    (hclass : slot.kind ≠ .classReference)
    (hrun : Carrying.runIn (slotValue insertNested slot v) world i s = (.ok (e, j), t)) :
    ∃ definition : Form, definition.Proper ∧
      definition.spell = (slot.render constrainClass).toList ∧
      definition.Takes e := by
  obtain ⟨haccepted, m, optional, multi, hreading, hholding⟩ :=
    exists_slotHolding_of_reflectField hslot
  obtain ⟨kind, referred, reference, hkind, hreference, rfl⟩ := eq_of_slotHolding hholding
  obtain ⟨hscalar, rfl⟩ := isScalar_of_slotKind? hkind hany hclass
  obtain rfl : reference = none := Option.not_isSome_iff_eq_none.mp (by simp [hreference])
  refine ⟨_, SlotSchema.proper_form haccepted, (SlotSchema.toList_render hany hclass).symm, ?_⟩
  obtain ⟨_, _, _, hget, hvalue⟩ := Carrying.ok_of_bind hrun
  obtain ⟨rfl, rfl, rfl⟩ := Carrying.ok_of_getThe hget
  dsimp only at hvalue
  split at hvalue
  · obtain ⟨rfl, -, -⟩ := Carrying.ok_of_pure hvalue
    exact .row fun _ hmem ↦ absurd hmem List.not_mem_nil
  · rename_i hother
    obtain ⟨hencoded, -, -⟩ := Carrying.ok_of_ofExcept hvalue
    exact SlotSchema.takes_of_encode hkind hscalar hreading hencoded hother

/-- A field of truth values in a row, of which some may be absent. -/
def flagsField : Field := { attr := "flags", hint := .listOf (.union .word [.bool, .noneType]) }

/-- Its slot. -/
def flagsSlot : SlotSchema :=
  { name := "flags", attr := "flags", kind := .boolean, multi := true, optional := true,
    hint := flagsField.hint, reference := none }

/-- A world in which nothing is asked for. -/
def idleWorld : World :=
  { engine := fun _ _ ↦ {}, invoke := fun _ _ s ↦ (.ok .none, s),
    resolve := fun _ _ s ↦ (.ok .none, s) }

/-- A truth value and an absent one go as two symbols, and the definition of the slot lists both. -/
theorem takes_of_slotValue_flags :
    reflectField {} "Panel" flagsField = .ok flagsSlot ∧
      flagsSlot.render =
        "(multislot flags (type SYMBOL) (allowed-symbols TRUE FALSE nil) (create-accessor read-write))" ∧
      Carrying.runIn (slotValue (fun _ ↦ pure "") flagsSlot (.list [.bool true, .none]))
        idleWorld {} {} =
        (.ok (.multifield [.symbol "TRUE", .symbol "nil"], {}), {}) ∧
      ∃ definition : Form, definition.Proper ∧ definition.spell = flagsSlot.render.toList ∧
        definition.Takes (.multifield [.symbol "TRUE", .symbol "nil"]) := by
  have hslot : reflectField {} "Panel" flagsField = .ok flagsSlot := rfl
  have hcontent : ({} : Heap).content (.list [.bool true, .none]) = .list [.bool true, .none] := by
    simp [Heap.content, Value.settledWithin, settledEach]
  have hrun : Carrying.runIn (slotValue (fun _ ↦ pure "") flagsSlot (.list [.bool true, .none]))
      idleWorld {} {} =
      (.ok (.multifield [.symbol "TRUE", .symbol "nil"], {}), {}) := by
    have hget (i : Insertion) : Carrying.runIn (getThe State : Inserting State) idleWorld i {} =
        (.ok ({}, i), {}) := rfl
    unfold slotValue
    rw [Carrying.runIn_bind_of_ok (hget _)]
    simp only [flagsSlot]
    rw [hcontent]
    rfl
  exact ⟨hslot, rfl, hrun, takes_of_slotValue true hslot (by decide) (by decide) hrun⟩

end RuleMarshal
