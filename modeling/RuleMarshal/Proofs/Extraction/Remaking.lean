import RuleMarshal.Proofs.Extraction.Slots
import RuleMarshal.Proofs.Insertion.Graph
/-!
Engine values as targets. An engine value is known by its content alone: its attributes are filled
in a cell of their own, and what they make up then is the target (`ok_of_filling_engine`). What is
made up holds in its attributes what was stored there, whether it is an engine value again or an
object (`attribute?_of_filling_engine`), because the contents of engine values are converted as they
are written there (`isPlain_of_convert`).
-/

set_option autoImplicit false
set_option relaxedAutoImplicit false

namespace RuleMarshal

open Act

/-! ### The attributes of engine values -/

/-- What an engine value keeps in its attributes. -/
def EngineValue.attributes (v : EngineValue) : List (String × Value) :=
  engineAttributes.filterMap fun attr ↦ (v.attribute? attr).map fun w ↦ (attr, w)

/-- A value that an engine value gives back as it took it: texts and integers of no type of their
own. -/
def Value.IsPlain : Value → Prop
  | .int type _ => type = .unsized
  | .symbol _ | .instanceName _ => False
  | _ => True

theorem EngineValue.attribute?_sole {v : EngineValue} {name attr : String}
    (hname : (v.attribute? name).isSome = true) (hattr : (v.attribute? attr).isSome = true) :
    attr = name := by
  unfold attribute? at hname hattr
  split at hname <;> split at hattr <;> first | rfl | contradiction

theorem EngineValue.attribute?_eq_lookup {v : EngineValue} {name : String} {w : Value}
    (hw : v.attribute? name = some w) (attr : String) :
    v.attribute? attr = [(name, w)].lookup attr := by
  rw [List.lookup_cons]
  by_cases heq : attr = name
  · rw [heq, hw, beq_self_eq_true]
  · rw [beq_false_of_ne heq]
    cases hattr : v.attribute? attr with
    | none => rfl
    | some u => exact absurd (attribute?_sole (by rw [hw]; rfl) (by rw [hattr]; rfl)) heq

theorem EngineValue.lookup_attributes (v : EngineValue) (attr : String) :
    v.attributes.lookup attr = v.attribute? attr := by
  cases v with
  | instanceAddress | factAddress | bare => rfl
  | _ => exact (attribute?_eq_lookup rfl attr).symm
theorem EngineValue.isPlain_of_attributes {v : EngineValue} {w : Value}
    (hw : v.attributes = [("value", w)]) :
    w.IsPlain := by
  have hvalue : v.attribute? "value" = some w := by
    rw [← lookup_attributes, hw, List.lookup_cons, beq_self_eq_true]
  unfold attribute? at hvalue
  split at hvalue <;> cases hvalue <;> trivial

theorem eq_of_isPlain {v : Value} (hv : v.IsPlain) {text : String} (htext : v.text? = some text) :
    v = .text text := by
  cases v <;> cases htext <;> first | rfl | exact absurd hv id

theorem eq_map_of_mapM_engine? {items : List Value} {es : List EngineValue}
    (hitems : items.mapM Value.engine? = some es) : items = es.map .engine := by
  induction items generalizing es with
  | nil =>
    cases hitems
    rfl
  | cons v rest ih =>
    rw [List.mapM_cons] at hitems
    obtain ⟨e, he, hitems⟩ := Option.bind_eq_some_iff.mp hitems
    obtain ⟨others, hothers, heq⟩ := Option.bind_eq_some_iff.mp hitems
    cases heq
    obtain rfl : v = .engine e := by
      cases v <;> cases he
      rfl
    rw [ih hothers, List.map_cons]

theorem EngineValue.attribute?_of_ofAttributes? {kind : ValueKind} {attrs : List (String × Value)}
    {e : EngineValue} (hmade : EngineValue.ofAttributes? kind attrs = some e)
    (hplain : ∀ v, attrs = [("value", v)] → v.IsPlain) (attr : String) :
    e.attribute? attr = attrs.lookup attr := by
  unfold EngineValue.ofAttributes? at hmade
  split at hmade
  case h_1 =>
    split at hmade
    · cases hmade
      obtain rfl := hplain _ rfl
      exact attribute?_eq_lookup rfl attr
    · cases hmade
  case h_2 | h_7 =>
    cases hmade
    exact attribute?_eq_lookup rfl attr
  case h_3 | h_4 | h_5 =>
    obtain ⟨text, htext, rfl⟩ := Option.map_eq_some_iff.mp hmade
    obtain rfl := eq_of_isPlain (hplain _ rfl) htext
    exact attribute?_eq_lookup rfl attr
  case h_6 items =>
    obtain ⟨es, hes, rfl⟩ := Option.map_eq_some_iff.mp hmade
    obtain rfl := eq_map_of_mapM_engine? hes
    exact attribute?_eq_lookup rfl attr
  case h_8 => cases hmade

/-! ### Contents of engine values -/

section

variable {world : World} {s t : State} {w : Value}

/-- The type of the content of an engine value is one that is converted without a resolver. -/
theorem runIn_extractValue_atom {a : HintAtom} {v : EngineValue} {answer : Except Error Value}
    (hanswer : Hint.decodeAtom? a v = some answer)
    (hcontainer : (Hint.atom a).isContainer world.types = .ok false) :
    (extractValue v (.atom a)).runIn world s = (answer, s) := by
  have hdecode : ∀ resolve,
      (Hint.decode (some resolve) (.atom a) v : Act Value).runIn world s = (answer, s) := by
    intro resolve
    rw [Hint.decode, hanswer]
    exact runIn_ofExcept answer world s
  have hdeep : callLimit = (callLimit - 1) + 1 := rfl
  rw [extractValue, hdeep]
  unfold extractWithin
  dsimp only
  split
  · rw [runIn_bind_of_ok (runIn_read world s)]
    show Act.runIn (MonadExcept.ofExcept ((Hint.atom a).isContainer world.types) >>= _) world s = _
    rw [hcontainer]
    exact hdecode _
  · exact hdecode _

/-- The types of the contents of engine values. -/
def HintAtom.IsContent (a : HintAtom) : Prop := a = .int .unsized ∨ a = .float ∨ a = .text

theorem isPlain_of_extractValue {a : HintAtom} {v : EngineValue} (ha : a.IsContent)
    (hrun : (extractValue v (.atom a)).runIn world s = (.ok w, t)) : w.IsPlain := by
  rcases ha with rfl | rfl | rfl <;> rw [runIn_extractValue_atom rfl rfl] at hrun <;>
    injection hrun with hanswer _
  · cases hint : v.toInt .unsized with
    | error e =>
      rw [hint] at hanswer
      cases hanswer
    | ok n =>
      rw [hint] at hanswer
      cases hanswer
      rfl
  · split at hanswer
    · cases hanswer
      trivial
    · split at hanswer <;> cases hanswer
      trivial
    · cases hanswer
  · split at hanswer <;> cases hanswer <;> trivial

theorem isContent_of_field {kind : ValueKind} {declared : List Field} {f : Field}
    (hfields : engineValueFields kind = .ok declared) (hf : f ∈ declared)
    (hvalue : f.attr = "value") :
    ∃ a : HintAtom, f.hint = .atom a ∧ a.IsContent := by
  cases kind <;> cases hfields <;> cases List.mem_singleton.mp hf
  case integer => exact ⟨_, rfl, .inl rfl⟩
  case float => exact ⟨_, rfl, .inr (.inl rfl)⟩
  case string | symbol | instanceName => exact ⟨_, rfl, .inr (.inr rfl)⟩
  all_goals exact absurd hvalue (by decide)

/-- What is converted for the content of an engine value is plain. -/
theorem isPlain_of_convert {reader : SlotReader} {kind : ValueKind} {declared : List Field}
    {number : Nat} {f : Field} (hfields : engineValueFields kind = .ok declared)
    (hf : f ∈ fieldsInReading number declared) (hvalue : f.attr = "value")
    (hconverts : (reader.convert (.ofField f)).runIn world s = (.ok w, t)) :
    w.IsPlain := by
  obtain ⟨v, u, -, hextracted⟩ := ok_of_bind hconverts
  obtain ⟨d, hd, rfl⟩ := List.mem_map.mp hf
  obtain ⟨a, ha, hcontent⟩ := isContent_of_field hfields hd hvalue
  have hhint : d.hint.inReading number = .atom a := by
    rw [ha]
    rfl
  have hextracted : (extractValue v (d.hint.inReading number)).runIn world u = (.ok w, t) :=
    hextracted
  rw [hhint] at hextracted
  exact isPlain_of_extractValue hcontent hextracted

/-! ### Filling -/

theorem ok_of_asEngineValue {struct : String} {id : Nat}
    (hrun : (asEngineValue (.object struct id)).runIn world s = (.ok w, t)) :
    t = s ∧ (w = .object struct id ∨
      ∃ e kind, w = .engine e ∧ EngineValue.ofAttributes? kind (s.heap.attrs id) = some e) := by
  unfold asEngineValue at hrun
  dsimp only at hrun
  rw [runIn_bind_of_ok (runIn_read world s)] at hrun
  split at hrun
  · cases hrun
    exact ⟨rfl, .inl rfl⟩
  · rw [runIn_bind_of_ok (runIn_get world s)] at hrun
    cases hrun
    refine ⟨rfl, ?_⟩
    cases hmade : (ValueKind.ofTypeName? struct).bind fun kind ↦
      EngineValue.ofAttributes? kind (s.heap.attrs id) with
    | none => exact .inl (by simp)
    | some e =>
      obtain ⟨kind, -, hkind⟩ := Option.bind_eq_some_iff.mp hmade
      exact .inr ⟨e, kind, by simp, hkind⟩

/-- What attributes make up holds in its attributes what they hold. -/
theorem attribute?_of_asEngineValue {struct : String} {id : Nat} {heap : Heap}
    (hrun : (asEngineValue (.object struct id)).runIn world s = (.ok w, t))
    (hplain : ∀ v, s.heap.attrs id = [("value", v)] → v.IsPlain)
    (hheap : heap.attrs id = s.heap.attrs id) (attr : String) :
    heap.attribute? w attr = (s.heap.attrs id).lookup attr := by
  obtain ⟨-, rfl | ⟨e, kind, rfl, hmade⟩⟩ := ok_of_asEngineValue hrun
  · exact congrArg _ hheap
  · exact EngineValue.attribute?_of_ofAttributes? hmade hplain attr

/-- An engine value is filled as an object in a cell of its own, and what this comes to is the
target. -/
theorem ok_of_filling_engine {target : Value} {v : EngineValue} {fill : Value → Act Unit}
    (hopened : s.heap.opened target = .engine v)
    (hrun : (filling target fill).runIn world s = (.ok w, t)) :
    ∃ x filled, (fill (.object v.typeName s.heap.cells.size)).runIn world
        { s with heap := (s.heap.alloc (.object v.attributes)).1 } = (.ok ⟨⟩, x) ∧
      (asEngineValue (.object v.typeName s.heap.cells.size)).runIn world x = (.ok filled, x) ∧
      ((w = filled ∧ t = x ∧ ∀ id, target ≠ .held id) ∨
        ∃ id, target = .held id ∧ w = target ∧
          t = { x with heap := x.heap.put id (.value filled) }) := by
  unfold filling at hrun
  rw [runIn_bind_of_ok (runIn_get world s), hopened] at hrun
  obtain ⟨id, u, halloc, hrest⟩ := ok_of_bind hrun
  cases halloc
  obtain ⟨⟨⟩, x, hfill, hmaking⟩ := ok_of_bind hrest
  obtain ⟨filled, y, hmade, hplacing⟩ := ok_of_bind hmaking
  obtain ⟨rfl, -⟩ := ok_of_asEngineValue hmade
  clear hrun hrest hmaking
  refine ⟨y, filled, hfill, hmade, ?_⟩
  split at hplacing
  · rename_i id
    cases hplacing
    exact .inr ⟨id, rfl, rfl, rfl⟩
  · rename_i hother
    cases hplacing
    exact .inl ⟨rfl, rfl, hother⟩

/-! ### What is made of an engine value -/

theorem exists_of_engineValueFields {kind : ValueKind} {declared : List Field}
    (hfields : engineValueFields kind = .ok declared) (number : Nat) :
    ∃ f, fieldsInReading number declared = [f] := by
  cases kind <;> cases hfields <;> exact ⟨_, rfl⟩

/-- What the attribute of a sole field holds once a new object was filled. -/
theorem Transfers.sole {reader : SlotReader} {struct : String} {id : Nat} {names : List String}
    {f : Field} {stored : List (SlotPlace × Value)} (hreader : reader.Inquires)
    (hgrowing : world.Growing)
    (hplaces : stored.map Prod.fst = ([f].filter fun f ↦ names.contains f.engineName).map .ofField)
    (hid : id < s.heap.cells.size)
    (htransfers : Transfers world reader (.object struct id) stored s t) :
    (f.engineName ∉ names ∧ t = s) ∨ ∃ v u x, f.engineName ∈ names ∧ stored = [(.ofField f, v)] ∧
      (reader.convert (.ofField f)).runIn world u = (.ok v, x) ∧
        (t.heap.attrs id).lookup f.attr = some v := by
  by_cases hnamed : f.engineName ∈ names
  · right
    rw [List.filter_cons_of_pos (by simpa using hnamed), List.filter_nil] at hplaces
    cases htransfers with
    | done => cases hplaces
    | @next place v rest _ u x w hconverts hstores hrest =>
      obtain ⟨rfl, hnone⟩ := List.cons.inj hplaces
      obtain rfl := List.map_eq_nil_iff.mp hnone
      cases hrest
      refine ⟨v, s, u, hnamed, rfl, hconverts, ?_⟩
      have hgrows : HeapGrows s u :=
        (hreader.keeps_convert hgrowing.extracting _).of_runIn hconverts
      have hthere : id < u.heap.cells.size := Nat.lt_of_lt_of_le hid hgrows
      cases hstores
      show ((u.heap.put id (.object (putNamed (u.heap.attrs id) f.attr v))).attrs
        id).lookup f.attr = _
      rw [Heap.attrs, Heap.get?_put_self _ _ hthere]
      exact lookup_putNamed_self _ _ _
  · left
    rw [List.filter_cons_of_neg (by simpa using hnamed), List.filter_nil] at hplaces
    obtain rfl := List.map_eq_nil_iff.mp hplaces
    cases htransfers
    exact ⟨hnamed, rfl⟩

/-- What is filled in the place of an engine value holds in its attributes what the object that was
filled for it does. -/
theorem attribute?_of_filling_engine {target : Value} {v : EngineValue} {fill : Value → Act Unit}
    (hopened : s.heap.opened target = .engine v)
    (hrun : (filling target fill).runIn world s = (.ok w, t))
    (hheld : ∀ id, target = .held id → id < s.heap.cells.size) :
    ∃ x, (fill (.object v.typeName s.heap.cells.size)).runIn world
        { s with heap := (s.heap.alloc (.object v.attributes)).1 } = (.ok ⟨⟩, x) ∧
      t.history = x.history ∧ (∀ id, target = .held id → w = target) ∧
      (s.heap.cells.size ≤ x.heap.cells.size →
        (∀ u, x.heap.attrs s.heap.cells.size = [("value", u)] → u.IsPlain) →
        ∀ attr, t.heap.attribute? w attr = (x.heap.attrs s.heap.cells.size).lookup attr) := by
  obtain ⟨x, filled, hfill, hmade, hplaced⟩ := ok_of_filling_engine hopened hrun
  refine ⟨x, hfill, ?_, ?_, fun hsize hplain attr ↦ ?_⟩
  · obtain ⟨-, rfl, -⟩ | ⟨id, -, -, rfl⟩ := hplaced <;> rfl
  · intro id htarget
    obtain ⟨-, -, hother⟩ | ⟨_, -, hw, -⟩ := hplaced
    · exact absurd htarget (hother id)
    · exact hw
  · obtain ⟨rfl, rfl, -⟩ | ⟨id, rfl, rfl, rfl⟩ := hplaced
    · exact attribute?_of_asEngineValue hmade hplain rfl attr
    · have hid : id < s.heap.cells.size := hheld id rfl
      have hholds : (x.heap.put id (.value filled)).heldIn id = filled := by
        rw [Heap.heldIn, Heap.get?_put_self _ _ (Nat.lt_of_lt_of_le hid hsize)]
      have hattrs : (x.heap.put id (.value filled)).attrs s.heap.cells.size =
          x.heap.attrs s.heap.cells.size := by
        rw [Heap.attrs, Heap.attrs, Heap.get?_put_ne _ _ (Nat.ne_of_lt hid)]
      rw [← attribute?_of_asEngineValue hmade hplain hattrs attr]
      obtain ⟨-, rfl | ⟨e, kind, rfl, -⟩⟩ := ok_of_asEngineValue hmade <;>
        simp only [Heap.attribute?, Heap.opened, hholds]

/-- Slots are merged into an engine value: afterwards it holds what was converted for its field, or
what it held before if there is no slot for it. -/
theorem FillsSlots.merged_engine {reader : SlotReader} {names : List String} {target : Value}
    {v : EngineValue} {kind : ValueKind} (hreader : reader.Inquires) (hgrowing : world.Growing)
    (hfills : FillsSlots world reader names target (.engineValue (some kind)) s t w)
    (hopened : s.heap.opened target = .engine v)
    (hheld : ∀ id, target = .held id → id < s.heap.cells.size) :
    ∃ declared number stored object b x,
      engineValueFields kind = .ok declared ∧ b.history = s.history ∧
      Transfers world reader object stored b x ∧ t.history = x.history ∧
      FieldsMerged names (fieldsInReading number declared) stored v.attribute?
        (t.heap.attribute? w) ∧
      ∀ id, target = .held id → w = target := by
  cases hfills with
  | mapping htype => cases htype
  | @fields declared number _ _ hdeclared hfills =>
    let b : State := { s with heap := (s.heap.alloc (.object v.attributes)).1 }
    obtain ⟨x, hfill, hhistory, hsame, hattribute⟩ :=
      attribute?_of_filling_engine hopened hfills hheld
    rw [fillFields_eq_forM] at hfill
    obtain ⟨stored, hplaces, htransfers⟩ := transfers_of_forM hfill
    obtain ⟨f, hf⟩ := exists_of_engineValueFields hdeclared number
    have hmade : s.heap.cells.size < b.heap.cells.size := by simp [b, Heap.alloc]
    have hattrs : b.heap.attrs s.heap.cells.size = v.attributes := by
      have hget : b.heap.get? s.heap.cells.size = _ := s.heap.get?_alloc_self (.object v.attributes)
      rw [Heap.attrs, hget]
    have hsize : s.heap.cells.size ≤ x.heap.cells.size :=
      Nat.le_trans (Nat.le_of_lt hmade) (htransfers.size_le hreader hgrowing)
    refine ⟨declared, number, stored, _, b, x, hdeclared, rfl, htransfers, hhistory, ?_, hsame⟩
    rw [hf] at hplaces ⊢
    obtain ⟨hmissing, rfl⟩ | ⟨y, u, z, hnamed, rfl, hconverts, hholds⟩ :=
      htransfers.sole hreader hgrowing hplaces hmade
    · refine ⟨hplaces, fun g hg hnamed ↦ ?_, fun g _ _ ↦ ?_⟩
      · obtain rfl := List.mem_singleton.mp hg
        exact absurd hnamed hmissing
      · have hfound := hattribute hsize fun u hu ↦
          EngineValue.isPlain_of_attributes (hattrs.symm.trans hu)
        rw [hfound, ← v.lookup_attributes, ← hattrs]
    · have hplain : ∀ u, x.heap.attrs s.heap.cells.size = [("value", u)] → u.IsPlain := by
        intro u hu
        rw [hu, List.lookup_cons] at hholds
        by_cases hvalue : f.attr = "value"
        · rw [hvalue, beq_self_eq_true] at hholds
          obtain rfl := Option.some.inj hholds
          exact isPlain_of_convert hdeclared
            (by rw [hf]; exact List.mem_singleton_self f) hvalue hconverts
        · rw [beq_false_of_ne hvalue] at hholds
          cases hholds
      refine ⟨hplaces, fun g hg _ ↦ ?_, fun g hg hmissing ↦ ?_⟩
      · obtain rfl := List.mem_singleton.mp hg
        exact ⟨y, List.mem_singleton_self _, (hattribute hsize hplain g.attr).trans hholds⟩
      · obtain rfl := List.mem_singleton.mp hg
        exact absurd hnamed hmissing

end

end RuleMarshal
