import RuleMarshal.Convert.Decode
import RuleMarshal.Proofs.Schema.Memory
/-!
Plain values and what comes back of them. A field of a scalar type, of an optional one, or of a
sequence of these holds plain values: truth values, numbers and texts, and rows of them (`PlainOf`).
What such a value is encoded as is data for the engine, and decodes to the value again, but for the
widths of integers (`PlainOf.decode_encode`). An absent value is encoded as nil, so a symbol of that
spelling would not come back under an optional type.
-/

set_option autoImplicit false
set_option relaxedAutoImplicit false

namespace RuleMarshal

open MonadExcept (ofExcept)

/-! ### What comes back of a value -/

mutual

/-- A value with its objects in other cells, and with integers of no declared width. -/
def Value.renamed (cell : Nat → Nat) : Value → Value
  | .int _ n => .int .unsized n
  | .list items => .list (renamedEach cell items)
  | .tuple items => .tuple (renamedEach cell items)
  | .object struct id => .object struct (cell id)
  | v => v

/-- Values with their objects in other cells. -/
def renamedEach (cell : Nat → Nat) : List Value → List Value
  | [] => []
  | v :: rest => v.renamed cell :: renamedEach cell rest

end

/-- A row of values: a tuple or a list. -/
def Value.row (asTuple : Bool) (items : List Value) : Value :=
  if asTuple then .tuple items else .list items

theorem renamedEach_eq_map (cell : Nat → Nat) (vs : List Value) :
    renamedEach cell vs = vs.map (Value.renamed cell) := by
  induction vs with
  | nil => rfl
  | cons v rest ih => rw [renamedEach, ih, List.map_cons]

theorem Value.renamed_row (cell : Nat → Nat) (asTuple : Bool) (vs : List Value) :
    (row asTuple vs).renamed cell = row asTuple (vs.map (Value.renamed cell)) := by
  cases asTuple <;> simp [row, renamed, renamedEach_eq_map]

mutual

/-- Whether a value of the engine is data: a scalar, or a multifield of data. -/
def EngineValue.isData : EngineValue → Bool
  | .integer .. | .float _ | .string _ | .symbol _ | .instanceName _ => true
  | .multifield items => eachData items
  | _ => false

/-- Whether all values of a list are data. -/
def eachData : List EngineValue → Bool
  | [] => true
  | e :: rest => e.isData && eachData rest

end

namespace Hint

/-! ### Optional types -/

section

variable {h m : Hint} {optional : Bool}

/-- What is not optional is as it stands, and an optional type is a union of the absent value's type
and one member. -/
theorem unwrapOptional_cases (hunwrap : h.unwrapOptional = (m, optional)) (hm : m.isUnion = false) :
    (h = m ∧ optional = false) ∨ ∃ spelling members, h = .union spelling members ∧ optional = true ∧
      members.any isNoneType ∧ members.filter (fun k ↦ !k.isNoneType) = [m] := by
  cases h with
  | union spelling members =>
    rw [unwrapOptional] at hunwrap
    split at hunwrap
    · rename_i hany
      split at hunwrap
      · rename_i sole hsole
        cases hunwrap
        exact .inr ⟨spelling, members, rfl, rfl, hany, hsole⟩
      · cases hunwrap
        cases hm
    · cases hunwrap
      cases hm
  | _ =>
    cases hunwrap
    exact .inl ⟨rfl, rfl⟩

theorem encodeSole_of_filter {members : List Hint} (v : Value)
    (hsole : members.filter (fun k ↦ !k.isNoneType) = [m]) : encodeSole members v = encode m v := by
  induction members with
  | nil => cases hsole
  | cons first rest ih =>
    rw [encodeSole]
    by_cases hnone : first.isNoneType
    · rw [if_pos hnone]
      exact ih (by simpa [hnone] using hsole)
    · rw [if_neg hnone]
      rw [List.filter_cons_of_pos (by simpa using hnone)] at hsole
      rw [(List.cons.inj hsole).1]

/-- A value that is there is written under the only member that is for such. -/
theorem encode_of_sole {spelling : UnionSpelling} {members : List Hint} {v : Value}
    (hany : members.any isNoneType = true) (hsole : members.filter (fun k ↦ !k.isNoneType) = [m])
    (hv : v ≠ .none) :
    (union spelling members).encode v = m.encode v := by
  have hone : decide ([m].length = 1) = true := rfl
  rw [encode, hasSoleMember, hsole, if_pos hone]
  · exact encodeSole_of_filter v hsole
  · exact hany
  · exact hv

theorem encode_of_unwrapOptional {v : Value} (hunwrap : h.unwrapOptional = (m, optional))
    (hm : m.isUnion = false) (hv : v ≠ .none) : h.encode v = m.encode v := by
  obtain ⟨rfl, -⟩ | ⟨spelling, members, rfl, -, hany, hsole⟩ := unwrapOptional_cases hunwrap hm
  · rfl
  · exact encode_of_sole hany hsole hv

theorem encode_none_of_optional (hunwrap : h.unwrapOptional = (m, true)) (hm : m.isUnion = false) :
    h.encode .none = .ok .nil := by
  obtain ⟨-, hfalse⟩ | ⟨spelling, members, rfl, -, hany, -⟩ := unwrapOptional_cases hunwrap hm
  · cases hfalse
  · rw [encode]
    exact hany

section

variable {n : Type → Type} [Monad n] [MonadExcept Error n]
variable {resolve : Option (EngineValue → Hint → n Value)}

theorem decodeSole_of_filter {members : List Hint} (e : EngineValue)
    (hsole : members.filter (fun k ↦ !k.isNoneType) = [m]) :
    decodeSole resolve members e = decode resolve m e := by
  induction members with
  | nil => cases hsole
  | cons first rest ih =>
    rw [decodeSole]
    by_cases hnone : first.isNoneType
    · rw [if_pos hnone]
      exact ih (by simpa [hnone] using hsole)
    · rw [if_neg hnone]
      rw [List.filter_cons_of_pos (by simpa using hnone)] at hsole
      rw [(List.cons.inj hsole).1]

theorem decode_of_unwrapOptional (e : EngineValue) (hunwrap : h.unwrapOptional = (m, optional))
    (hm : m.isUnion = false) :
    h.decode resolve e = if optional && e.isNil then pure .none else m.decode resolve e := by
  obtain ⟨rfl, rfl⟩ | ⟨spelling, members, rfl, rfl, hany, hsole⟩ := unwrapOptional_cases hunwrap hm
  · rfl
  · rw [decode, if_pos hany, hasSoleMember, hsole, if_pos (by rfl : decide ([m].length = 1) = true)]
    rw [decodeSole_of_filter e hsole, Bool.true_and]

end

end

/-! ### Sequences -/

section

variable {h item : Hint} {asTuple : Bool}

theorem eq_of_ofItem {k : Hint} {asRow : Bool}
    (hitems : Items.ofItem asRow k = .each asTuple item) :
    k.isAbsence = false ∧ asTuple = asRow ∧ item = k := by
  unfold Items.ofItem at hitems
  split at hitems
  · cases hitems
  · rename_i hpresent
    cases hitems
    exact ⟨by simpa using hpresent, rfl, rfl⟩

theorem encodedItems_row (h : Hint) (asTuple : Bool) (vs : List Value) :
    encode.encodedItems h (.row asTuple vs) = .ok vs := by
  cases asTuple <;> rfl

/-- A row is encoded item by item. -/
theorem encode_of_items (hitems : h.items = .each asTuple item) (asRow : Bool) (vs : List Value) :
    h.encode (.row asRow vs) =
      (do return .multifield (← vs.mapM item.encode) : Except Error _) := by
  cases h with
  | atom a =>
    cases a <;> cases hitems
    all_goals cases asRow <;>
      simp [encode, encodeAtom, Value.row, sequenceItems, toEngineEach_eq_encode] <;> rfl
  | listOf k | tupleOf k | sequenceOf k | mutableSequenceOf k =>
    obtain ⟨hpresent, -, rfl⟩ := eq_of_ofItem hitems
    rw [encode, hpresent, if_neg Bool.false_ne_true, encodedItems_row]
    rfl
  | fixedTuple ks =>
    cases ks with
    | nil =>
      cases hitems
      rw [encode, encodedItems_row, toEngineEach_eq_encode]
      rfl
    | cons k rest =>
      rw [items] at hitems
      split at hitems
      · rename_i huniform
        obtain ⟨hpresent, -, rfl⟩ := eq_of_ofItem hitems
        cases asRow <;> simp [encode, Value.row, huniform, hpresent, sequenceItems] <;> rfl
      · cases hitems
  | generic origin ks =>
    cases origin with
    | list =>
      cases ks with
      | nil =>
        cases hitems
        rw [encode, encodedItems_row, toEngineEach_eq_encode]
        rfl
      | cons k rest =>
        obtain ⟨hpresent, -, rfl⟩ := eq_of_ofItem hitems
        rw [encode, hpresent, if_neg Bool.false_ne_true, encodedItems_row]
        rfl
    | _ => cases hitems
  | _ => cases hitems

theorem exists_unsupported_of_sequenceItems {v : Value} (h : Hint)
    (hsingle : ∀ asRow vs, v ≠ .row asRow vs) :
    ∃ cause, h.sequenceItems v = .error (.unsupported cause) := by
  cases v with
  | list vs => exact absurd rfl (hsingle false vs)
  | tuple vs => exact absurd rfl (hsingle true vs)
  | _ => exact ⟨_, rfl⟩

theorem exists_unsupported_of_encodedItems {v : Value} (h : Hint)
    (hsingle : ∀ asRow vs, v ≠ .row asRow vs) :
    ∃ cause, encode.encodedItems h v = .error (.unsupported cause) := by
  unfold encode.encodedItems
  split
  · exact ⟨_, rfl⟩
  · exact exists_unsupported_of_sequenceItems h hsingle

/-- Under a sequence type everything but a row is refused. -/
theorem exists_unsupported_of_items {v : Value} (hitems : h.items = .each asTuple item)
    (hsingle : ∀ asRow vs, v ≠ .row asRow vs) :
    ∃ cause, h.encode v = .error (.unsupported cause) := by
  obtain ⟨given, hgiven⟩ := exists_unsupported_of_encodedItems h hsingle
  obtain ⟨taken, htaken⟩ := exists_unsupported_of_sequenceItems h hsingle
  cases h with
  | atom a =>
    rw [encode.eq_def]
    dsimp only
    cases a <;> cases hitems
    all_goals
      split
      · exact ⟨_, rfl⟩
      · exact ⟨taken, by rw [encodeAtom, htaken]; rfl⟩
  | listOf k | tupleOf k | sequenceOf k | mutableSequenceOf k =>
    obtain ⟨hpresent, -, -⟩ := eq_of_ofItem hitems
    exact ⟨given, by rw [encode, hpresent, if_neg Bool.false_ne_true, hgiven]; rfl⟩
  | fixedTuple ks =>
    cases ks with
    | nil => exact ⟨given, by rw [encode, hgiven]; rfl⟩
    | cons k rest =>
      rw [items] at hitems
      split at hitems
      · rename_i huniform
        obtain ⟨hpresent, -, -⟩ := eq_of_ofItem hitems
        rw [encode.eq_def]
        dsimp only
        split
        · exact ⟨_, rfl⟩
        · exact ⟨taken, by rw [if_pos huniform, hpresent, if_neg Bool.false_ne_true, htaken]; rfl⟩
      · cases hitems
  | generic origin ks =>
    cases origin with
    | list =>
      cases ks with
      | nil => exact ⟨given, by rw [encode, hgiven]; rfl⟩
      | cons k rest =>
        obtain ⟨hpresent, -, -⟩ := eq_of_ofItem hitems
        exact ⟨given, by rw [encode, hpresent, if_neg Bool.false_ne_true, hgiven]; rfl⟩
    | _ => cases hitems
  | _ => cases hitems

/-- A multifield is decoded item by item. -/
theorem decode_of_items {n : Type → Type} [Monad n] [MonadExcept Error n]
    {resolve : Option (EngineValue → Hint → n Value)} (hitems : h.items = .each asTuple item)
    (hitem : item ≠ .any) (e : EngineValue) :
    h.decode resolve e = (do
      let es ← ofExcept (e.items h)
      return .row asTuple (← es.mapM (item.decode resolve))) := by
  cases h with
  | atom a => cases a <;> cases hitems <;> exact absurd rfl hitem
  | listOf k | tupleOf k | sequenceOf k | mutableSequenceOf k =>
    obtain ⟨hpresent, rfl, rfl⟩ := eq_of_ofItem hitems
    rw [decode, hpresent, if_neg Bool.false_ne_true]
    rfl
  | fixedTuple ks =>
    cases ks with
    | nil => cases hitems; exact absurd rfl hitem
    | cons k rest =>
      rw [items] at hitems
      split at hitems
      · rename_i huniform
        obtain ⟨hpresent, rfl, rfl⟩ := eq_of_ofItem hitems
        rw [decode, if_pos huniform, hpresent, if_neg Bool.false_ne_true]
        rfl
      · cases hitems
  | generic origin ks =>
    cases origin with
    | list =>
      cases ks with
      | nil => cases hitems; exact absurd rfl hitem
      | cons k rest =>
        obtain ⟨hpresent, rfl, rfl⟩ := eq_of_ofItem hitems
        rw [decode, hpresent, if_neg Bool.false_ne_true]
        rfl
    | _ => cases hitems
  | _ => cases hitems

end

/-! ### Types without mappings -/

/-- Whether a hint is an atom or a union of atoms. -/
def IsFlat (h : Hint) : Prop :=
  (∃ a, h = .atom a) ∨ ∃ spelling members,
    h = .union spelling members ∧ ∀ k ∈ members, ∃ a, k = .atom a

theorem isFlat_of_unwrapOptional {h : Hint} {a : HintAtom} {optional : Bool}
    (hunwrap : h.unwrapOptional = (.atom a, optional)) : h.IsFlat := by
  obtain ⟨rfl, -⟩ | ⟨spelling, members, rfl, -, -, hsole⟩ := unwrapOptional_cases hunwrap rfl
  · exact .inl ⟨a, rfl⟩
  · refine .inr ⟨spelling, members, rfl, fun k hk ↦ ?_⟩
    by_cases hnone : k.isNoneType
    · unfold isNoneType at hnone
      split at hnone
      · exact ⟨_, rfl⟩
      · cases hnone
    · have hkept : k ∈ members.filter fun k ↦ !k.isNoneType :=
        List.mem_filter.mpr ⟨hk, by simpa using hnone⟩
      rw [hsole] at hkept
      exact ⟨a, List.mem_singleton.mp hkept⟩

theorem exists_same_of_someSame {hs : List Hint} {k : Hint} (hsome : someSame hs k = true) :
    ∃ h ∈ hs, h.same k = true := by
  induction hs with
  | nil => simp [someSame] at hsome
  | cons first rest ih =>
    rw [someSame, Bool.or_eq_true] at hsome
    obtain hfirst | hrest := hsome
    · exact ⟨first, List.mem_cons_self, hfirst⟩
    · obtain ⟨h, hh, hk⟩ := ih hrest
      exact ⟨h, List.mem_cons_of_mem _ hh, hk⟩

theorem IsFlat.of_same {h k : Hint} (hflat : h.IsFlat) (hsame : h.same k = true) : k.IsFlat := by
  obtain ⟨a, rfl⟩ | ⟨spelling, members, rfl, hatoms⟩ := hflat
  · exact .inl ⟨a, atom_same.mp hsame⟩
  · cases k with
    | union other ks =>
      rw [same, Bool.and_eq_true] at hsame
      refine .inr ⟨other, ks, rfl, fun k hk ↦ ?_⟩
      obtain ⟨h, hh, hhk⟩ := exists_same_of_someSame (List.all_eq_true.mp hsame.2 k hk)
      obtain ⟨a, rfl⟩ := hatoms h hh
      exact ⟨a, atom_same.mp hhk⟩
    | _ => simp [same] at hsame

theorem mapPlacesEach_of_mapPlaces {f : Nat → Place → Place} {hs : List Hint}
    (hkept : ∀ h ∈ hs, ∀ way, mapPlaces f way h = h) (way : Nat) : mapPlacesEach f way hs = hs := by
  induction hs generalizing way with
  | nil => rfl
  | cons h rest ih =>
    rw [mapPlacesEach, hkept h List.mem_cons_self]
    rw [ih fun k hk ↦ hkept k (List.mem_cons_of_mem _ hk)]

theorem IsFlat.mapPlaces_eq {h : Hint} (hflat : h.IsFlat) (f : Nat → Place → Place) (way : Nat) :
    mapPlaces f way h = h := by
  obtain ⟨a, rfl⟩ | ⟨spelling, members, rfl, hatoms⟩ := hflat
  · rfl
  · rw [mapPlaces, mapPlacesEach_of_mapPlaces fun k hk way ↦ ?_, ite_self]
    obtain ⟨a, rfl⟩ := hatoms k hk
    rfl

theorem IsFlat.inReading_eq {h : Hint} (hflat : h.IsFlat) (number : Nat) : h.inReading number = h :=
  hflat.mapPlaces_eq _ _

/-- In another reading a sequence of flat items is one still. -/
theorem items_inReading {h item : Hint} {asTuple : Bool} (hitems : h.items = .each asTuple item)
    (hflat : item.IsFlat) (number : Nat) : (h.inReading number).items = .each asTuple item := by
  have hkept := hflat.mapPlaces_eq fun _ ↦ Place.inReading number
  unfold inReading
  cases h with
  | atom a => exact hitems
  | listOf k | tupleOf k | sequenceOf k | mutableSequenceOf k =>
    obtain ⟨-, -, rfl⟩ := eq_of_ofItem hitems
    rwa [mapPlaces, hkept]
  | fixedTuple ks =>
    cases ks with
    | nil => exact hitems
    | cons k rest =>
      have hsplit := hitems
      rw [items] at hsplit
      split at hsplit
      · rename_i huniform
        obtain ⟨-, -, rfl⟩ := eq_of_ofItem hsplit
        rw [isUniform, Bool.and_eq_true, List.all_eq_true] at huniform
        rwa [mapPlaces, mapPlacesEach_of_mapPlaces fun r hr way ↦ ?_]
        obtain rfl | hr := List.mem_cons.mp hr
        · exact hkept way
        · exact (hflat.of_same (huniform.2 r hr)).mapPlaces_eq _ way
      · cases hsplit
  | generic origin ks =>
    cases origin with
    | list =>
      cases ks with
      | nil => exact hitems
      | cons k rest =>
        obtain ⟨-, -, rfl⟩ := eq_of_ofItem hitems
        rw [mapPlaces, mapPlacesEach, hkept]
        exact hitems
    | _ => cases hitems
  | _ => cases hitems

/-! ### Scalars -/

/-- Whether a hint is a scalar type. -/
def isScalar : Hint → Bool
  | .bool | .int _ | .float | .text | .symbol | .instanceName => true
  | _ => false

end Hint

/-- Whether a value is exactly of a scalar type; an integer may be of any width. -/
inductive ScalarOf : Hint → Value → Prop
  | bool (b : Bool) : ScalarOf .bool (.bool b)
  | int (declared width : IntType) (n : Int) : ScalarOf (.int declared) (.int width n)
  | float (x : Binary64) : ScalarOf .float (.float x)
  | text (s : String) : ScalarOf .text (.text s)
  | symbol (s : String) : ScalarOf .symbol (.symbol s)
  | instanceName (s : String) : ScalarOf .instanceName (.instanceName s)

section

variable {h m item : Hint} {v : Value} {e : EngineValue} {optional asTuple : Bool}
variable {n : Type → Type} [Monad n] [MonadExcept Error n]

theorem ScalarOf.ne_none (hv : ScalarOf h v) : v ≠ .none := by
  cases hv <;> simp

theorem ScalarOf.isScalar_eq (hv : ScalarOf m v) : m.isScalar = true := by
  cases hv <;> rfl

theorem ScalarOf.atom (hv : ScalarOf h v) : ∃ a, h = .atom a := by
  cases hv <;> exact ⟨_, rfl⟩

theorem ScalarOf.isUnion_eq (hv : ScalarOf h v) : h.isUnion = false := by
  obtain ⟨a, rfl⟩ := hv.atom
  rfl

/-- What a scalar is encoded as decodes to it. -/
theorem ScalarOf.decode_encode (hv : ScalarOf h v) (hencode : h.encode v = .ok e) (cell : Nat → Nat)
    (resolve : Option (EngineValue → Hint → n Value)) :
    e.isData = true ∧ (e.isNil = true → v = .symbol "nil") ∧
      h.decode resolve e = pure (v.renamed cell) := by
  cases hv with
  | bool b =>
    cases hencode
    cases b <;> exact ⟨rfl, fun hnil ↦ (by cases hnil), rfl⟩
  | int declared width k =>
    obtain ⟨given, hchecked, hgiven⟩ : ∃ given, declared.checked k = .ok given ∧
        EngineValue.ofInt given = .ok e := Except.ok_of_bind hencode
    obtain rfl : given = k := by
      unfold IntType.checked at hchecked
      split at hchecked
      · exact (Except.ok.inj hchecked).symm
      · cases hchecked
    unfold EngineValue.ofInt at hgiven
    split at hgiven
    · rename_i fits
      cases hgiven
      refine ⟨rfl, fun hnil ↦ (by cases hnil), ?_⟩
      change ofExcept (do return .int .unsized (← declared.checked given) : Except Error Value) = _
      rw [hchecked]
      rfl
    · cases hgiven
  | symbol s =>
    cases hencode
    refine ⟨rfl, fun hnil ↦ ?_, rfl⟩
    rw [show s = "nil" by simpa [EngineValue.isNil] using hnil]
  | float x | text s | instanceName s =>
    cases hencode
    exact ⟨rfl, fun hnil ↦ (by cases hnil), rfl⟩

/-! ### Plain values -/

/-- Whether a value is exactly of a scalar type or of an optional one, and there. -/
inductive ItemOf (h : Hint) (v : Value) : Prop
  | mk {m : Hint} {optional : Bool} (hunwrap : h.unwrapOptional = (m, optional)) (hv : ScalarOf m v)
      (hnil : optional = true → v ≠ .symbol "nil")

/-- Whether a value is exactly of a plain type: of a scalar one, of an optional one, or a row of
such values that are all there. -/
inductive PlainOf (h : Hint) : Value → Prop
  | item {v : Value} (hv : ItemOf h v) : PlainOf h v
  | absent {m : Hint} (hunwrap : h.unwrapOptional = (m, true)) (hm : m.isScalar = true) :
      PlainOf h .none
  | row {asTuple optional : Bool} {item m : Hint} {vs : List Value}
      (hitems : h.items = .each asTuple item) (hunwrap : item.unwrapOptional = (m, optional))
      (hm : m.isScalar = true) (hvs : ∀ v ∈ vs, ItemOf item v) : PlainOf h (.row asTuple vs)

theorem ItemOf.decode_encode (hv : ItemOf h v) (hencode : h.encode v = .ok e) (cell : Nat → Nat)
    (resolve : Option (EngineValue → Hint → n Value)) :
    e.isData = true ∧ h.decode resolve e = pure (v.renamed cell) := by
  obtain ⟨hunwrap, hv, hnil⟩ := hv
  rw [Hint.encode_of_unwrapOptional hunwrap hv.isUnion_eq hv.ne_none] at hencode
  obtain ⟨hdata, hsymbol, hdecode⟩ := hv.decode_encode hencode cell resolve
  refine ⟨hdata, ?_⟩
  rw [Hint.decode_of_unwrapOptional e hunwrap hv.isUnion_eq, hdecode, if_neg]
  rw [Bool.and_eq_true]
  exact fun hboth ↦ hnil hboth.1 (hsymbol hboth.2)

theorem Hint.atom_of_isScalar (hm : m.isScalar = true) : ∃ a, m = .atom a := by
  unfold Hint.isScalar at hm
  split at hm <;> first | exact ⟨_, rfl⟩ | cases hm

theorem Hint.items_of_isScalar (hm : m.isScalar = true) : m.items = .none := by
  obtain ⟨a, rfl⟩ := Hint.atom_of_isScalar hm
  cases a <;> first | rfl | cases hm

theorem Hint.ne_any_of_unwrapOptional (hunwrap : h.unwrapOptional = (m, optional))
    (hm : m.isScalar = true) : h ≠ .any := by
  rintro rfl
  cases hunwrap
  cases hm

theorem mapM_decode_encode [LawfulMonad n] {vs : List Value} {es : List EngineValue}
    (cell : Nat → Nat) (resolve : Option (EngineValue → Hint → n Value))
    (hvs : ∀ v ∈ vs, ∀ e, h.encode v = .ok e →
      e.isData = true ∧ h.decode resolve e = pure (v.renamed cell))
    (hencode : vs.mapM h.encode = .ok es) :
    eachData es = true ∧ es.mapM (h.decode resolve) = pure (vs.map (Value.renamed cell)) := by
  induction vs generalizing es with
  | nil =>
    cases hencode
    exact ⟨rfl, List.mapM_nil⟩
  | cons v rest ih =>
    rw [List.mapM_cons] at hencode
    obtain ⟨e, hfirst, hmore⟩ := Except.ok_of_bind hencode
    obtain ⟨others, hothers, hreturn⟩ := Except.ok_of_bind hmore
    cases hreturn
    obtain ⟨hdata, hdecode⟩ := hvs v List.mem_cons_self e hfirst
    obtain ⟨hdatas, hdecodes⟩ := ih (fun w hw ↦ hvs w (List.mem_cons_of_mem _ hw)) hothers
    refine ⟨by rw [eachData, hdata, hdatas]; rfl, ?_⟩
    rw [List.mapM_cons, hdecode, hdecodes, pure_bind, pure_bind, List.map_cons]

/-- What a plain value is encoded as is data, and decodes to the value in every reading of its
type. -/
theorem PlainOf.decode_encode [LawfulMonad n] (hv : PlainOf h v) (hencode : h.encode v = .ok e)
    (cell : Nat → Nat) (number : Nat) (resolve : Option (EngineValue → Hint → n Value)) :
    e.isData = true ∧ (h.inReading number).decode resolve e = pure (v.renamed cell) := by
  cases hv with
  | item hv =>
    have hitem := hv
    obtain ⟨hunwrap, hscalar, -⟩ := hitem
    obtain ⟨a, rfl⟩ := hscalar.atom
    rw [(Hint.isFlat_of_unwrapOptional hunwrap).inReading_eq]
    exact hv.decode_encode hencode cell resolve
  | absent hunwrap hm =>
    obtain ⟨a, rfl⟩ := Hint.atom_of_isScalar hm
    rw [Hint.encode_none_of_optional hunwrap rfl] at hencode
    cases hencode
    refine ⟨rfl, ?_⟩
    rw [(Hint.isFlat_of_unwrapOptional hunwrap).inReading_eq,
      Hint.decode_of_unwrapOptional _ hunwrap rfl]
    rfl
  | row hitems hunwrap hm hvs =>
    have hany := Hint.ne_any_of_unwrapOptional hunwrap hm
    obtain ⟨a, rfl⟩ := Hint.atom_of_isScalar hm
    rw [Hint.encode_of_items hitems] at hencode
    obtain ⟨es, hes, hreturn⟩ := Except.ok_of_bind hencode
    cases hreturn
    obtain ⟨hdata, hdecode⟩ := mapM_decode_encode cell resolve
      (fun v hv e he ↦ (hvs v hv).decode_encode he cell resolve) hes
    refine ⟨hdata, ?_⟩
    rw [Hint.decode_of_items (Hint.items_inReading hitems (Hint.isFlat_of_unwrapOptional hunwrap)
      number) hany, Value.renamed_row]
    change (pure es >>= fun es ↦ _) = _
    rw [pure_bind, hdecode, pure_bind]

end

end RuleMarshal
