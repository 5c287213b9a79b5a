import RuleMarshal.Host.Equality
import RuleMarshal.Proofs.Convert.Plain
/-!
Data of declared types at any nesting, and what comes back of it. A data type is a scalar type, an
optional data type, or a sequence of a data type (`Hint.IsDataType`). A value that is exactly of
such a type (`Hint.Holds`) is encoded, if it is, as data for the engine that decodes to the value
again under the same type, whatever resolver there is (`Hint.decode_encode_of_holds`): only the
widths of integers are forgotten, which is no difference for the host's equality
(`Hint.Holds.exists_equalWithin`).
-/

set_option autoImplicit false
set_option relaxedAutoImplicit false

namespace RuleMarshal

namespace Hint

/-- The types of data: scalar types, the optional types of one other member that is a data type, and
lists, tuples and sequences whose items all have one data type. -/
inductive IsDataType : Hint → Prop
  | scalar {m : Hint} (hm : m.isScalar = true) : IsDataType m
  | optional {h m : Hint} (hunwrap : h.unwrapOptional = (m, true)) (hm : m.isUnion = false)
      (hdata : IsDataType m) : IsDataType h
  | row {h k : Hint} {asTuple : Bool} (hitems : h.items = .each asTuple k) (hk : IsDataType k) :
      IsDataType h

/-- Whether a value is exactly of a type: a scalar that is no float without a number, a row of items
of the item type, a tuple for tuple types and a list otherwise, and under an optional type the
absent value or a value of the other member, but no symbol that is spelled as the engine's
absence. -/
inductive Holds : Hint → Value → Prop
  | scalar {m : Hint} {v : Value} (hv : ScalarOf m v) (hnan : v ≠ .float .nan) : Holds m v
  | absent {h m : Hint} (hunwrap : h.unwrapOptional = (m, true)) (hm : m.isUnion = false) :
      Holds h .none
  | present {h m : Hint} {v : Value} (hunwrap : h.unwrapOptional = (m, true))
      (hm : m.isUnion = false)
      (hv : Holds m v) (hnil : v ≠ .symbol "nil") : Holds h v
  | row {h k : Hint} {asTuple : Bool} {vs : List Value} (hitems : h.items = .each asTuple k)
      (hvs : ∀ v ∈ vs, Holds k v) : Holds h (.row asTuple vs)

variable {h m k : Hint} {v : Value} {asTuple : Bool}

/-! ### Types -/

theorem isUnion_of_unwrapOptional (hunwrap : h.unwrapOptional = (m, true)) : h.isUnion = true := by
  cases h with
  | union => rfl
  | _ => cases hunwrap

theorem items_of_isUnion (hunion : h.isUnion = true) : h.items = .none := by
  cases h with
  | union => rfl
  | _ => cases hunion

theorem isUnion_of_isScalar (hm : m.isScalar = true) : m.isUnion = false := by
  obtain ⟨a, rfl⟩ := atom_of_isScalar hm
  rfl

/-- The items of a data type that is a sequence have a data type. -/
theorem IsDataType.of_items (hdata : IsDataType h) (hitems : h.items = .each asTuple k) :
    IsDataType k := by
  cases hdata with
  | scalar hm =>
    rw [items_of_isScalar hm] at hitems
    cases hitems
  | optional hunwrap =>
    rw [items_of_isUnion (isUnion_of_unwrapOptional hunwrap)] at hitems
    cases hitems
  | row hrow hk =>
    rw [hrow] at hitems
    cases hitems
    exact hk

/-- The other member of a data type that is optional is a data type. -/
theorem IsDataType.of_optional (hdata : IsDataType h) (hunwrap : h.unwrapOptional = (m, true)) :
    IsDataType m := by
  have hunion := isUnion_of_unwrapOptional hunwrap
  cases hdata with
  | scalar hm =>
    rw [isUnion_of_isScalar hm] at hunion
    cases hunion
  | optional hother _ hm =>
    rw [hother] at hunwrap
    cases hunwrap
    exact hm
  | row hitems =>
    rw [items_of_isUnion hunion] at hitems
    cases hitems

theorem IsDataType.ne_any (hdata : IsDataType h) : h ≠ .any := by
  rintro rfl
  cases hdata with
  | scalar hm => cases hm
  | optional hunwrap => cases hunwrap
  | row hitems => cases hitems

/-! ### Values that come back -/

theorem row_ne_none (asTuple : Bool) (vs : List Value) : Value.row asTuple vs ≠ .none := by
  cases asTuple <;> simp [Value.row]

theorem Holds.ne_none (hv : Holds h v) (hunion : h.isUnion = false) : v ≠ .none := by
  cases hv with
  | scalar hv => exact hv.ne_none
  | absent hunwrap =>
    rw [isUnion_of_unwrapOptional hunwrap] at hunion
    cases hunion
  | present hunwrap =>
    rw [isUnion_of_unwrapOptional hunwrap] at hunion
    cases hunion
  | row => exact row_ne_none _ _

section

variable {n : Type → Type} [Monad n] [LawfulMonad n] [MonadExcept Error n]

/-- What a value of a data type is encoded as is data, is the engine's absence only for the absent
value and for the symbol of that spelling, and decodes to the value. -/
theorem Holds.decode_of_encode (hv : Holds h v) (hdata : IsDataType h) (cell : Nat → Nat)
    (resolve : Option (EngineValue → Hint → n Value)) {e : EngineValue}
    (hencode : h.encode v = .ok e) :
    e.isData = true ∧ (e.isNil = true → v = .symbol "nil" ∨ v = .none) ∧
      h.decode resolve e = pure (v.renamed cell) := by
  induction hv generalizing e with
  | scalar hv =>
    obtain ⟨hdata, hnil, hdecode⟩ := hv.decode_encode hencode cell resolve
    exact ⟨hdata, fun h ↦ Or.inl (hnil h), hdecode⟩
  | absent hunwrap hm =>
    rw [encode_none_of_optional hunwrap hm] at hencode
    obtain rfl := Except.ok.inj hencode
    refine ⟨rfl, fun _ ↦ Or.inr rfl, ?_⟩
    rw [decode_of_unwrapOptional _ hunwrap hm]
    rfl
  | present hunwrap hm hv hnil ih =>
    have hpresent := hv.ne_none hm
    rw [encode_of_unwrapOptional hunwrap hm hpresent] at hencode
    obtain ⟨hisData, hisNil, hdecode⟩ := ih (hdata.of_optional hunwrap) hencode
    have hnotNil : ¬ e.isNil = true := fun h ↦ (hisNil h).elim hnil hpresent
    refine ⟨hisData, hisNil, ?_⟩
    rw [decode_of_unwrapOptional e hunwrap hm, Bool.true_and, if_neg hnotNil, hdecode]
  | row hitems hvs ih =>
    have hk := hdata.of_items hitems
    rw [encode_of_items hitems] at hencode
    obtain ⟨es, hes, hreturn⟩ := Except.ok_of_bind hencode
    obtain rfl := Except.ok.inj hreturn
    obtain ⟨hisData, hdecode⟩ := mapM_decode_encode cell resolve
      (fun v hv e he ↦ ⟨(ih v hv hk he).1, (ih v hv hk he).2.2⟩) hes
    refine ⟨hisData, nofun, ?_⟩
    rw [decode_of_items hitems hk.ne_any, Value.renamed_row]
    change (pure es >>= fun es ↦ _) = _
    rw [pure_bind, hdecode, pure_bind]

end

/-! ### Values that are equal -/

section

variable {equal : Value → Value → Except Error Bool} {vs : List Value} {f : Value → Value}

theorem equalEach_map (hvs : ∀ v ∈ vs, equal (f v) v = .ok true) :
    equalEach equal (vs.map f) vs = .ok true := by
  induction vs with
  | nil => rfl
  | cons v rest ih =>
    obtain ⟨hv, hrest⟩ := List.forall_mem_cons.mp hvs
    rw [List.map_cons, equalEach]
    by_cases hsame : (f v).identical v = true
    · rw [if_pos hsame]
      exact ih hrest
    · rw [if_neg hsame, hv]
      exact ih hrest

theorem exists_depth_of_each {P : Value → Nat → Prop}
    (hvs : ∀ v ∈ vs, ∃ least, ∀ depth ≥ least, P v depth) :
    ∃ least, ∀ v ∈ vs, ∀ depth ≥ least, P v depth := by
  induction vs with
  | nil => exact ⟨0, by simp⟩
  | cons v rest ih =>
    obtain ⟨⟨least, hv⟩, hrest⟩ := List.forall_mem_cons.mp hvs
    obtain ⟨deeper, hdeeper⟩ := ih hrest
    refine ⟨max least deeper,
      List.forall_mem_cons.mpr ⟨fun depth hdepth ↦ ?_, fun w hw depth hdepth ↦ ?_⟩⟩
    · exact hv depth (Nat.le_trans (Nat.le_max_left least deeper) hdepth)
    · exact hdeeper w hw depth (Nat.le_trans (Nat.le_max_right least deeper) hdepth)

theorem equalWithin_renamed_of_scalar (table : TypeTable) (heap : Heap) (cell : Nat → Nat)
    (hv : ScalarOf h v) (hnan : v ≠ .float .nan) (depth : Nat) :
    (v.renamed cell).equalWithin table heap (depth + 1) v = .ok true := by
  cases hv with
  | float x =>
    cases x with
    | nan => exact absurd rfl hnan
    | _ => simp [Value.renamed, Value.equalWithin, Heap.opened, Binary64.numericEq]
  | _ =>
    simp [Value.renamed, Value.equalWithin, Heap.opened, Value.scalarEq,
      Value.text?, Value.integer?]

/-- For a host that can nest calls deep enough, a value equals itself without the widths of its
integers. -/
theorem Holds.exists_equalWithin (hv : Holds h v) (table : TypeTable) (heap : Heap)
    (cell : Nat → Nat) :
    ∃ least, ∀ depth ≥ least, (v.renamed cell).equalWithin table heap depth v = .ok true := by
  induction hv with
  | scalar hv hnan =>
    refine ⟨1, fun depth hdepth ↦ ?_⟩
    obtain ⟨depth, rfl⟩ := Nat.exists_eq_add_of_le' hdepth
    exact equalWithin_renamed_of_scalar table heap cell hv hnan depth
  | absent =>
    refine ⟨1, fun depth hdepth ↦ ?_⟩
    obtain ⟨depth, rfl⟩ := Nat.exists_eq_add_of_le' hdepth
    rfl
  | present _ _ _ _ ih => exact ih
  | @row h k asTuple vs hitems hvs ih =>
    obtain ⟨least, heach⟩ := exists_depth_of_each ih
    refine ⟨least + 1, fun depth hdepth ↦ ?_⟩
    obtain ⟨depth, rfl⟩ := Nat.exists_eq_add_of_le' (Nat.one_le_of_lt hdepth)
    have hequal := equalEach_map fun v hv ↦ heach v hv depth (Nat.le_of_succ_le_succ hdepth)
    rw [Value.renamed_row]
    cases asTuple <;> simp [Value.row, Value.equalWithin, Heap.opened, hequal]

end

/-- A value that is exactly of a data type comes back: if it can be encoded, then what it is encoded
as decodes under the same type, whatever resolver there is, to the value with integers of no
declared width, which equals it. -/
theorem decode_encode_of_holds {n : Type → Type} [Monad n] [LawfulMonad n] [MonadExcept Error n]
    (resolve : Option (EngineValue → Hint → n Value)) (table : TypeTable) (heap : Heap)
    (hdata : IsDataType h) (hv : Holds h v) {e : EngineValue} (hencode : h.encode v = .ok e) :
    h.decode resolve e = pure (v.renamed id) ∧
      ∃ least, ∀ depth ≥ least, (v.renamed id).equalWithin table heap depth v = .ok true :=
  ⟨(hv.decode_of_encode hdata id resolve hencode).2.2, hv.exists_equalWithin table heap id⟩

/-- A list of rows of small integers, in which a row and an integer are absent, comes back. -/
theorem decode_encode_of_holds_rows :
    ∃ (h : Hint) (v : Value) (e : EngineValue), h.IsDataType ∧ h.Holds v ∧ h.encode v = .ok e ∧
      h.decode (Option.none : Option (EngineValue → Hint → Except Error Value)) e =
        .ok (v.renamed id) := by
  let cell : Hint := .union .word [.int (.sized true .w8), .noneType]
  let row : Hint := .union .bar [.noneType, .tupleOf cell]
  let pair : Value := .tuple [.int (.sized true .w8) 5, .none]
  have hcell : IsDataType cell := .optional rfl rfl (.scalar rfl)
  have hrow : IsDataType row := .optional rfl rfl (.row rfl hcell)
  have hdata : IsDataType (.listOf row) := .row rfl hrow
  have hfive : Holds cell (.int (.sized true .w8) 5) :=
    .present rfl rfl (.scalar (.int _ _ 5) (by simp)) (by simp)
  have hitems : Holds (.tupleOf cell) (.row true [.int (.sized true .w8) 5, .none]) :=
    .row rfl (by simpa using ⟨hfive, .absent rfl rfl⟩)
  have hpair : Holds row pair := .present rfl rfl hitems (by simp [pair])
  have hv : Holds (.listOf row) (.row false [pair, .none]) :=
    .row rfl (by simpa using ⟨hpair, .absent rfl rfl⟩)
  have hencode : (listOf row).encode (.row false [pair, .none]) =
      .ok (.multifield [.multifield [.integer 5 (by decide), .nil], .nil]) := rfl
  exact ⟨_, _, _, hdata, hv, hencode, (decode_encode_of_holds Option.none {} {} hdata hv hencode).1⟩

end Hint

end RuleMarshal
