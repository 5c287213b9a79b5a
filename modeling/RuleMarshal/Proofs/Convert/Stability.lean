import RuleMarshal.Proofs.Computation.Result
import RuleMarshal.Proofs.Convert.Narrowing
import RuleMarshal.Proofs.Convert.Nested
/-!
What decodes and is encoded again. Under a data type an engine value decodes, if it does, to a value
of that type whose integers have no declared width and lie within the bounds of theirs
(`Hint.Gives`). Such a value can be encoded under the type if the engine has room for its integers,
and decodes to itself again (`Hint.decode_stable`).

Only the unsigned type of 64 bits has integers that the engine has no room for, and a float may
decode to one of these: it is refused on the way back (`Hint.vast_float_refused`).
-/

set_option autoImplicit false
set_option relaxedAutoImplicit false

namespace RuleMarshal

/-! ### Scalars in a value -/

mutual

/-- The values in a value that are no rows, those in its rows included. -/
def Value.leaves : Value → List Value
  | .list items | .tuple items => leavesEach items
  | v => [v]

/-- The values in some values that are no rows. -/
def leavesEach : List Value → List Value
  | [] => []
  | v :: rest => v.leaves ++ leavesEach rest

end

/-- Whether the engine has room for every integer in a value. -/
def Value.Fits (v : Value) : Prop := ∀ width n, .int width n ∈ v.leaves → FitsEngine n

theorem leavesEach_eq_flatMap (vs : List Value) : leavesEach vs = vs.flatMap Value.leaves := by
  induction vs with
  | nil => rfl
  | cons v rest ih => rw [leavesEach, ih, List.flatMap_cons]

theorem Value.mem_leaves_row {asTuple : Bool} {vs : List Value} {leaf : Value} :
    leaf ∈ (row asTuple vs).leaves ↔ ∃ v ∈ vs, leaf ∈ v.leaves := by
  cases asTuple <;> simp [row, leaves, leavesEach_eq_flatMap]

theorem Value.fits_of_leaf {v : Value} (hleaf : v.leaves = [v])
    (hint : ∀ width n, v ≠ .int width n) : v.Fits := by
  intro width n hn
  rw [hleaf] at hn
  exact absurd (List.mem_singleton.mp hn).symm (hint width n)

/-- The engine has room for the integers in a row if it has room for those in each item. -/
theorem Value.fits_row {asTuple : Bool} {vs : List Value} :
    (row asTuple vs).Fits ↔ ∀ v ∈ vs, v.Fits := by
  constructor
  · intro hfits v hv width n hn
    exact hfits width n (mem_leaves_row.mpr ⟨v, hv, hn⟩)
  · intro hfits width n hn
    obtain ⟨v, hv, hleaf⟩ := mem_leaves_row.mp hn
    exact hfits v hv width n hleaf

namespace Hint

/-- Whether integers of a type may stand in values of a data type. -/
inductive Bears (t : IntType) : Hint → Prop
  | here : Bears t (.int t)
  | optional {h m : Hint} (hunwrap : h.unwrapOptional = (m, true)) (hm : Bears t m) : Bears t h
  | row {h k : Hint} {asTuple : Bool} (hitems : h.items = .each asTuple k) (hk : Bears t k) :
      Bears t h

/-- Whether a value may come of decoding under a data type: an integer of no declared width within
the bounds of the type, another scalar of the type, a row of such values, and under an optional type
the absent value or a value of the other member, but no symbol that is spelled as the engine's
absence. -/
inductive Gives : Hint → Value → Prop
  | int {declared : IntType} {n : Int} (hlow : declared.low ≤ n) (hhigh : n ≤ declared.high) :
      Gives (.int declared) (.int .unsized n)
  | scalar {m : Hint} {v : Value} (hv : ScalarOf m v) (hint : ∀ width n, v ≠ .int width n) :
      Gives m v
  | absent {h m : Hint} (hunwrap : h.unwrapOptional = (m, true)) (hm : m.isUnion = false) :
      Gives h .none
  | present {h m : Hint} {v : Value} (hunwrap : h.unwrapOptional = (m, true))
      (hm : m.isUnion = false)
      (hv : Gives m v) (hnil : v ≠ .symbol "nil") : Gives h v
  | row {h k : Hint} {asTuple : Bool} {vs : List Value} (hitems : h.items = .each asTuple k)
      (hvs : ∀ v ∈ vs, Gives k v) : Gives h (.row asTuple vs)

variable {h m k : Hint} {v : Value} {e : EngineValue}

/-! ### What decoding gives -/

section

variable {resolve : Option (EngineValue → Hint → Except Error Value)}

/-- What decodes under a scalar type is of that type, and is the symbol that is spelled as the
engine's absence only if that is what was decoded. -/
theorem gives_of_decode_scalar (hm : m.isScalar = true) (hdecode : m.decode resolve e = .ok v) :
    Gives m v ∧ (v = .symbol "nil" → e.isNil = true) := by
  obtain ⟨a, rfl⟩ := atom_of_isScalar hm
  rw [decode] at hdecode
  cases a with
  | int declared =>
    obtain ⟨n, hn, hreturn⟩ : ∃ n, e.toInt declared = .ok n ∧ v = .int .unsized n := by
      cases hn : e.toInt declared with
      | error raised =>
        simp only [decodeAtom?, hn] at hdecode
        cases hdecode
      | ok n =>
        simp only [decodeAtom?, hn] at hdecode
        cases hdecode
        exact ⟨n, rfl, rfl⟩
    subst hreturn
    obtain ⟨-, hlow, hhigh⟩ := EngineValue.toInt_eq_ok_iff.mp hn
    exact ⟨.int hlow hhigh, by simp⟩
  | bool =>
    simp only [decodeAtom?] at hdecode
    split at hdecode <;> cases hdecode <;> exact ⟨.scalar (.bool _) (by simp), by simp⟩
  | float =>
    simp only [decodeAtom?] at hdecode
    split at hdecode
    · cases hdecode
      exact ⟨.scalar (.float _) (by simp), by simp⟩
    · split at hdecode <;> cases hdecode
      exact ⟨.scalar (.float _) (by simp), by simp⟩
    · cases hdecode
  | symbol =>
    simp only [decodeAtom?] at hdecode
    split at hdecode <;> cases hdecode
    exact ⟨.scalar (.symbol _) (by simp), fun hnil ↦ by cases hnil; rfl⟩
  | instanceName =>
    simp only [decodeAtom?] at hdecode
    split at hdecode <;> cases hdecode <;> exact ⟨.scalar (.instanceName _) (by simp), by simp⟩
  | text =>
    simp only [decodeAtom?] at hdecode
    split at hdecode <;> cases hdecode <;> exact ⟨.scalar (.text _) (by simp), by simp⟩
  | _ => cases hm

/-- What decodes under a data type is among the values that decoding gives. -/
theorem gives_of_decode (hdata : IsDataType h) (hdecode : h.decode resolve e = .ok v) :
    Gives h v ∧ (h.isUnion = false → v = .symbol "nil" → e.isNil = true) := by
  induction hdata generalizing e v with
  | scalar hm =>
    obtain ⟨hgives, hnil⟩ := gives_of_decode_scalar hm hdecode
    exact ⟨hgives, fun _ ↦ hnil⟩
  | optional hunwrap hm _ ih =>
    have hunion := isUnion_of_unwrapOptional hunwrap
    refine ⟨?_, fun hother ↦ by rw [hother] at hunion; cases hunion⟩
    rw [decode_of_unwrapOptional e hunwrap hm, Bool.true_and] at hdecode
    split at hdecode
    · cases hdecode
      exact .absent hunwrap hm
    · rename_i hpresent
      obtain ⟨hgives, hnil⟩ := ih hdecode
      exact .present hunwrap hm hgives fun habsent ↦ hpresent (hnil hm habsent)
  | @row h k asTuple hitems hk ih =>
    rw [decode_of_items hitems hk.ne_any] at hdecode
    obtain ⟨es, -, hrow⟩ := Except.ok_of_bind hdecode
    obtain ⟨vs, hvs, hreturn⟩ := Except.ok_of_bind hrow
    cases hreturn
    refine ⟨.row hitems fun v hv ↦ ?_, fun _ hnil ↦ by cases asTuple <;> cases hnil⟩
    obtain ⟨e, -, he⟩ := Except.exists_of_mem_mapM hvs hv
    exact (ih he).1

end

/-! ### What becomes of it -/

theorem Gives.holds (hv : Gives h v) (hnan : .float .nan ∉ v.leaves) : Holds h v := by
  induction hv with
  | int => exact .scalar (.int _ _ _) nofun
  | @scalar m v hv _ =>
    refine .scalar hv fun hv ↦ hnan ?_
    rw [hv]
    exact List.mem_singleton.mpr rfl
  | absent hunwrap hm => exact .absent hunwrap hm
  | present hunwrap hm _ hnil ih => exact .present hunwrap hm (ih hnan) hnil
  | row hitems _ ih =>
    exact .row hitems fun v hv ↦ ih v hv fun hleaf ↦ hnan (Value.mem_leaves_row.mpr ⟨v, hv, hleaf⟩)

theorem Gives.ne_none (hv : Gives h v) (hunion : h.isUnion = false) : v ≠ .none := by
  cases hv with
  | int => nofun
  | scalar hv => exact hv.ne_none
  | absent hunwrap =>
    rw [isUnion_of_unwrapOptional hunwrap] at hunion
    cases hunion
  | present hunwrap =>
    rw [isUnion_of_unwrapOptional hunwrap] at hunion
    cases hunion
  | row => exact row_ne_none _ _

/-- The integers of what decoding gives have no declared width already. -/
theorem Gives.renamed_id (hv : Gives h v) : v.renamed id = v := by
  induction hv with
  | int => rfl
  | scalar hv hint =>
    cases hv with
    | int declared width n => exact absurd rfl (hint width n)
    | _ => rfl
  | absent => rfl
  | present _ _ _ _ ih => exact ih
  | @row _ _ asTuple vs _ _ ih =>
    rw [Value.renamed_row, List.map_congr_left ih, List.map_id']

/-- The engine has room for the integers of every type but the unsigned one of 64 bits, which has
greater ones. -/
theorem within_engine (t : IntType) :
    IntType.engineLow ≤ t.low ∧ (t = .sized false .w64 ∨ t.high ≤ IntType.engineHigh) := by
  cases t with
  | unsized | family => decide
  | sized signed width => cases signed <;> cases width <;> decide

theorem eq_of_not_fits {t : IntType} {n : Int} (hlow : t.low ≤ n) (hhigh : n ≤ t.high)
    (hfits : ¬ FitsEngine n) :
    t = .sized false .w64 ∧ IntType.engineHigh < n := by
  obtain ⟨hleast, hgreatest⟩ := within_engine t
  have hbeyond : IntType.engineHigh < n := by
    by_contra hwithin
    exact hfits ⟨by omega, by omega⟩
  obtain rfl | hgreatest := hgreatest
  · exact ⟨rfl, hbeyond⟩
  · omega

/-- An integer stops the encoding of a value under a type: it stands in the value, is of the
unsigned type of 64 bits and greater than the integers of the engine, and is refused for that. -/
structure OverflowsAt (h : Hint) (v : Value) (n : Int) : Prop where
  mem : .int .unsized n ∈ v.leaves
  high : IntType.engineHigh < n
  bears : Bears (.sized false .w64) h
  refused : h.encode v = .error (.outOfRange (.engine n))

theorem encode_int {declared : IntType} {n : Int} (hlow : declared.low ≤ n)
    (hhigh : n ≤ declared.high) :
    (int declared).encode (.int .unsized n) = EngineValue.ofInt n := by
  change (do EngineValue.ofInt (← declared.checked n) : Except Error EngineValue) = _
  rw [IntType.checked, if_pos ⟨hlow, hhigh⟩]
  rfl

/-- What decoding gives is encoded if the engine has room for its integers, and stopped by one of
them otherwise. -/
theorem Gives.fits_or_overflows (hv : Gives h v) (hdata : IsDataType h) :
    (v.Fits ∧ ∃ e, h.encode v = .ok e) ∨ ∃ n, OverflowsAt h v n := by
  induction hv with
  | @int declared n hlow hhigh =>
    by_cases hfits : FitsEngine n
    · refine .inl ⟨fun width k hk ↦ ?_, .integer n hfits, ?_⟩
      · cases List.mem_singleton.mp hk
        exact hfits
      · rw [encode_int hlow hhigh, EngineValue.ofInt, dif_pos hfits]
    · obtain ⟨rfl, hbeyond⟩ := eq_of_not_fits hlow hhigh hfits
      refine .inr ⟨n, List.mem_singleton.mpr rfl, hbeyond, .here, ?_⟩
      rw [encode_int hlow hhigh, EngineValue.ofInt, dif_neg hfits]
  | scalar hv hint =>
    cases hv with
    | int declared width n => exact absurd rfl (hint width n)
    | _ => exact .inl ⟨Value.fits_of_leaf rfl hint, _, rfl⟩
  | absent hunwrap hm =>
    exact .inl ⟨Value.fits_of_leaf rfl nofun, .nil, encode_none_of_optional hunwrap hm⟩
  | @present h m v hunwrap hm hv hnil ih =>
    have hencode := encode_of_unwrapOptional hunwrap hm (hv.ne_none hm)
    obtain ⟨hfits, e, he⟩ | ⟨n, hn⟩ := ih (hdata.of_optional hunwrap)
    · exact .inl ⟨hfits, e, hencode.trans he⟩
    · exact .inr ⟨n, hn.mem, hn.high, .optional hunwrap hn.bears, hencode.trans hn.refused⟩
  | @row h k asTuple vs hitems hvs ih =>
    have hk := hdata.of_items hitems
    have hencode := encode_of_items hitems asTuple vs
    obtain ⟨es, hes⟩ | ⟨v, hv, raised, hraised, hrefused⟩ := Except.mapM_ok_or_error k.encode vs
    · refine .inl ⟨Value.fits_row.mpr fun v hv ↦ ?_, .multifield es, by rw [hencode, hes]; rfl⟩
      obtain ⟨hfits, -⟩ | ⟨n, hn⟩ := ih v hv hk
      · exact hfits
      · obtain ⟨e, -, he⟩ := Except.exists_mem_of_mapM hes hv
        rw [hn.refused] at he
        cases he
    · obtain ⟨-, e, he⟩ | ⟨n, hn⟩ := ih v hv hk
      · rw [he] at hraised
        cases hraised
      · rw [hn.refused] at hraised
        cases hraised
        refine .inr ⟨n, Value.mem_leaves_row.mpr ⟨v, hv, hn.mem⟩, hn.high, .row hitems hn.bears, ?_⟩
        rw [hencode, hrefused]
        rfl

/-- What decodes is encoded again under the same type and decodes to the same value, if no float
without a number stands in it and the engine has room for its integers. Otherwise an integer of the
unsigned type of 64 bits is refused as one that the engine has no room for. -/
theorem decode_stable (resolve : Option (EngineValue → Hint → Except Error Value))
    (hdata : IsDataType h) (hdecode : h.decode resolve e = .ok v) (hnan : .float .nan ∉ v.leaves) :
    (v.Fits → ∃ again, h.encode v = .ok again ∧ h.decode resolve again = .ok v) ∧
      (¬ v.Fits → ∃ n, OverflowsAt h v n) := by
  obtain ⟨hv, -⟩ := gives_of_decode hdata hdecode
  constructor
  · intro hfits
    obtain ⟨-, again, hagain⟩ | ⟨n, hn⟩ := hv.fits_or_overflows hdata
    · have hback := ((hv.holds hnan).decode_of_encode hdata id resolve hagain).2.2
      rw [hv.renamed_id] at hback
      exact ⟨again, hagain, hback⟩
    · have hwithin := hfits _ _ hn.mem
      exact absurd hwithin.2 (Int.not_le.mpr hn.high)
  · intro hfits
    obtain ⟨hfit, -⟩ | hn := hv.fits_or_overflows hdata
    · exact absurd hfit hfits
    · exact hn

/-- A row of unsigned integers of 64 bits: a float is read as one of them, and another is absent. -/
theorem decode_stable_mixed :
    ∃ (h : Hint) (e : EngineValue) (v : Value), h.IsDataType ∧
      h.decode (Option.none : Option (EngineValue → Hint → Except Error Value)) e = .ok v ∧
      .float .nan ∉ v.leaves ∧ v.Fits ∧ ∃ again, h.encode v = .ok again ∧
        h.decode (Option.none : Option (EngineValue → Hint → Except Error Value)) again =
          .ok v := by
  let cell : Hint := .union .word [.int (.sized false .w64), .noneType]
  let v : Value := .row false [.int .unsized 4096, .none]
  -- The float has the significand `2 ^ 52` and the power `2 ^ (-40)`.
  let e : EngineValue := .multifield [.float (.finite false 1035 0), .nil]
  have hcell : IsDataType cell := .optional rfl rfl (.scalar rfl)
  have hdata : IsDataType (.listOf cell) := .row rfl hcell
  have hdecode : (listOf cell).decode
      (Option.none : Option (EngineValue → Hint → Except Error Value)) e = .ok v := rfl
  have hnan : .float .nan ∉ v.leaves := by simp [v, Value.row, Value.leaves, leavesEach]
  have hfits : v.Fits := by
    refine Value.fits_row.mpr (List.forall_mem_cons.mpr ⟨fun width n hn ↦ ?_, ?_⟩)
    · cases List.mem_singleton.mp hn
      decide
    · exact List.forall_mem_singleton.mpr (Value.fits_of_leaf rfl (by simp))
  exact ⟨_, _, _, hdata, hdecode, hnan, hfits,
    (decode_stable Option.none hdata hdecode hnan).1 hfits⟩

/-- The float `1e19` decodes to an unsigned integer of 64 bits that the engine has no room for. -/
theorem vast_float_refused :
    IsDataType (.int (.sized false .w64)) ∧
      (int (.sized false .w64)).decode
        (Option.none : Option (EngineValue → Hint → Except Error Value))
        (.float (.ofDecimal false 1 19)) = .ok (.int .unsized 10000000000000000000) ∧
      .float .nan ∉ (Value.int .unsized 10000000000000000000).leaves ∧
      (int (.sized false .w64)).encode (.int .unsized 10000000000000000000) =
        .error (.outOfRange (.engine 10000000000000000000)) := by
  have hwhole : (Binary64.ofDecimal false 1 19).toInt? = some 10000000000000000000 := by
    decide +kernel
  refine ⟨.scalar rfl, ?_, by simp [Value.leaves], rfl⟩
  rw [decode]
  simp only [decodeAtom?, EngineValue.toInt, hwhole]
  rfl

end Hint

end RuleMarshal
