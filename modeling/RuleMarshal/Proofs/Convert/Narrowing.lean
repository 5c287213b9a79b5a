import RuleMarshal.Convert.Decode
import RuleMarshal.Proofs.Binary64.Exact
import RuleMarshal.Proofs.Computation.Result
/-!
Integers of a type. A value of the engine is read as an integer of a type exactly if it is that
integer, or a float whose exact value is that integer, and the integer lies within the bounds of the
type. Else the reading fails, and the value alone tells how: a float that is no integer loses
precision, an integer beyond the bounds is out of range, and a value of another kind cannot be
converted (`EngineValue.RefusedAs`). An integer of the host is written under the type exactly if it
lies within those bounds and within those of the engine (`Hint.narrowing_exact`).
-/

set_option autoImplicit false
set_option relaxedAutoImplicit false

namespace RuleMarshal

/-- Whether a value of the engine is an integer: as one, or as a float whose exact value it is. -/
inductive EngineValue.IsWhole : EngineValue → Int → Prop
  | integer (n : Int) (fits : FitsEngine n) : IsWhole (.integer n fits) n
  | float {x : Binary64} {n : Int} (hx : x.value? = some (n : ℚ)) : IsWhole (.float x) n

/-- Whether an integer lies within the bounds of a type. -/
def IntType.Admits (t : IntType) (n : Int) : Prop := t.low ≤ n ∧ n ≤ t.high

instance (t : IntType) (n : Int) : Decidable (t.Admits n) := inferInstanceAs (Decidable (_ ∧ _))

/-- Why a value of the engine is not read as an integer of a type. -/
inductive EngineValue.RefusedAs (t : IntType) : EngineValue → Error → Prop
  /-- A float that is not finite, or not integral. -/
  | fractional {x : Binary64} (hx : ∀ n : Int, x.value? ≠ some (n : ℚ)) :
      RefusedAs t (.float x) (.precisionLoss x)
  | beyond {e : EngineValue} {n : Int} (he : e.IsWhole n) (hn : ¬ t.Admits n) :
      RefusedAs t e (.outOfRange (.type n t))
  | otherKind {e : EngineValue} (hinteger : e.kind? ≠ some .integer)
      (hfloat : e.kind? ≠ some .float) :
      RefusedAs t e (.unsupported (.noConversion e.kind? t.name))

variable {t : IntType} {e : EngineValue} {n m : Int} {raised : Error}

namespace IntType

theorem checked_eq_ok_iff : t.checked m = .ok n ↔ m = n ∧ t.Admits n := by
  unfold checked
  split
  · rename_i hadmits
    rw [Except.ok.injEq]
    exact ⟨fun hmn ↦ ⟨hmn, hmn ▸ hadmits⟩, And.left⟩
  · rename_i hbeyond
    refine iff_of_false nofun ?_
    rintro ⟨rfl, hadmits⟩
    exact hbeyond hadmits

theorem checked_eq_error_iff :
    t.checked m = .error raised ↔ ¬ t.Admits m ∧ raised = .outOfRange (.type m t) := by
  unfold checked
  split
  · rename_i hadmits
    exact iff_of_false nofun fun hboth ↦ hboth.1 hadmits
  · rename_i hbeyond
    rw [Except.error.injEq]
    exact ⟨fun hraised ↦ ⟨hbeyond, hraised.symm⟩, fun hboth ↦ hboth.2.symm⟩

end IntType

namespace EngineValue

/-- A value is one integer at most. -/
theorem IsWhole.unique (hn : e.IsWhole n) (hm : e.IsWhole m) : n = m := by
  cases hn with
  | integer => cases hm with | integer => rfl
  | float hx =>
    cases hm with
    | float hy => exact_mod_cast Option.some.inj (hx.symm.trans hy)

/-- An integer of the engine is checked against the bounds, and so is the integer that a float
is. -/
theorem toInt_of_isWhole (he : e.IsWhole n) : e.toInt t = t.checked n := by
  cases he with
  | integer => rfl
  | float hx => rw [toInt, (Binary64.toInt?_eq_some_iff _).mpr hx]

/-- A value is an integer, or it is refused whatever the bounds are. -/
theorem isWhole_or_refused (t : IntType) (e : EngineValue) :
    (∃ n, e.IsWhole n) ∨ (∀ n, ¬ e.IsWhole n) ∧ ∃ raised,
      e.toInt t = .error raised ∧ e.RefusedAs t raised := by
  cases e with
  | integer n fits => exact .inl ⟨n, .integer n fits⟩
  | float x =>
    cases hx : x.toInt? with
    | some n => exact .inl ⟨n, .float ((Binary64.toInt?_eq_some_iff x).mp hx)⟩
    | none =>
      have hnone := (Binary64.toInt?_eq_none_iff x).mp hx
      refine .inr ⟨?_, .precisionLoss x, by rw [toInt, hx], .fractional hnone⟩
      rintro n ⟨⟩
      exact hnone n ‹_›
  | _ => exact .inr ⟨nofun, _, rfl, .otherKind nofun nofun⟩

theorem toInt_eq_ok_iff : e.toInt t = .ok n ↔ e.IsWhole n ∧ t.Admits n := by
  obtain ⟨m, hm⟩ | ⟨hnone, raised, hraised, -⟩ := isWhole_or_refused t e
  · rw [toInt_of_isWhole hm, IntType.checked_eq_ok_iff]
    exact and_congr_left fun _ ↦ ⟨fun hmn ↦ hmn ▸ hm, fun hn ↦ hm.unique hn⟩
  · rw [hraised]
    exact iff_of_false nofun fun hboth ↦ hnone n hboth.1

theorem RefusedAs.toInt_eq (hrefused : e.RefusedAs t raised) : e.toInt t = .error raised := by
  cases hrefused with
  | fractional hx => rw [toInt, (Binary64.toInt?_eq_none_iff _).mpr hx]
  | beyond he hn => rw [toInt_of_isWhole he, IntType.checked_eq_error_iff.mpr ⟨hn, rfl⟩]
  | otherKind hinteger hfloat =>
    cases e with
    | integer => exact absurd rfl hinteger
    | float => exact absurd rfl hfloat
    | _ => rfl

theorem toInt_eq_error_iff : e.toInt t = .error raised ↔ e.RefusedAs t raised := by
  refine ⟨fun herror ↦ ?_, RefusedAs.toInt_eq⟩
  obtain ⟨n, hn⟩ | ⟨-, found, hfound, hrefused⟩ := isWhole_or_refused t e
  · rw [toInt_of_isWhole hn, IntType.checked_eq_error_iff] at herror
    rw [herror.2]
    exact .beyond hn herror.1
  · rw [hfound] at herror
    cases herror
    exact hrefused

theorem ofInt_eq_ok_iff : ofInt n = .ok e ↔ ∃ fits : FitsEngine n, e = .integer n fits := by
  unfold ofInt
  split
  · rename_i hfits
    rw [Except.ok.injEq]
    exact ⟨fun he ↦ ⟨hfits, he.symm⟩, fun ⟨_, he⟩ ↦ he.symm⟩
  · rename_i hbeyond
    exact iff_of_false nofun fun ⟨hfits, _⟩ ↦ hbeyond hfits

end EngineValue

namespace Hint

/-- Under a type of integers the integer that a value is is read, or its refusal. -/
theorem decode_int (resolve : Option (EngineValue → Hint → Except Error Value)) (t : IntType)
    (e : EngineValue) :
    (int t).decode resolve e = (e.toInt t).map (.int .unsized) := by
  rw [decode]
  cases h : e.toInt t <;> simp only [decodeAtom?, h] <;> rfl

theorem encode_int_eq_ok_iff {width : IntType} :
    (int t).encode (.int width m) = .ok e ↔ ∃ fits : FitsEngine m,
      e = .integer m fits ∧ t.Admits m := by
  change (do EngineValue.ofInt (← t.checked m) : Except Error EngineValue) = _ ↔ _
  constructor
  · intro hencode
    obtain ⟨n, hn, hinteger⟩ := Except.ok_of_bind hencode
    obtain ⟨rfl, hadmits⟩ := IntType.checked_eq_ok_iff.mp hn
    obtain ⟨fits, he⟩ := EngineValue.ofInt_eq_ok_iff.mp hinteger
    exact ⟨fits, he, hadmits⟩
  · rintro ⟨fits, he, hadmits⟩
    rw [IntType.checked_eq_ok_iff.mpr ⟨rfl, hadmits⟩]
    exact EngineValue.ofInt_eq_ok_iff.mpr ⟨fits, he⟩

/-- Reading and writing under a type of integers is exact. What is read is the integer that the
value is, within the bounds of the type, or the failure tells which of this does not hold; what is
written lies within the bounds of the type and of the engine. -/
theorem narrowing_exact (resolve : Option (EngineValue → Hint → Except Error Value)) (t : IntType)
    (e : EngineValue) :
    (∀ v, (int t).decode resolve e = .ok v ↔ ∃ n, v = .int .unsized n ∧ e.IsWhole n ∧ t.Admits n) ∧
      (∀ raised, (int t).decode resolve e = .error raised ↔ e.RefusedAs t raised) ∧
      (∀ width m, (∃ written, (int t).encode (.int width m) = .ok written) ↔
        t.Admits m ∧ -2 ^ 63 ≤ m ∧ m ≤ 2 ^ 63 - 1) ∧
      IntType.unsized.low = -2 ^ 63 ∧ IntType.unsized.high = 2 ^ 63 - 1 := by
  refine ⟨fun v ↦ ?_, fun raised ↦ ?_, fun width m ↦ ?_, rfl, rfl⟩
  · rw [decode_int]
    constructor
    · intro hread
      cases hn : e.toInt t with
      | error raised =>
        rw [hn] at hread
        cases hread
      | ok n =>
        rw [hn] at hread
        cases hread
        exact ⟨n, rfl, EngineValue.toInt_eq_ok_iff.mp hn⟩
    · rintro ⟨n, rfl, hn⟩
      rw [EngineValue.toInt_eq_ok_iff.mpr hn]
      rfl
  · rw [decode_int, ← EngineValue.toInt_eq_error_iff]
    cases e.toInt t <;> simp [Except.map]
  · simp only [encode_int_eq_ok_iff]
    constructor
    · rintro ⟨written, fits, -, hadmits⟩
      exact ⟨hadmits, fits⟩
    · rintro ⟨hadmits, fits⟩
      exact ⟨_, fits, rfl, hadmits⟩

end Hint

end RuleMarshal
