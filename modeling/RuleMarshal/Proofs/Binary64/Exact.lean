import RuleMarshal.Proofs.Binary64.Rounding
/-!
The exact value of a number. A finite number stands for one rational (`value?`), and the integer
that a number is taken for is that rational, if it is an integer (`toInt?_eq_some_iff`); nothing is
rounded on the way.
-/

set_option autoImplicit false
set_option relaxedAutoImplicit false

namespace RuleMarshal.Binary64

/-- The rational that a number is; none if it is not finite. -/
def value? : Binary64 → Option ℚ
  | .finite negative biased fraction =>
    let size : ℚ := significand biased fraction * (2 : ℚ) ^ exponent biased
    some (if negative then -size else size)
  | _ => none

variable {num den : Nat} {n : Int} {q : ℚ}

/-- A ratio is an integer exactly if its denominator divides the numerator, and then it is their
quotient. -/
theorem ratio_eq_intCast_iff (hden : 0 < den) :
    (num : ℚ) / den = n ↔ num % den = 0 ∧ ((num / den : Nat) : Int) = n := by
  have hpos : (0 : ℚ) < den := by exact_mod_cast hden
  have hcross : (num : ℚ) / den = n ↔ (num : Int) = n * den := by
    rw [div_eq_iff hpos.ne']
    exact_mod_cast Iff.rfl
  rw [hcross]
  constructor
  · intro hnum
    have hdvd : den ∣ num := Int.natCast_dvd_natCast.mp ⟨n, by rw [hnum, Int.mul_comm]⟩
    refine ⟨Nat.mod_eq_zero_of_dvd hdvd, ?_⟩
    rw [Int.natCast_div, hnum]
    exact Int.mul_ediv_cancel n (by omega)
  · rintro ⟨hrest, rfl⟩
    have hwhole := Nat.div_mul_cancel (Nat.dvd_of_mod_eq_zero hrest)
    exact_mod_cast hwhole.symm

theorem signed_eq_intCast_iff (negative : Bool) :
    (if negative then -q else q) = (n : ℚ) ↔ q = ((if negative then -n else n : Int) : ℚ) := by
  cases negative
  · exact Iff.rfl
  · simp only [if_true, Int.cast_neg, neg_eq_iff_eq_neg]

/-- The integer that a number is, is its exact value. -/
theorem toInt?_eq_some_iff (x : Binary64) : x.toInt? = some n ↔ x.value? = some (n : ℚ) := by
  cases x with
  | nan | infinite => simp [toInt?, value?]
  | finite negative biased fraction =>
    have hden := ratio_den_pos biased fraction
    simp only [value?, Option.some.injEq, signed_eq_intCast_iff, ← ratio_value,
      ratio_eq_intCast_iff hden, toInt?]
    split
    · rename_i hrest
      cases negative <;> simp [hrest, neg_eq_iff_eq_neg]
    · rename_i hrest
      simp [hrest]

/-- A number is taken for no integer exactly if its value is none: it is not finite, or it has a
fractional part. -/
theorem toInt?_eq_none_iff (x : Binary64) :
    x.toInt? = none ↔ ∀ n : Int, x.value? ≠ some (n : ℚ) := by
  simp only [Option.eq_none_iff_forall_ne_some, ne_eq, toInt?_eq_some_iff]

/-- The greatest finite number is an integer of 1024 bits. -/
example :
    (Binary64.finite false 2046 4503599627370495).toInt? = some (2 ^ 1024 - 2 ^ 971) := by
  decide +kernel

end RuleMarshal.Binary64
