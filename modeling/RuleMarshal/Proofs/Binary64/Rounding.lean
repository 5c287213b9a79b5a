import RuleMarshal.Binary64.Basic
import Mathlib.Data.Int.Log
import Mathlib.Data.Rat.Floor
import Mathlib.Tactic.Positivity
import Mathlib.Tactic.Ring
/-!
Rounding of a ratio. The number nearest to a ratio depends on its value alone, not on the numerator
and the denominator that it is written with (`ofRatio_congr`), and the number nearest to the size of
a finite number is that number (`ofRatio_ratio`). With them decimal digits mean what they should: a
zero behind the last digit is worth a power of ten (`ofDecimal_mul_pow`). An integer is near to a
finite number exactly if it is less than half a unit beyond the greatest of them
(`ofInt?_eq_none_iff`).
-/

set_option autoImplicit false
set_option relaxedAutoImplicit false

namespace RuleMarshal.Binary64

variable {n n' d d' c : Nat} {negative : Bool}

/-! ### Whole quotients -/

theorem roundDiv_mul_left (hc : 0 < c) : roundDiv (c * n) (c * d) = roundDiv n d := by
  have hrest : 2 * (c * n % (c * d)) = c * (2 * (n % d)) := by rw [Nat.mul_mod_mul_left]; ring
  have hlt : c * d < c * (2 * (n % d)) ↔ d < 2 * (n % d) := Nat.mul_lt_mul_left hc
  have heq : c * (2 * (n % d)) = c * d ↔ 2 * (n % d) = d := Nat.mul_right_inj hc.ne'
  simp only [roundDiv, hrest, Nat.mul_div_mul_left _ _ hc, hlt, heq]

theorem roundDiv_congr (hd : 0 < d) (hd' : 0 < d') (h : n * d' = n' * d) :
    roundDiv n d = roundDiv n' d' := by
  calc roundDiv n d = roundDiv (d' * n) (d' * d) := (roundDiv_mul_left hd').symm
    _ = roundDiv (d * n') (d * d') := by
      rw [Nat.mul_comm d' n, h, Nat.mul_comm n' d, Nat.mul_comm d' d]
    _ = roundDiv n' d' := roundDiv_mul_left hd

theorem roundDiv_mul_self (hd : 0 < d) : roundDiv (n * d) d = n := by
  simp [roundDiv, hd.ne, hd.ne']

/-! ### The exponent of a ratio -/

theorem two_zpow_pos (k : Int) : (0 : ℚ) < (2 : ℚ) ^ k := zpow_pos (by norm_num) k

theorem log_of_bounds {q : ℚ} {k : Int} (hlow : (2 : ℚ) ^ k ≤ q) (hhigh : q < (2 : ℚ) ^ (k + 1)) :
    Int.log 2 q = k := by
  have hq : 0 < q := (two_zpow_pos k).trans_le hlow
  apply le_antisymm
  · have hlt := (Int.lt_zpow_iff_log_lt (b := 2) (by norm_num) hq).mp (by exact_mod_cast hhigh)
    omega
  · exact (Int.zpow_le_iff_le_log (b := 2) (by norm_num) hq).mp (by exact_mod_cast hlow)

theorem two_pow_log2_le (hn : 0 < n) : (2 : ℚ) ^ (n.log2 : Int) ≤ n := by
  rw [zpow_natCast]
  exact_mod_cast Nat.log2_self_le hn.ne'

theorem lt_two_pow_log2 (n : Nat) : (n : ℚ) < (2 : ℚ) ^ ((n.log2 : Int) + 1) := by
  have h : n < 2 ^ (n.log2 + 1) := Nat.lt_log2_self
  exact_mod_cast h

/-- A ratio in units of a power of two, as a ratio again. -/
def inBinaryUnits (n d : Nat) : Int → Nat × Nat
  | .ofNat e => (n, d * Nat.pow 2 e)
  | .negSucc e => (n * Nat.pow 2 (e + 1), d)

theorem inBinaryUnits_pos (hd : 0 < d) (e : Int) : 0 < (inBinaryUnits n d e).2 := by
  match e with
  | .ofNat e => exact Nat.mul_pos hd (Nat.pow_pos (by norm_num))
  | .negSucc e => exact hd

theorem inBinaryUnits_value (n d : Nat) (e : Int) :
    ((inBinaryUnits n d e).1 : ℚ) / (inBinaryUnits n d e).2 = n / d / (2 : ℚ) ^ e := by
  match e with
  | .ofNat e =>
    rw [Int.ofNat_eq_natCast, zpow_natCast, div_div]
    simp [inBinaryUnits]
  | .negSucc e =>
    rw [zpow_negSucc, div_inv_eq_mul, div_mul_eq_mul_div]
    simp [inBinaryUnits]

theorem ratioExponent_eq_ite (n d : Nat) :
    ratioExponent n d =
      let k : Int := (n.log2 : Int) - d.log2
      max (if (inBinaryUnits n d k).1 < (inBinaryUnits n d k).2 then k - 53
        else k - 52) (-1074) := by
  unfold ratioExponent
  dsimp only
  cases (n.log2 : Int) - d.log2 <;> simp only [decide_eq_true_eq] <;> rfl

theorem ofRatio_eq_ite (hn : n ≠ 0) :
    ofRatio negative n d =
      let e := ratioExponent n d
      let m := roundDiv (inBinaryUnits n d e).1 (inBinaryUnits n d e).2
      if m = 9007199254740992 then ofParts negative 4503599627370496 (e + 1)
        else ofParts negative m e := by
  rw [ofRatio, if_neg hn]
  dsimp only
  cases ratioExponent n d <;> rfl

theorem lt_inBinaryUnits_iff (hd : 0 < d) (e : Int) :
    (inBinaryUnits n d e).1 < (inBinaryUnits n d e).2 ↔ (n : ℚ) / d < (2 : ℚ) ^ e := by
  have hpos : (0 : ℚ) < (inBinaryUnits n d e).2 := by exact_mod_cast inBinaryUnits_pos hd e
  rw [← Nat.cast_lt (α := ℚ), ← div_lt_one hpos, inBinaryUnits_value, div_lt_one (two_zpow_pos e)]

theorem ratioExponent_eq (hn : 0 < n) (hd : 0 < d) :
    ratioExponent n d = max (Int.log 2 ((n : ℚ) / d) - 52) (-1074) := by
  have hdq : (0 : ℚ) < d := by exact_mod_cast hd
  have hlow : (2 : ℚ) ^ ((n.log2 : Int) - d.log2 - 1) ≤ (n : ℚ) / d := by
    rw [le_div_iff₀ hdq]
    calc (2 : ℚ) ^ ((n.log2 : Int) - d.log2 - 1) * d
        ≤ (2 : ℚ) ^ ((n.log2 : Int) - d.log2 - 1) * (2 : ℚ) ^ ((d.log2 : Int) + 1) :=
          mul_le_mul_of_nonneg_left (lt_two_pow_log2 d).le (two_zpow_pos _).le
      _ = (2 : ℚ) ^ (n.log2 : Int) := by
          rw [← zpow_add₀ (by norm_num)]
          congr 1
          ring
      _ ≤ n := two_pow_log2_le hn
  have hhigh : (n : ℚ) / d < (2 : ℚ) ^ ((n.log2 : Int) - d.log2 + 1) := by
    rw [div_lt_iff₀ hdq]
    calc (n : ℚ) < (2 : ℚ) ^ ((n.log2 : Int) + 1) := lt_two_pow_log2 n
      _ = (2 : ℚ) ^ ((n.log2 : Int) - d.log2 + 1) * (2 : ℚ) ^ (d.log2 : Int) := by
          rw [← zpow_add₀ (by norm_num)]
          congr 1
          ring
      _ ≤ (2 : ℚ) ^ ((n.log2 : Int) - d.log2 + 1) * d :=
          mul_le_mul_of_nonneg_left (two_pow_log2_le hd) (two_zpow_pos _).le
  -- The difference of the logarithms is off by at most one, and the comparison tells by how much.
  simp only [ratioExponent_eq_ite, lt_inBinaryUnits_iff hd]
  by_cases hbelow : (n : ℚ) / d < (2 : ℚ) ^ ((n.log2 : Int) - d.log2)
  · rw [if_pos hbelow, log_of_bounds hlow (by rwa [sub_add_cancel])]
    congr 1
    ring
  · rw [if_neg hbelow, log_of_bounds (not_lt.mp hbelow) hhigh]

/-! ### The nearest number -/

theorem ofRatio_congr (hd : 0 < d) (hd' : 0 < d') (h : n * d' = n' * d) :
    ofRatio negative n d = ofRatio negative n' d' := by
  by_cases hn : n = 0
  · have hn' : n' = 0 := by
      rw [hn, Nat.zero_mul] at h
      exact (Nat.mul_eq_zero.mp h.symm).resolve_right hd.ne'
    simp [ofRatio, hn, hn']
  · have hn' : n' ≠ 0 := by
      rintro rfl
      rw [Nat.zero_mul] at h
      exact hn ((Nat.mul_eq_zero.mp h).resolve_right hd'.ne')
    have hvalue : (n : ℚ) / d = n' / d' := by
      rw [div_eq_div_iff (by positivity) (by positivity)]
      exact_mod_cast h
    have hexponent : ratioExponent n d = ratioExponent n' d' := by
      rw [ratioExponent_eq (Nat.pos_of_ne_zero hn) hd,
        ratioExponent_eq (Nat.pos_of_ne_zero hn') hd', hvalue]
    rw [ofRatio_eq_ite hn, ofRatio_eq_ite hn', hexponent]
    have hround : ∀ e, roundDiv (inBinaryUnits n d e).1 (inBinaryUnits n d e).2 =
        roundDiv (inBinaryUnits n' d' e).1 (inBinaryUnits n' d' e).2 := by
      intro e
      have hpos := inBinaryUnits_pos (n := n) hd e
      have hpos' := inBinaryUnits_pos (n := n') hd' e
      refine roundDiv_congr hpos hpos' ?_
      have hunits : ((inBinaryUnits n d e).1 : ℚ) / (inBinaryUnits n d e).2 =
          (inBinaryUnits n' d' e).1 / (inBinaryUnits n' d' e).2 := by
        rw [inBinaryUnits_value, inBinaryUnits_value, hvalue]
      rw [div_eq_div_iff (by positivity) (by positivity)] at hunits
      exact_mod_cast hunits
    simp only [hround]

section

variable {biased : Fin 2047} {fraction : Fin 4503599627370496}

theorem exists_ratio_den_eq (biased : Fin 2047) (fraction : Fin 4503599627370496) :
    ∃ k, (ratio biased fraction).2 = 2 ^ k := by
  unfold ratio
  split
  · exact ⟨0, rfl⟩
  · exact ⟨_, rfl⟩

theorem ratio_den_pos (biased : Fin 2047) (fraction : Fin 4503599627370496) :
    0 < (ratio biased fraction).2 := by
  obtain ⟨k, hk⟩ := exists_ratio_den_eq biased fraction
  rw [hk]
  positivity

theorem ratio_value (biased : Fin 2047) (fraction : Fin 4503599627370496) :
    ((ratio biased fraction).1 : ℚ) / (ratio biased fraction).2 =
      significand biased fraction * (2 : ℚ) ^ exponent biased := by
  unfold ratio
  split
  · rename_i e he
    rw [he, Int.ofNat_eq_natCast, zpow_natCast]
    simp
  · rename_i e he
    rw [he, zpow_negSucc]
    simp [div_eq_mul_inv]

theorem ratio_num_eq_zero_iff :
    (ratio biased fraction).1 = 0 ↔ significand biased fraction = 0 := by
  unfold ratio
  split
  · exact Nat.mul_eq_zero.trans (or_iff_left (Nat.pow_pos (by norm_num)).ne')
  · exact Iff.rfl

theorem eq_zero_of_significand (hs : significand biased fraction = 0) :
    biased = 0 ∧ fraction = 0 := by
  have hzero : biased.val = 0 ∧ fraction.val = 0 := by
    unfold significand at hs
    split at hs <;> omega
  exact ⟨Fin.ext hzero.1, Fin.ext hzero.2⟩

/-- A significand has at most 53 bits, and fewer only with the least exponent. -/
theorem ratioExponent_of_significand (hs : 0 < significand biased fraction) :
    max (Int.log 2 (significand biased fraction * (2 : ℚ) ^ exponent biased) - 52) (-1074) =
      exponent biased := by
  have hlow := two_pow_log2_le hs
  have hhigh := lt_two_pow_log2 (significand biased fraction)
  have hlog : Int.log 2 (significand biased fraction * (2 : ℚ) ^ exponent biased) =
      ((significand biased fraction).log2 : Int) + exponent biased := by
    refine log_of_bounds ?_ ?_
    · rw [zpow_add₀ (by norm_num)]
      exact mul_le_mul_of_nonneg_right hlow (two_zpow_pos _).le
    · rw [add_right_comm, zpow_add₀ (by norm_num)]
      exact mul_lt_mul_of_pos_right hhigh (two_zpow_pos _)
  rw [hlog]
  have hwide : (significand biased fraction).log2 < 53 := by
    rw [Nat.log2_lt hs.ne']
    unfold significand
    split <;> omega
  by_cases hleast : biased.val = 0
  · have hsmall : (significand biased fraction).log2 < 52 := by
      rw [Nat.log2_lt hs.ne', significand, if_pos hleast]
      exact fraction.isLt
    simp only [exponent, hleast]
    omega
  · have hfull : 52 ≤ (significand biased fraction).log2 := by
      rw [Nat.le_log2 hs.ne', significand, if_neg hleast]
      omega
    simp only [exponent]
    omega

theorem ofParts_significand (negative : Bool) (biased : Fin 2047)
    (fraction : Fin 4503599627370496) :
    ofParts negative (significand biased fraction) (exponent biased) =
      .finite negative biased fraction := by
  unfold ofParts
  by_cases hleast : biased.val = 0
  · obtain rfl : biased = 0 := Fin.ext hleast
    have hfraction : significand 0 fraction = fraction.val := if_pos rfl
    simp [hfraction]
  · have hfull : significand biased fraction = 4503599627370496 + fraction.val := if_neg hleast
    have hexponent : (exponent biased + 1075).toNat = biased.val := by
      simp only [exponent]
      omega
    simp [hfull, hexponent]

/-- The number nearest to the size of a finite number is that number. -/
theorem ofRatio_ratio (negative : Bool) (biased : Fin 2047) (fraction : Fin 4503599627370496) :
    ofRatio negative (ratio biased fraction).1 (ratio biased fraction).2 =
      .finite negative biased fraction := by
  by_cases hs : significand biased fraction = 0
  · obtain ⟨rfl, rfl⟩ := eq_zero_of_significand hs
    rw [ofRatio, if_pos (ratio_num_eq_zero_iff.mpr hs)]
  · have hpos := Nat.pos_of_ne_zero hs
    have hnum : (ratio biased fraction).1 ≠ 0 := fun h ↦ hs (ratio_num_eq_zero_iff.mp h)
    have hden := ratio_den_pos biased fraction
    have hexponent : ratioExponent (ratio biased fraction).1 (ratio biased fraction).2 =
        exponent biased := by
      rw [ratioExponent_eq (Nat.pos_of_ne_zero hnum) hden, ratio_value]
      exact ratioExponent_of_significand hpos
    have hunits := inBinaryUnits_value (ratio biased fraction).1 (ratio biased fraction).2
      (exponent biased)
    rw [ratio_value, mul_div_cancel_right₀ _ (two_zpow_pos _).ne'] at hunits
    have hround : roundDiv (inBinaryUnits (ratio biased fraction).1 (ratio biased fraction).2
        (exponent biased)).1 (inBinaryUnits (ratio biased fraction).1 (ratio biased fraction).2
        (exponent biased)).2 = significand biased fraction := by
      have hunit := inBinaryUnits_pos (n := (ratio biased fraction).1) hden (exponent biased)
      rw [div_eq_iff (by positivity)] at hunits
      rw [← roundDiv_mul_self (n := significand biased fraction) hunit]
      congr 1
      exact_mod_cast hunits
    have hbound : significand biased fraction ≠ 9007199254740992 := by
      unfold significand
      split <;> omega
    rw [ofRatio_eq_ite hnum, hexponent]
    dsimp only
    rw [hround, if_neg hbound, ofParts_significand]

end

/-! ### Integers -/

section

variable {s : Nat} {e : Int}

theorem roundDiv_eq_or (n d : Nat) : roundDiv n d = n / d ∨ roundDiv n d = n / d + 1 := by
  unfold roundDiv
  dsimp only
  split
  · exact .inr rfl
  · exact .inl rfl

/-- A significand of 53 bits makes a finite number up to the greatest exponent. -/
theorem ofParts_isFinite (hlow : 4503599627370496 ≤ s) (hhigh : s < 9007199254740992) :
    (ofParts negative s e).isFinite = decide (e < 972) := by
  have hfraction : s - 4503599627370496 < 4503599627370496 := by omega
  rw [ofParts, dif_neg hlow.not_gt]
  by_cases he : e < 972
  · rw [dif_pos ⟨by omega, hfraction⟩, decide_eq_true he]
    rfl
  · rw [dif_neg fun hboth ↦ he (by have := hboth.1; omega), decide_eq_false he]
    rfl

theorem ratioExponent_one (hn : 0 < n) : ratioExponent n 1 = (n.log2 : Int) - 52 := by
  rw [ratioExponent_eq hn Nat.one_pos, Nat.cast_one, div_one,
    log_of_bounds (two_pow_log2_le hn) (lt_two_pow_log2 n)]
  omega

/-- A natural in units of its 53rd bit, as a ratio. -/
def inLastPlaces (n : Nat) : Nat × Nat := inBinaryUnits n 1 (n.log2 - 52)

theorem inLastPlaces_bounds (hn : 0 < n) :
    4503599627370496 ≤ (inLastPlaces n).1 / (inLastPlaces n).2 ∧
      (inLastPlaces n).1 / (inLastPlaces n).2 < 9007199254740992 := by
  have hpos : 0 < (inLastPlaces n).2 := inBinaryUnits_pos Nat.one_pos _
  have hvalue : ((inLastPlaces n).1 : ℚ) / (inLastPlaces n).2 =
      n / (2 : ℚ) ^ ((n.log2 : Int) - 52) := by
    rw [inLastPlaces, inBinaryUnits_value, Nat.cast_one, div_one]
  have hlow := two_pow_log2_le hn
  have hhigh := lt_two_pow_log2 n
  constructor
  · rw [Nat.le_div_iff_mul_le hpos, ← Nat.cast_le (α := ℚ), Nat.cast_mul,
      ← le_div_iff₀ (by exact_mod_cast hpos)]
    rw [hvalue, le_div_iff₀ (two_zpow_pos _)]
    calc (4503599627370496 : ℕ) * (2 : ℚ) ^ ((n.log2 : Int) - 52) = (2 : ℚ) ^ (n.log2 : Int) := by
          rw [zpow_sub₀ (by norm_num)]
          norm_num
          ring
      _ ≤ n := hlow
  · rw [Nat.div_lt_iff_lt_mul hpos, ← Nat.cast_lt (α := ℚ), Nat.cast_mul,
      ← div_lt_iff₀ (by exact_mod_cast hpos)]
    rw [hvalue, div_lt_iff₀ (two_zpow_pos _)]
    calc (n : ℚ) < (2 : ℚ) ^ ((n.log2 : Int) + 1) := hhigh
      _ = (9007199254740992 : ℕ) * (2 : ℚ) ^ ((n.log2 : Int) - 52) := by
          rw [zpow_sub₀ (by norm_num), zpow_add₀ (by norm_num)]
          norm_num
          ring

theorem inBinaryUnits_succ (n e : Nat) : inBinaryUnits n 1 (e + 1 : Nat) = (n, 2 * 2 ^ e) := by
  show (n, 1 * Nat.pow 2 (e + 1)) = _
  rw [Nat.one_mul]
  exact congrArg (Prod.mk n) (pow_succ' 2 e)

/-- From half a unit below the least number of 54 bits on, a quotient of 53 bits is rounded to
it. -/
theorem roundDiv_eq_iff {u : Nat} (hu : 0 < u) (hquotient : n / (2 * u) < 9007199254740992) :
    roundDiv n (2 * u) = 9007199254740992 ↔ 18014398509481983 * u ≤ n := by
  have hn := Nat.div_add_mod n (2 * u)
  have hrest : n % (2 * u) < 2 * u := Nat.mod_lt _ (by omega)
  obtain hless | hgreatest : n / (2 * u) < 9007199254740991 ∨
      n / (2 * u) = 9007199254740991 := by omega
  · have hbound : 2 * u * (n / (2 * u) + 1) ≤ 2 * u * 9007199254740991 :=
      Nat.mul_le_mul_left _ hless
    have hstep : 2 * u * (n / (2 * u) + 1) = 2 * u * (n / (2 * u)) + 2 * u := Nat.mul_succ _ _
    have hround := roundDiv_eq_or n (2 * u)
    constructor <;> intro h <;> omega
  · unfold roundDiv
    dsimp only
    rw [hgreatest] at hn ⊢
    split <;> constructor <;> intro h <;> omega

/-- A significand that is rounded up to 54 bits counts in the next exponent. -/
theorem ofRatio_one_isFinite (hn : 0 < n) :
    (ofRatio negative n 1).isFinite = true ↔ (n.log2 : Int) - 52 <
      if roundDiv (inLastPlaces n).1 (inLastPlaces n).2 = 9007199254740992 then 971 else 972 := by
  obtain ⟨hlow, hhigh⟩ := inLastPlaces_bounds hn
  have hround := roundDiv_eq_or (inLastPlaces n).1 (inLastPlaces n).2
  have hparts : ofRatio negative n 1 =
      if roundDiv (inLastPlaces n).1 (inLastPlaces n).2 = 9007199254740992 then
      ofParts negative 4503599627370496 (n.log2 - 52 + 1)
      else ofParts negative (roundDiv (inLastPlaces n).1 (inLastPlaces n).2) (n.log2 - 52) := by
    rw [ofRatio_eq_ite hn.ne', ratioExponent_one hn]
    rfl
  rw [hparts]
  split
  · rw [ofParts_isFinite (by norm_num) (by norm_num), decide_eq_true_eq]
    omega
  · rw [ofParts_isFinite (by omega) (by omega), decide_eq_true_eq]

theorem log2_lt_iff (hn : 0 < n) (j k : Nat) : n.log2 < j + k ↔ n < 2 ^ j * 2 ^ k := by
  rw [Nat.log2_lt hn.ne', Nat.pow_add]

theorem ofRatio_one_isFinite_iff (hn : 0 < n) :
    (ofRatio negative n 1).isFinite = true ↔ n < 18014398509481983 * 2 ^ 970 := by
  rw [ofRatio_one_isFinite hn]
  obtain hsmall | hedge | hlarge := lt_trichotomy n.log2 1023
  · have hless := (log2_lt_iff hn 53 970).mp hsmall
    have hbound : n < 18014398509481983 * 2 ^ 970 :=
      hless.trans (Nat.mul_lt_mul_of_pos_right (by norm_num) (by positivity))
    refine iff_of_true ?_ hbound
    split <;> omega
  · have hunits : inLastPlaces n = (n, 2 * 2 ^ 970) := by
      rw [inLastPlaces, show (n.log2 : Int) - 52 = (970 + 1 : Nat) by omega]
      exact inBinaryUnits_succ n 970
    have hhigh := (inLastPlaces_bounds hn).2
    rw [hunits] at hhigh ⊢
    simp only [roundDiv_eq_iff (u := 2 ^ 970) (by positivity) hhigh, hedge]
    split <;> omega
  · have hmore := not_lt.mp ((log2_lt_iff hn 54 970).not.mp (by omega))
    have hbound : 18014398509481983 * 2 ^ 970 ≤ n :=
      (Nat.mul_le_mul_right _ (by norm_num)).trans hmore
    refine iff_of_false ?_ hbound.not_gt
    split <;> omega

/-- Integers from half a unit beyond the greatest finite number on are near to none of them. -/
theorem ofInt?_eq_none_iff (k : Int) : ofInt? k = none ↔ 2 ^ 1024 - 2 ^ 970 ≤ k.natAbs := by
  have hlimit : (2 : Nat) ^ 1024 - 2 ^ 970 = 18014398509481983 * 2 ^ 970 := by
    rw [show (1024 : Nat) = 54 + 970 by rfl, pow_add, ← Nat.sub_one_mul]
    rw [show (2 : Nat) ^ 54 - 1 = 18014398509481983 by norm_num]
  have hfinite : ofInt? k = none ↔ ¬ (ofRatio (k < 0) k.natAbs 1).isFinite = true := by
    unfold ofInt?
    cases ofRatio (k < 0) k.natAbs 1 <;> simp [isFinite]
  rw [hfinite, hlimit]
  obtain hzero | hpos := Nat.eq_zero_or_pos k.natAbs
  · rw [hzero]
    exact iff_of_false (by simp [ofRatio, isFinite]) (Nat.not_le.mpr (by positivity))
  · rw [ofRatio_one_isFinite_iff hpos, not_lt]

end

/-! ### Decimal digits -/

section

variable {digits num den : Nat} {power : Int}

theorem ofDecimal_eq_ofRatio (hden : 0 < den) (h : (digits : ℚ) * (10 : ℚ) ^ power = num / den) :
    ofDecimal negative digits power = ofRatio negative num den := by
  rw [eq_div_iff (by positivity)] at h
  match power with
  | .ofNat p =>
    rw [Int.ofNat_eq_natCast, zpow_natCast] at h
    refine ofRatio_congr Nat.one_pos hden ?_
    rw [Nat.mul_one]
    exact_mod_cast h
  | .negSucc p =>
    rw [zpow_negSucc, mul_right_comm, ← div_eq_mul_inv, div_eq_iff (by positivity)] at h
    refine ofRatio_congr (Nat.pow_pos (by norm_num)) hden ?_
    exact_mod_cast h

/-- The number nearest to decimal digits depends on their value alone. -/
theorem ofDecimal_congr {digits' : Nat} {power' : Int}
    (h : (digits : ℚ) * (10 : ℚ) ^ power = digits' * (10 : ℚ) ^ power') :
    ofDecimal negative digits power = ofDecimal negative digits' power' := by
  match power' with
  | .ofNat p =>
    refine ofDecimal_eq_ofRatio Nat.one_pos ?_
    rw [h, Int.ofNat_eq_natCast, zpow_natCast]
    simp
  | .negSucc p =>
    refine ofDecimal_eq_ofRatio (Nat.pow_pos (by norm_num)) ?_
    rw [h, zpow_negSucc, div_eq_mul_inv]
    simp

theorem ofDecimal_mul_pow (negative : Bool) (digits zeros : Nat) (power : Int) :
    ofDecimal negative (digits * 10 ^ zeros) power = ofDecimal negative digits (power + zeros) := by
  refine ofDecimal_congr ?_
  rw [zpow_add₀ (by norm_num), zpow_natCast]
  push_cast
  ring

theorem ofDecimal_zero (negative : Bool) (power : Int) :
    ofDecimal negative 0 power = zeroOf negative := by
  match power with
  | .ofNat p => simp [ofDecimal, ofRatio, zeroOf]
  | .negSucc p => simp [ofDecimal, ofRatio, zeroOf]

end

end RuleMarshal.Binary64
