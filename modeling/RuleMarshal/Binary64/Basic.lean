/-!
Binary floating-point numbers of 64 bits, as exact data. A finite number is a sign, a biased
exponent and a fraction, so that different finite values of the type are different numbers,
the two zeros apart. Rounding a ratio of natural numbers goes to the nearest number of the type
and from a half to the even neighbour.
-/

set_option autoImplicit false
set_option relaxedAutoImplicit false

namespace RuleMarshal

/-- A floating-point number of 64 bits; all not-a-number patterns are one value. -/
inductive Binary64 where
  | nan
  | infinite (negative : Bool)
  | finite (negative : Bool) (biased : Fin 2047) (fraction : Fin 4503599627370496)
  deriving DecidableEq, Repr, Inhabited

namespace Binary64

/-- The zero with a sign. -/
def zeroOf (negative : Bool) : Binary64 := .finite negative 0 0

/-- The zero with a plus sign. -/
def zero : Binary64 := zeroOf false

/-- Whether the number is neither infinite nor not-a-number. -/
def isFinite : Binary64 → Bool
  | .finite .. => true
  | _ => false

/-- The whole-number factor of a finite number: the fraction, with the hidden bit where there is
one. -/
def significand (biased : Fin 2047) (fraction : Fin 4503599627370496) : Nat :=
  if biased.val = 0 then fraction.val else 4503599627370496 + fraction.val

/-- The power of two that the significand is scaled by. -/
def exponent (biased : Fin 2047) : Int := (max biased.val 1 : Nat) - 1075

/-- The size of a finite number as a ratio of naturals: numerator and denominator. -/
def ratio (biased : Fin 2047) (fraction : Fin 4503599627370496) : Nat × Nat :=
  match exponent biased with
  | .ofNat e => (significand biased fraction * Nat.pow 2 e, 1)
  | .negSucc e => (significand biased fraction, Nat.pow 2 (e + 1))

/-- Numeric equality: the zeros are equal, and not-a-number equals nothing. -/
def numericEq : Binary64 → Binary64 → Bool
  | .infinite s, .infinite t => s == t
  | .finite s b f, .finite t c g => b == c && f == g && (s == t || (b.val = 0 && f.val = 0))
  | _, _ => false

/-- The number with the given significand and power of two, infinite if it is too large.
The significand is below `2 ^ 53`, and below `2 ^ 52` only with the least exponent. -/
def ofParts (negative : Bool) (significand : Nat) (exponent : Int) : Binary64 :=
  if h : significand < 4503599627370496 then
    .finite negative 0 ⟨significand, h⟩
  else
    let biased := (exponent + 1075).toNat
    let fraction := significand - 4503599627370496
    if h : biased < 2047 ∧ fraction < 4503599627370496 then
      .finite negative ⟨biased, h.1⟩ ⟨fraction, h.2⟩
    else .infinite negative

/-- The quotient rounded to the nearest whole number, from a half to the even one. -/
def roundDiv (num den : Nat) : Nat :=
  let quotient := num / den
  let rest := 2 * (num % den)
  if den < rest ∨ (rest = den ∧ quotient % 2 = 1) then quotient + 1 else quotient

/-- The least power of two, not below the format's, at which the ratio has a significand of at
most 53 bits. -/
def ratioExponent (num den : Nat) : Int :=
  let k : Int := (Nat.log2 num : Int) - Nat.log2 den
  let below : Bool := match k with
    | .ofNat e => num < den * Nat.pow 2 e
    | .negSucc e => num * Nat.pow 2 (e + 1) < den
  max (if below then k - 53 else k - 52) (-1074)

/-- The number nearest to a ratio of naturals. -/
def ofRatio (negative : Bool) (num den : Nat) : Binary64 :=
  if num = 0 then .finite negative 0 0
  else
    let e := ratioExponent num den
    let m := match e with
      | .ofNat k => roundDiv num (den * Nat.pow 2 k)
      | .negSucc k => roundDiv (num * Nat.pow 2 (k + 1)) den
    if m = 9007199254740992 then ofParts negative 4503599627370496 (e + 1)
    else ofParts negative m e

/-- The number nearest to `digits * 10 ^ power`. -/
def ofDecimal (negative : Bool) (digits : Nat) (power : Int) : Binary64 :=
  match power with
  | .ofNat p => ofRatio negative (digits * Nat.pow 10 p) 1
  | .negSucc p => ofRatio negative digits (Nat.pow 10 (p + 1))

/-- The number nearest to an integer, none if it is beyond the finite numbers. -/
def ofInt? (n : Int) : Option Binary64 :=
  match ofRatio (n < 0) n.natAbs 1 with
  | .finite s b f => some (.finite s b f)
  | _ => none

/-- The integer that a number is, none if it has a fractional part or is not finite. -/
def toInt? : Binary64 → Option Int
  | .finite negative biased fraction =>
    let (num, den) := ratio biased fraction
    if num % den = 0 then
      let size : Int := num / den
      some (if negative then -size else size)
    else none
  | _ => none

/-- The whole part of a number, towards zero; zero if it is not finite. -/
def truncated : Binary64 → Int
  | .finite negative biased fraction =>
    let (num, den) := ratio biased fraction
    let size : Int := (num / den : Nat)
    if negative then -size else size
  | _ => 0

end Binary64

end RuleMarshal
