import RuleMarshal.Binary64.Basic
/-!
Arithmetic on binary floating-point numbers. Each operation takes the exact result of finite
operands, a ratio of integers, and rounds it once. A zero keeps the sign that the operands give it.
-/

set_option autoImplicit false
set_option relaxedAutoImplicit false

namespace RuleMarshal.Binary64

/-- Whether the sign of a number is a minus; not-a-number has none. -/
def isNegative : Binary64 → Bool
  | .nan => false
  | .infinite negative | .finite negative _ _ => negative

/-- The number of the other sign. -/
def neg : Binary64 → Binary64
  | .nan => .nan
  | .infinite negative => .infinite !negative
  | .finite negative biased fraction => .finite (!negative) biased fraction

/-- The number without its sign. -/
def abs (x : Binary64) : Binary64 := if x.isNegative then x.neg else x

/-- A finite number as a ratio with a positive denominator. -/
def fraction? : Binary64 → Option (Int × Nat)
  | .finite negative biased fraction =>
    let (num, den) := ratio biased fraction
    some (if negative then -(num : Int) else num, den)
  | _ => none

/-- Whether a number is one of the two zeros. -/
def isZero (x : Binary64) : Bool := x.numericEq zero

/-- The number nearest to a ratio; a zero has the given sign. -/
def ofFraction (num : Int) (den : Nat) (negativeZero : Bool) : Binary64 :=
  if num = 0 then zeroOf negativeZero else ofRatio (num < 0) num.natAbs den

/-- The sum of two numbers. -/
def add (x y : Binary64) : Binary64 :=
  match x, y with
  | .nan, _ | _, .nan => .nan
  | .infinite s, .infinite t => if s = t then .infinite s else .nan
  | .infinite s, _ | _, .infinite s => .infinite s
  | x, y =>
    match x.fraction?, y.fraction? with
    | some (a, b), some (c, d) =>
      ofFraction (a * d + c * b) (b * d) (x.isNegative && y.isNegative)
    | _, _ => .nan

/-- The difference of two numbers. -/
def sub (x y : Binary64) : Binary64 := add x y.neg

/-- The product of two numbers. -/
def mul (x y : Binary64) : Binary64 :=
  let negative := x.isNegative != y.isNegative
  match x, y with
  | .nan, _ | _, .nan => .nan
  | .infinite _, y => if y.isZero then .nan else .infinite negative
  | x, .infinite _ => if x.isZero then .nan else .infinite negative
  | x, y =>
    match x.fraction?, y.fraction? with
    | some (a, b), some (c, d) => ofFraction (a * c) (b * d) negative
    | _, _ => .nan

/-- The quotient of two numbers; one by zero is not a number. -/
def div (x y : Binary64) : Binary64 :=
  let negative := x.isNegative != y.isNegative
  match x, y with
  | .nan, _ | _, .nan => .nan
  | .infinite _, .infinite _ => .nan
  | .infinite _, _ => .infinite negative
  | _, .infinite _ => zeroOf negative
  | x, y =>
    match x.fraction?, y.fraction? with
    | some (a, b), some (c, d) =>
      if c = 0 then .nan
      else ofFraction (a * d * c.sign) (b * c.natAbs) negative
    | _, _ => .nan

/-- The whole quotient of two numbers, rounded down. -/
def floorDiv (x y : Binary64) : Binary64 :=
  let negative := x.isNegative != y.isNegative
  match x, y with
  | .nan, _ | _, .nan | .infinite _, _ => .nan
  | x, .infinite _ =>
    if x.isZero || !negative then zeroOf negative else ofRatio true 1 1
  | x, y =>
    match x.fraction?, y.fraction? with
    | some (a, b), some (c, d) => ofFraction (Int.fdiv (a * d) (c * b)) 1 negative
    | _, _ => .nan

/-- The rest of a division rounded down, which has the sign of the divisor. -/
def floorMod (x y : Binary64) : Binary64 :=
  match x, y with
  | .nan, _ | _, .nan | .infinite _, _ => .nan
  | x, .infinite t =>
    if x.isZero then zeroOf t else if x.isNegative = t then x else .infinite t
  | x, y =>
    match x.fraction?, y.fraction? with
    | some (a, b), some (c, d) =>
      if c = 0 then .nan
      else ofFraction (Int.fmod (a * d) (c * b)) (b * d) y.isNegative
    | _, _ => .nan

/-- How two numbers are ordered; not-a-number is in no order. -/
def order? (x y : Binary64) : Option Ordering :=
  match x, y with
  | .nan, _ | _, .nan => none
  | .infinite s, .infinite t => some (compare t s)
  | .infinite s, _ => some (if s then .lt else .gt)
  | _, .infinite t => some (if t then .gt else .lt)
  | x, y =>
    match x.fraction?, y.fraction? with
    | some (a, b), some (c, d) => some (compare (a * d) (c * b))
    | _, _ => none

/-- How a number and an integer are ordered; not-a-number is in no order. -/
def orderInt? (x : Binary64) (n : Int) : Option Ordering :=
  match x with
  | .nan => none
  | .infinite s => some (if s then .lt else .gt)
  | x => x.fraction?.map fun (a, b) ↦ compare a (n * b)

/-- A number to the power of a whole one: the exact power, rounded once. A zero has no power below
zero. -/
def powInt (x : Binary64) (n : Int) : Binary64 :=
  if n = 0 then ofRatio false 1 1
  else
    let negative := x.isNegative && n.natAbs % 2 = 1
    match x with
    | .nan => .nan
    | .infinite _ => if 0 < n then .infinite negative else zeroOf negative
    | x =>
      match x.fraction? with
      | some (a, b) =>
        if a = 0 then if 0 < n then zeroOf negative else .infinite negative
        else
          let p := Nat.pow a.natAbs n.natAbs
          let q := Nat.pow b n.natAbs
          if 0 < n then ofRatio negative p q else ofRatio negative q p
      | none => .nan

/-- The root of a natural number, rounded down: digits of base two from the highest, as many as
given. -/
def rootBits (n : Nat) : Nat → Nat → Nat
  | 0, root => root
  | k + 1, root =>
    let next := root + Nat.pow 2 k
    rootBits n k (if next * next ≤ n then next else root)

/-- The number nearest to the square root of a ratio of naturals. The root is taken with more bits
than a number has, and a rest below the last one counts as half a bit. -/
def rootOfRatio (num den : Nat) : Binary64 :=
  let scale := 128 + den.log2
  let n := num * Nat.pow 4 scale / den
  let root := rootBits n (n.log2 / 2 + 1) 0
  let exact := root * root * den = num * Nat.pow 4 scale
  ofRatio false (2 * root + if exact then 0 else 1) (Nat.pow 2 (scale + 1))

/-- The square root of a number that has no minus sign, or is zero. -/
def root (x : Binary64) : Binary64 :=
  match x with
  | .infinite false => .infinite false
  | x =>
    if x.isZero then x
    else if x.isNegative then .nan
    else
      match x.fraction? with
      | some (a, b) => rootOfRatio a.natAbs b
      | none => .nan

/-- The root of the sum of two squares. -/
def hypotenuse (x y : Binary64) : Binary64 :=
  match x, y with
  | .infinite _, _ | _, .infinite _ => .infinite false
  | x, y =>
    match x.fraction?, y.fraction? with
    | some (a, b), some (c, d) =>
      rootOfRatio (a * a * (d * d) + c * c * (b * b)).natAbs (b * b * (d * d))
    | _, _ => .nan

end RuleMarshal.Binary64
