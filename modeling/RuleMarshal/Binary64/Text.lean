import RuleMarshal.Binary64.Basic
/-!
The decimal text of a floating-point number. A number is written with the fewest digits that read
back to it, of those the ones nearest to it, and from a tie the even last digit. The notation is
positional, with at least one digit after the point, where the leading digit stands for a power
of ten from `-4` to `15`, and scientific elsewhere.
-/

set_option autoImplicit false
set_option relaxedAutoImplicit false

namespace RuleMarshal.Binary64

/-! ### The fewest digits -/

/-- Whether a ratio is at least a power of ten. -/
def reachesPower (num den : Nat) : Int → Bool
  | .ofNat p => den * Nat.pow 10 p ≤ num
  | .negSucc p => den ≤ num * Nat.pow 10 (p + 1)

/-- Raises a power of ten, by a few steps, to the greatest one that the ratio reaches. -/
def raisePower (num den : Nat) : Nat → Int → Int
  | 0, p => p
  | steps + 1, p => if reachesPower num den (p + 1) then raisePower num den steps (p + 1) else p

/-- The power of ten of the leading digit of a ratio. -/
def leadingPower (num den : Nat) : Int :=
  let k : Int := (Nat.log2 num : Int) - Nat.log2 den
  raisePower num den 4 (((k - 1) * 30103) / 100000 - 1)

/-- The ratio in units of a power of ten: whole units, and what is left as a ratio. -/
def inUnits (num den : Nat) : Int → Nat × Nat × Nat
  | .ofNat p => (num / (den * Nat.pow 10 p), num % (den * Nat.pow 10 p), den * Nat.pow 10 p)
  | .negSucc p => (num * Nat.pow 10 (p + 1) / den, num * Nat.pow 10 (p + 1) % den, den)

/-- Of the two neighbours of a ratio on a decimal grid, the one that reads back to the number,
the nearer if both do, and from a tie the even one. -/
def onGrid? (x : Binary64) (negative : Bool) (num den : Nat) (power : Int) : Option Nat :=
  let (low, rest, unit) := inUnits num den power
  let lowHits : Bool := ofDecimal negative low power = x
  let highHits : Bool := ofDecimal negative (low + 1) power = x
  if lowHits && highHits then
    some (if unit < 2 * rest ∨ (2 * rest = unit ∧ low % 2 = 1) then low + 1 else low)
  else if lowHits then some low
  else if highHits then some (low + 1)
  else none

/-- The first grid, from coarse to fine, that has digits for the number. -/
def search (x : Binary64) (negative : Bool) (num den : Nat) : Nat → Int → Option (Nat × Int)
  | 0, _ => none
  | steps + 1, power =>
    match onGrid? x negative num den power with
    | some digits => some (digits, power)
    | none => search x negative num den steps (power - 1)

/-- The fewest digits of a finite number and the power of ten of the last one. The number's exact
decimal expansion stands in for a search that finds nothing. -/
def shortest (negative : Bool) (biased : Fin 2047) (fraction : Fin 4503599627370496) :
    Nat × Int :=
  if significand biased fraction = 0 then (0, 0)
  else
    let (num, den) := ratio biased fraction
    let found := search (.finite negative biased fraction) negative num den 17
      (leadingPower num den)
    found.getD (num * Nat.pow 5 (Nat.log2 den), -(Nat.log2 den : Int))

/-! ### The notation -/

/-- Digits without the zeros at their end, and the power of ten of the last digit left. -/
def trimZeros : List Char → Int → List Char × Int
  | reversed, power =>
    let kept := reversed.dropWhile (· = '0')
    (kept.reverse, power + (reversed.length - kept.length : Nat))

/-- Least powers of ten, greatest power of ten of the leading digit in positional notation, and
the least number of exponent digits. -/
structure Layout where
  leastPositional : Int
  greatestPositional : Int
  exponentDigits : Nat

/-- Positional from `0.0001` up to sixteen whole digits; exponents have at least two digits. -/
def decimalLayout : Layout := ⟨-4, 15, 2⟩

/-- An exponent with its sign. -/
def exponentText (style : Layout) (e : Int) : List Char :=
  let digits := Nat.toDigits 10 e.natAbs
  (if e < 0 then '-' else '+') ::
    (List.replicate (style.exponentDigits - digits.length) '0' ++ digits)

/-- The text of digits whose last one stands for a power of ten. -/
def layout (style : Layout) (digits : List Char) (power : Int) : List Char :=
  let leading : Int := power + digits.length - 1
  if style.leastPositional ≤ leading ∧ leading ≤ style.greatestPositional then
    if 0 ≤ power then digits ++ List.replicate power.toNat '0' ++ ['.', '0']
    else if leading < 0 then
      '0' :: '.' :: (List.replicate (-leading - 1).toNat '0' ++ digits)
    else
      digits.take (leading.toNat + 1) ++ '.' :: digits.drop (leading.toNat + 1)
  else
    match digits with
    | [] => []
    | first :: rest =>
      first :: (if rest.isEmpty then [] else '.' :: rest) ++ 'e' :: exponentText style leading

/-- The text of a number. -/
def text : Binary64 → String
  | .nan => "nan"
  | .infinite negative => if negative then "-inf" else "inf"
  | .finite negative biased fraction =>
    let (digits, power) := shortest negative biased fraction
    let body :=
      if digits = 0 then ['0', '.', '0']
      else
        let (kept, last) := trimZeros (Nat.toDigits 10 digits).reverse power
        layout decimalLayout kept last
    String.ofList (if negative then '-' :: body else body)

/-! ### Reading -/

/-- The decimal digits at the front of a text, their value, their number and the rest. -/
def takeDigits : List Char → Nat → Nat → Nat × Nat × List Char
  | [], value, count => (value, count, [])
  | c :: rest, value, count =>
    if c.isDigit then takeDigits rest (value * 10 + (c.toNat - '0'.toNat)) (count + 1)
    else (value, count, c :: rest)

/-- An exponent part, zero where the text has ended. -/
def readExponent? : List Char → Option Int
  | [] => some 0
  | c :: rest =>
    if c = 'e' ∨ c = 'E' then
      let (negative, digits) := match rest with
        | '-' :: more => (true, more)
        | '+' :: more => (false, more)
        | more => (false, more)
      match takeDigits digits 0 0 with
      | (value, _ + 1, []) => some (if negative then -value else value)
      | _ => none
    else none

/-- A number without its sign. -/
def readUnsigned? (negative : Bool) (cs : List Char) : Option Binary64 :=
  if cs = ['i', 'n', 'f'] then some (.infinite negative)
  else if cs = ['n', 'a', 'n'] then some .nan
  else
    let (whole, wholeCount, rest) := takeDigits cs 0 0
    let (digits, places, rest) := match rest with
      | '.' :: more => takeDigits more whole 0
      | more => (whole, 0, more)
    if wholeCount + places = 0 then none
    else (readExponent? rest).map fun e ↦ ofDecimal negative digits (e - places)

/-- The number that a text stands for. -/
def ofText? (s : String) : Option Binary64 :=
  match s.toList with
  | '-' :: rest => readUnsigned? true rest
  | cs => readUnsigned? false cs

end RuleMarshal.Binary64
