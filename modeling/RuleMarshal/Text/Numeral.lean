import RuleMarshal.Binary64.Text
import RuleMarshal.Text.Blank
import RuleMarshal.Text.Digit
/-!
Numbers that are written in texts, with white space around them, a sign, digits of any script and
single marks between digits.
-/

set_option autoImplicit false
set_option relaxedAutoImplicit false

namespace RuleMarshal.Text

/-- The characters that a number is read from: no white space around them, plain digits, and no
marks. -/
def numeral? (s : String) : Option (List Char) :=
  unmarked? false ((strip s).toList.map plainDigit)

/-- A sign at the front of a number, and what follows it. -/
def splitSign : List Char → Bool × List Char
  | '-' :: rest => (true, rest)
  | '+' :: rest => (false, rest)
  | cs => (false, cs)

/-- The integer that is written in a text. -/
def integer? (s : String) : Option Int := do
  let (negative, digits) := splitSign (← numeral? s)
  match Binary64.takeDigits digits 0 0 with
  | (value, _ + 1, []) => return if negative then -value else value
  | _ => none

/-- The number of the digits and the power of ten of the last one, brought near enough to be
worked with: what is beyond all numbers stays beyond them. -/
def nearPower (digits : Nat) (power : Int) : Int :=
  max (min power 400) (-400 - (Nat.toDigits 10 digits).length)

/-- The float that is written in a text. -/
def float? (s : String) : Option Binary64 := do
  let (negative, cs) := splitSign (← numeral? s)
  let word := String.ofList (cs.map Char.toLower)
  if word = "inf" || word = "infinity" then return .infinite negative
  if word = "nan" then return .nan
  let (whole, wholeCount, rest) := Binary64.takeDigits cs 0 0
  let (digits, places, rest) := match rest with
    | '.' :: more => Binary64.takeDigits more whole 0
    | more => (whole, 0, more)
  if wholeCount + places = 0 then none
  else
    let e ← Binary64.readExponent? rest
    return .ofDecimal negative digits (nearPower digits (e - places))

end RuleMarshal.Text
