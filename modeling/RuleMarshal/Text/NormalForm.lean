import RuleMarshal.Text.Decomposition
/-!
The normal form of names, by which names that are written with different characters are the same.
Characters give way to what they stand for, marks are put into the order of their classes, and then
characters and marks become composites where there are any. A name of ASCII characters stays as it
is.
-/

set_option autoImplicit false
set_option relaxedAutoImplicit false

namespace RuleMarshal.Text

/-! ### Syllables -/

/-- The first syllable that is written as a block of letters. -/
def firstSyllable : Nat := 0xac00

/-- How many syllables there are: one for each leading, middle and trailing letter, where the
trailing one may be missing. -/
def syllableCount : Nat := 19 * 21 * 28

/-- The first letter that a syllable can begin with. -/
def firstLeading : Nat := 0x1100

/-- The first letter that can stand in the middle of a syllable. -/
def firstMiddle : Nat := 0x1161

/-- The character in front of the first letter that a syllable can end with. -/
def noTrailing : Nat := 0x11a7

/-- The letters of a syllable. -/
def letters? (point : Nat) : Option (List Nat) :=
  if firstSyllable ≤ point ∧ point < firstSyllable + syllableCount then
    let n := point - firstSyllable
    let block := [firstLeading + n / (21 * 28), firstMiddle + n % (21 * 28) / 28]
    some (if n % 28 = 0 then block else block ++ [noTrailing + n % 28])
  else none

/-- The syllable of a leading and a middle letter, or of a syllable of two letters and a trailing
one. -/
def syllable? (a b : Nat) : Option Nat :=
  if firstLeading ≤ a ∧ a < firstLeading + 19 ∧ firstMiddle ≤ b ∧ b < firstMiddle + 21 then
    some (firstSyllable + ((a - firstLeading) * 21 + (b - firstMiddle)) * 28)
  else if firstSyllable ≤ a ∧ a < firstSyllable + syllableCount ∧ (a - firstSyllable) % 28 = 0 ∧
      noTrailing < b ∧ b < noTrailing + 28 then
    some (a + (b - noTrailing))
  else none

/-! ### Taking apart and putting in order -/

/-- What a character is made of, taken apart at most the given number of times. -/
def takenApart : Nat → Nat → List Nat
  | 0, point => [point]
  | steps + 1, point =>
    match letters? point, parts? point with
    | some letters, _ => letters
    | none, some (a, b) => takenApart steps a ++ takenApart steps b
    | none, none => expanded point

/-- How often a character can be taken apart. -/
def apartLimit : Nat := 4

/-- A character put behind others, which stand in reverse; a mark goes in front of marks of higher
classes. -/
def putBehind (point : Nat) : List Nat → List Nat
  | [] => [point]
  | before :: rest =>
    if markClass point ≠ 0 ∧ markClass point < markClass before then
      before :: putBehind point rest
    else point :: before :: rest

/-- Characters with their marks in the order of the classes. -/
def ordered (points : List Nat) : List Nat :=
  (points.foldl (fun before point ↦ putBehind point before) []).reverse

/-! ### Putting together -/

/-- Puts together what follows a character and the marks behind it, which stand in reverse. A mark
reaches the character unless one of its class or a higher one stands between. -/
def composeBehind (base : Nat) (behind : List Nat) : List Nat → List Nat
  | [] => base :: behind.reverse
  | c :: rest =>
    let blocked := behind.head?.any fun m ↦ markClass c ≤ markClass m
    match if blocked then none else (syllable? base c).or (composite? base c) with
    | some whole => composeBehind whole behind rest
    | none =>
      if markClass c = 0 then base :: behind.reverse ++ composeBehind c [] rest
      else composeBehind base (c :: behind) rest

/-- Characters and marks as composites, where there are any. -/
def composed : List Nat → List Nat
  | [] => []
  | c :: rest => if markClass c = 0 then composeBehind c [] rest else c :: composed rest

/-- The normal form of a name. -/
def normalForm (name : String) : String :=
  if name.toList.all fun c ↦ c.toNat < 0x80 then name
  else
    let points := name.toList.flatMap fun c ↦ takenApart apartLimit c.toNat
    String.ofList ((composed (ordered points)).map Char.ofNat)

end RuleMarshal.Text
