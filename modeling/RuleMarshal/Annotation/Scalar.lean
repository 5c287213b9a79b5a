import RuleMarshal.Binary64.Arithmetic
import RuleMarshal.Binary64.Text
import RuleMarshal.Hint.Basic
import RuleMarshal.Text.Shown
/-!
Plain values that a written type may hold: truth values, numbers and byte strings. A truth value
counts as the integer one or zero, and an integer as the float nearest to it.
-/

set_option autoImplicit false
set_option relaxedAutoImplicit false

namespace RuleMarshal.Annotation

/-- A plain value. -/
inductive Scalar where
  | truth (b : Bool)
  | integer (n : Int)
  | float (x : Binary64)
  | complex (real imaginary : Binary64)
  | bytes (s : String)
  deriving DecidableEq, Repr

namespace Scalar

/-- The name of the type of a plain value. -/
def typeName : Scalar → String
  | .truth _ => "bool"
  | .integer _ => "int"
  | .float _ => "float"
  | .complex .. => "complex"
  | .bytes _ => "bytes"

/-- A part of a complex number: a whole one has no fraction. -/
def partText (x : Binary64) : String :=
  let cs := x.text.toList
  if cs.reverse.take 2 = ['0', '.'] then String.ofList (cs.take (cs.length - 2)) else x.text

/-- How a byte string is shown: characters beyond seven bits by number. -/
def bytesText (s : String) : String :=
  let quote := Text.quoteFor s.toList
  String.ofList ('b' :: quote :: s.toList.flatMap (fun c ↦
    if c.toNat < 0x80 then Text.showChar quote c else '\\' :: 'x' :: Text.hexDigits 2 c.toNat) ++
      [quote])

/-- How a plain value is shown. -/
def shown : Scalar → String
  | .truth b => if b then "True" else "False"
  | .integer n => toString n
  | .float x => x.text
  | .complex re im =>
    if re = .zero then partText im ++ "j"
    else
      let sign := if im.isNegative then "" else "+"
      "(" ++ partText re ++ sign ++ partText im ++ "j)"
  | .bytes s => bytesText s

/-- Whether a plain value counts as true. -/
def holds : Scalar → Bool
  | .truth b => b
  | .integer n => n != 0
  | .float x => !x.isZero
  | .complex re im => !(re.isZero && im.isZero)
  | .bytes s => !s.isEmpty

/-- A plain value where a type should be. -/
def datum (s : Scalar) : Datum := { typeName := s.typeName, shown := s.shown, holds := s.holds }

/-- The integer that a value counts as. -/
def integer? : Scalar → Option Int
  | .truth b => some (if b then 1 else 0)
  | .integer n => some n
  | _ => none

/-- Whether two plain values are equal: numbers are by what they count. -/
def equal (a b : Scalar) : Bool :=
  match a, b with
  | .bytes s, .bytes t => s = t
  | .bytes _, _ | _, .bytes _ => false
  | .complex r i, .complex s j => r.numericEq s && i.numericEq j
  | .complex r i, x | x, .complex r i => i.isZero && realEqual x (.float r)
  | a, b => realEqual a b
where
  realEqual (a b : Scalar) : Bool :=
    match a.integer?, b.integer?, a, b with
    | some m, some n, _, _ => m = n
    | some m, none, _, .float y => y.orderInt? m = some .eq
    | none, some n, .float x, _ => x.orderInt? n = some .eq
    | none, none, .float x, .float y => x.numericEq y
    | _, _, _, _ => false

/-- How two plain values are ordered: `none` if they cannot be compared at all, and no order within
that if one of them is not a number. -/
def order? (a b : Scalar) : Option (Option Ordering) :=
  match a.integer?, b.integer?, a, b with
  | some m, some n, _, _ => some (some (compare m n))
  | some m, none, _, .float y => some ((y.orderInt? m).map Ordering.swap)
  | none, some n, .float x, _ => some (x.orderInt? n)
  | none, none, .float x, .float y => some (x.order? y)
  | none, none, .bytes s, .bytes t => some (some (compare s t))
  | _, _, _, _ => none

end Scalar

end RuleMarshal.Annotation
