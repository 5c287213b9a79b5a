import RuleMarshal.Annotation.Meaning
/-!
What operators mean between the meanings of terms: arithmetic on numbers, joining and repeating of
rows, unions of types, comparisons, and what an index picks out of a row. Operands that an operator
does not take are refused by the names of their types.
-/

set_option autoImplicit false
set_option relaxedAutoImplicit false

namespace RuleMarshal.Annotation

/-! ### Integers bit by bit -/

/-- An operation on the bits of two integers, in a window wide enough for both. -/
def bitwise (f : (w : Nat) → BitVec w → BitVec w → BitVec w) (a b : Int) : Int :=
  let w := max a.natAbs.log2 b.natAbs.log2 + 2
  (f w (BitVec.ofInt w a) (BitVec.ofInt w b)).toInt

/-- An operation of bits by its sign. -/
def bitOperation? : String → Option ((w : Nat) → BitVec w → BitVec w → BitVec w)
  | "&" => some fun _ a b ↦ a &&& b
  | "|" => some fun _ a b ↦ a ||| b
  | "^" => some fun _ a b ↦ a ^^^ b
  | _ => none

/-! ### Numbers -/

/-- How many digits an integer may have to be shown. -/
def digitLimit : Nat := 4300

/-- The failure of an integer that has too many digits to be shown. -/
def tooManyDigits : HostFault := .value "Exceeds the limit for integer string conversion"

/-- An integer that is not too long to be shown. -/
def showable (n : Int) : Except HostFault Scalar :=
  if Nat.pow 10 digitLimit ≤ n.natAbs then .error tooManyDigits else .ok (.integer n)

/-- The failure of a division by zero. -/
def divisionByZero : HostFault := .raised .zeroDivision "division by zero"

/-- An integer as a float. -/
def floatOf (n : Int) : Except HostFault Binary64 :=
  match Binary64.ofInt? n with
  | some x => .ok x
  | none => .error HostFault.beyondFloats

/-- An integer to the power of another. A negative power makes a float. -/
def powerOf (m n : Int) : Except HostFault Scalar :=
  if m.natAbs ≤ 1 then
    if m = 0 && n < 0 then
      .error (.raised .zeroDivision "0.0 cannot be raised to a negative power")
    else
      let power : Int := if n = 0 || m = 1 then 1 else if m = 0 then 0
        else if n % 2 = 0 then 1 else -1
      if 0 ≤ n then .ok (.integer power) else .float <$> floatOf power
  else if n < 0 then do return .float ((← floatOf m).powInt (max n (-5000)))
  else if 4 * digitLimit < m.natAbs.log2 * n.natAbs then .error tooManyDigits
  else showable (Int.pow m n.toNat)

/-- A float to the power of another that is a whole number or halves one. One to any power is
one. -/
def floatPower (x y : Binary64) : Except HostFault Scalar :=
  let two := Binary64.ofRatio false 2 1
  if x = Binary64.ofRatio false 1 1 then .ok (.float x)
  else if x.isZero && y.isNegative && !y.isZero then
    .error (.raised .zeroDivision "0.0 cannot be raised to a negative power")
  else
    let whole (n : Int) : Binary64 := x.powInt (max (min n 5000) (-5000))
    let power := match y.toInt?, (y.mul two).toInt? with
      | some n, _ => whole n
      | none, some n => (whole n).root
      | none, none => .nan
    if x.isFinite && !power.isFinite && power != .nan then
      .error (.overflow "Numerical result out of range")
    else .ok (.float power)

/-- Two integers under an operator, if it takes them. -/
def integers? (op : String) (m n : Int) : Option (Except HostFault Scalar) :=
  match op with
  | "+" => some (.ok (.integer (m + n)))
  | "-" => some (.ok (.integer (m - n)))
  | "*" => some (.ok (.integer (m * n)))
  | "/" => some <|
    if n = 0 then .error divisionByZero
    else
      let x := Binary64.ofFraction (m * n.sign) n.natAbs false
      if x.isFinite then .ok (.float x)
      else .error (.overflow "integer division result too large for a float")
  | "//" => some (if n = 0 then .error divisionByZero else .ok (.integer (Int.fdiv m n)))
  | "%" => some (if n = 0 then .error divisionByZero else .ok (.integer (Int.fmod m n)))
  | "**" => some (powerOf m n)
  | "<<" => some <|
    if n < 0 then .error (.value "negative shift count")
    else if m = 0 then .ok (.integer 0)
    else if 4 * digitLimit < n.toNat then .error tooManyDigits
    else showable (m * Nat.pow 2 n.toNat)
  | ">>" => some <|
    if n < 0 then .error (.value "negative shift count")
    else .ok (.integer (Int.fdiv m (Nat.pow 2 (min n.toNat (m.natAbs.log2 + 1)))))
  | op => (bitOperation? op).map fun f ↦ .ok (.integer (bitwise f m n))

/-- The operators that take floats. -/
def floatOperators : List String := ["+", "-", "*", "/", "//", "%", "**"]

/-- Two floats under an operator that takes them. -/
def floats (op : String) (x y : Binary64) : Except HostFault Scalar :=
  let divided (f : Binary64 → Binary64 → Binary64) : Except HostFault Scalar :=
    if y.isZero then .error divisionByZero else .ok (.float (f x y))
  match op with
  | "+" => .ok (.float (x.add y))
  | "-" => .ok (.float (x.sub y))
  | "*" => .ok (.float (x.mul y))
  | "/" => divided Binary64.div
  | "//" => divided Binary64.floorDiv
  | "%" => divided Binary64.floorMod
  | _ => floatPower x y

/-- The operators that take complex numbers. -/
def complexOperators : List String := ["+", "-", "*", "/", "**"]

/-- The product of two complex numbers, as pairs of parts. -/
def complexProduct (a b : Binary64 × Binary64) : Binary64 × Binary64 :=
  ((a.1.mul b.1).sub (a.2.mul b.2), (a.1.mul b.2).add (a.2.mul b.1))

/-- The quotient of two complex numbers, scaled by the larger part of the divisor. -/
def complexQuotient (a b : Binary64 × Binary64) : Except HostFault (Binary64 × Binary64) :=
  let (r, i) := a
  let (s, j) := b
  if s.isZero && j.isZero then .error (.raised .zeroDivision "complex division by zero")
  else if j.abs.order? s.abs = some .gt then
    let ratio := s.div j
    let whole := (s.mul ratio).add j
    .ok (((r.mul ratio).add i).div whole, ((i.mul ratio).sub r).div whole)
  else
    let ratio := j.div s
    let whole := s.add (j.mul ratio)
    .ok ((r.add (i.mul ratio)).div whole, (i.sub (r.mul ratio)).div whole)

/-- A complex number to the power that bits give, the lowest first; `square` is the number to the
power of the first bit. -/
def complexPowerOf (square product : Binary64 × Binary64) : List Bool → Binary64 × Binary64
  | [] => product
  | bit :: rest =>
    complexPowerOf (complexProduct square square)
      (if bit then complexProduct product square else product) rest

/-- The bits of a number, the lowest first, as many as it has. -/
def bitsOf (n : Nat) : List Bool :=
  if n = 0 then [] else (List.range (n.log2 + 1)).map n.testBit

/-- A complex number to the power of a whole number up to a hundred; other powers are given up. -/
def complexPower (a b : Binary64 × Binary64) : Except HostFault (Binary64 × Binary64) :=
  let one : Binary64 × Binary64 := (.ofRatio false 1 1, .zero)
  match b.1.toInt? with
  | some n =>
    if b.2.isZero && n.natAbs ≤ 100 then
      let power := complexPowerOf a one (bitsOf n.natAbs)
      if 0 < n then .ok power
      else (complexQuotient one power).mapError fun _ ↦
        .raised .zeroDivision "0.0 to a negative or complex power"
    else .ok (.nan, .nan)
  | none => .ok (.nan, .nan)

/-- Two complex numbers under an operator that takes them. -/
def complexes (op : String) (a b : Binary64 × Binary64) : Except HostFault Scalar :=
  let ofParts (p : Binary64 × Binary64) : Scalar := .complex p.1 p.2
  match op with
  | "+" => .ok (.complex (a.1.add b.1) (a.2.add b.2))
  | "-" => .ok (.complex (a.1.sub b.1) (a.2.sub b.2))
  | "*" => .ok (ofParts (complexProduct a b))
  | "/" => ofParts <$> complexQuotient a b
  | _ => ofParts <$> complexPower a b

namespace Scalar

/-- The float that a number counts as. -/
def float? : Scalar → Option (Except HostFault Binary64)
  | .float x => some (.ok x)
  | s => s.integer?.map floatOf

/-- The parts of a number as a complex one. -/
def parts? : Scalar → Option (Except HostFault (Binary64 × Binary64))
  | .complex re im => some (.ok (re, im))
  | s => s.float?.map fun x ↦ do return (← x, Binary64.zero)

end Scalar

/-- Two numbers under an operator, as numbers of the wider of their types, if it takes them. -/
def numbers? (op : String) (a b : Scalar) : Option (Except HostFault Scalar) :=
  match a, b, a.integer?, b.integer? with
  | .truth x, .truth y, some m, some n =>
    match op with
    | "&" => some (.ok (.truth (x && y)))
    | "|" => some (.ok (.truth (x || y)))
    | "^" => some (.ok (.truth (x != y)))
    | op => integers? op m n
  | _, _, some m, some n => integers? op m n
  | a, b, _, _ =>
    match a.float?, b.float?, a.parts?, b.parts? with
    | some x, some y, _, _ =>
      if floatOperators.contains op then some do floats op (← x) (← y) else none
    | _, _, some p, some q =>
      if complexOperators.contains op then some do complexes op (← p) (← q) else none
    | _, _, _, _ => none

/-! ### Rows and texts -/

/-- The elements of a row, repeated. -/
def repeated {α : Type} (n : Int) (items : List α) : Except HostFault (List α) :=
  Meaning.bounded (items.length * n.toNat) fun _ ↦ (List.replicate n.toNat items).flatten

namespace Meaning

/-- The integer that a meaning counts as. -/
def integer? : Meaning → Option Int
  | .scalar s => s.integer?
  | _ => none

/-- A row or a text, repeated. -/
def timesOf? (m : Meaning) (n : Int) : Option (Except HostFault Meaning) :=
  match m with
  | .text s => some ((fun cs ↦ .text (String.ofList cs)) <$> repeated n s.toList)
  | .scalar (.bytes s) =>
    some ((fun cs ↦ .scalar (.bytes (String.ofList cs))) <$> repeated n s.toList)
  | .list ms => some (.list <$> repeated n ms)
  | .tuple ms => some (.tuple <$> repeated n ms)
  | _ => none

/-- Whether a meaning is a row or a text. -/
def isRow (m : Meaning) : Bool := (m.timesOf? 0).isSome

/-- Two meanings joined, the first one being a row or a text. -/
def joined? (a b : Meaning) : Option (Except HostFault Meaning) :=
  let refused (name : String) : Option (Except HostFault Meaning) :=
    some (.error (.typing ("can only concatenate " ++ name ++ " (not \"" ++ b.typeName ++
      "\") to " ++ name)))
  match a, b with
  | .text s, .text t => some (.ok (.text (s ++ t)))
  | .list as, .list bs => some (.ok (.list (as ++ bs)))
  | .tuple as, .tuple bs => some (.ok (.tuple (as ++ bs)))
  | .scalar (.bytes s), .scalar (.bytes t) => some (.ok (.scalar (.bytes (s ++ t))))
  | .text _, _ => refused "str"
  | .list _, _ => refused "list"
  | .tuple _, _ => refused "tuple"
  | .scalar (.bytes _), b =>
    some (.error (.typing ("can't concat " ++ b.typeName ++ " to bytes")))
  | _, _ => none

/-! ### Texts with places to fill -/

/-- A meaning as a text: a text stands for itself. -/
def written : Meaning → String
  | .text s => s
  | m => m.shown

/-- An integer in a base, with a mark behind its sign. -/
def digitsIn (base : Nat) (mark : String) (n : Int) : String :=
  (if n < 0 then "-" else "") ++ mark ++ String.ofList (Nat.toDigits base n.natAbs)

/-- A meaning as a piece of a text, as a letter says. -/
def asPiece (letter : Char) (m : Meaning) : Except HostFault String :=
  match letter, m with
  | 's', m => .ok m.written
  | 'r', m | 'a', m => .ok m.shown
  | 'c', .text s => .ok s
  | letter, m =>
    match letter, m, m.integer? with
    | 'x', _, some n => .ok (digitsIn 16 "" n)
    | 'o', _, some n => .ok (digitsIn 8 "" n)
    | 'c', _, some n => .ok (String.ofList [Char.ofNat n.toNat])
    | 'x', m, none | 'o', m, none => refused " format: an integer is required, not " m
    | 'c', m, none => .error (.typing ("%c requires int or char" ++ " not " ++ m.typeName))
    | _, _, some n => .ok (toString n)
    | _, .float x, none => .ok (toString x.truncated)
    | _, m, none => refused " format: a real number is required, not " m
where
  refused (text : String) (m : Meaning) : Except HostFault String :=
    .error (.typing ("%" ++ String.ofList [letter] ++ text ++ m.typeName))

/-- Letters that say how a value is written. -/
def pieceLetters : List Char := ['s', 'r', 'a', 'c', 'x', 'o', 'd', 'i', 'u']

/-- A text whose places are filled with values, and the values that are left. -/
def filledPlaces : List Char → List Meaning → Except HostFault (List Char × List Meaning)
  | [], ms => .ok ([], ms)
  | '%' :: '%' :: rest, ms => do
    let (behind, left) ← filledPlaces rest ms
    return ('%' :: behind, left)
  | '%' :: letter :: rest, ms =>
    if pieceLetters.contains letter then
      match ms with
      | [] => .error (.typing "not enough arguments for format string")
      | m :: ms => do
        let piece ← asPiece letter m
        let (behind, left) ← filledPlaces rest ms
        return (piece.toList ++ behind, left)
    else .error (.value "unsupported format character")
  | ['%'], _ => .error (.value "incomplete format")
  | c :: rest, ms => do
    let (behind, left) ← filledPlaces rest ms
    return (c :: behind, left)

/-- A text whose places are filled with a value, or with the values of a tuple. The sort of text is
given for its refusal. -/
def filled (sort s : String) (m : Meaning) : Except HostFault String := do
  let values := match m with
    | .tuple ms => ms
    | m => [m]
  let (cs, left) ← filledPlaces s.toList values
  let mayBeLeft := match m with
    | .mapping _ | .list _ | .range .. | .scalar (.bytes _) => true
    | m => m.typeName = "types.GenericAlias"
  if left.isEmpty || mayBeLeft then return String.ofList cs
  else throw (.typing ("not all arguments converted during " ++ sort ++ " formatting"))

/-! ### Two operands -/

/-- The refusal of two operands. -/
def operandsRefused (op : String) (a b : Meaning) : HostFault :=
  Hint.operandsRefused (if op = "**" then "** or pow()" else op) a.typeName b.typeName

/-- Two sets under an operator. -/
def sets? (op : String) (as bs : List Meaning) : Option (List Meaning) :=
  let among (ms : List Meaning) (m : Meaning) : Bool := ms.any (equal m)
  match op with
  | "|" => some (as ++ bs.filter fun b ↦ !among as b)
  | "&" => some (as.filter (among bs))
  | "-" => some (as.filter fun a ↦ !among bs a)
  | "^" => some (as.filter (fun a ↦ !among bs a) ++ bs.filter fun b ↦ !among as b)
  | _ => none

/-- A row repeated by what stands beside it. -/
def times (a b : Meaning) : Except HostFault Meaning :=
  let notWhole (m : Meaning) : HostFault :=
    .typing ("can't multiply sequence by non-int of type '" ++ m.typeName ++ "'")
  if a.isRow then
    match b.integer? with
    | some n => (a.timesOf? n).getD (.error (operandsRefused "*" a b))
    | none => .error (notWhole b)
  else if b.isRow then
    match a.integer? with
    | some n => (b.timesOf? n).getD (.error (operandsRefused "*" a b))
    | none => .error (notWhole a)
  else .error (operandsRefused "*" a b)

/-- What an operator means between two operands. -/
def combined (op : String) (a b : Meaning) : Except HostFault Meaning :=
  let numbers : Option (Except HostFault Meaning) := match a, b with
    | .scalar s, .scalar t => (numbers? op s t).map (.scalar <$> ·)
    | _, _ => none
  let others : Except HostFault Meaning := match op, a, b with
    | "+", a, b => (joined? a b).getD (.error (operandsRefused op a b))
    | "*", a, b => times a b
    | "%", .text s, m => .text <$> filled "string" s m
    | "%", .scalar (.bytes s), m => (fun t ↦ .scalar (.bytes t)) <$> filled "bytes" s m
    | "|", .mapping as, .mapping bs => mappingOf (as ++ bs)
    | "|", .hint g, .hint h => .hint <$> g.bar h
    | op, .set frozen as, .set _ bs =>
      match sets? op as bs with
      | some ms => .ok (.set frozen ms)
      | none => .error (operandsRefused op a b)
    | "|", a, b => .hint <$> a.toHint.bar b.toHint
    | op, a, b => .error (operandsRefused op a b)
  numbers.getD others

/-! ### Comparisons -/

/-- Whether two meanings are one and the same: constants and types are where they are equal, and
what is made anew is not. -/
def identical (a b : Meaning) : Bool :=
  match a, b with
  | .hint (.atom g), .hint (.atom h) => g = h
  | .hint (.union .word gs), .hint (.union .word hs) =>
    Hint.same (.union .word gs) (.union .word hs)
  | .scalar s, .scalar t => s = t
  | .tuple [], .tuple [] => true
  | _, _ => false

/-- The orders that a comparison holds for. -/
def ordersOf (op : String) : List Ordering :=
  match op with
  | "<" => [.lt]
  | "<=" => [.lt, .eq]
  | ">" => [.gt]
  | _ => [.gt, .eq]

/-- The refusal of two operands that are in no order. -/
def orderRefused (op : String) (a b : Meaning) : HostFault :=
  .typing ("'" ++ op ++ "' not supported between instances of '" ++ a.typeName ++ "' and '" ++
    b.typeName ++ "'")

mutual

/-- Whether an ordering comparison holds between two meanings. -/
def ordered (op : String) : Meaning → Meaning → Except HostFault Bool
  | .text s, .text t => .ok ((ordersOf op).contains (compare s t))
  | .scalar s, .scalar t =>
    match s.order? t with
    | some (some o) => .ok ((ordersOf op).contains o)
    | some none => .ok false
    | none => .error (orderRefused op (.scalar s) (.scalar t))
  | .list as, .list bs | .tuple as, .tuple bs => orderedEach op as bs
  | .set _ as, .set _ bs =>
    let (within, around) := (allAmong as bs, allAmong bs as)
    .ok (match op with
      | "<" => within && as.length < bs.length
      | "<=" => within
      | ">" => around && bs.length < as.length
      | _ => around)
  | a, b => .error (orderRefused op a b)

/-- Whether an ordering comparison holds between two rows: the first elements that differ decide,
else the lengths. -/
def orderedEach (op : String) : List Meaning → List Meaning → Except HostFault Bool
  | a :: as, b :: bs => if equal a b then orderedEach op as bs else ordered op a b
  | [], [] => .ok ((ordersOf op).contains .eq)
  | [], _ :: _ => .ok ((ordersOf op).contains .lt)
  | _ :: _, [] => .ok ((ordersOf op).contains .gt)

end

/-- The position of the first occurrence of a text in another, counted from the given number. -/
def positionIn? (part : List Char) : Nat → List Char → Option Nat
  | n, [] => if part.isEmpty then some n else none
  | n, c :: rest => if part.isPrefixOf (c :: rest) then some n else positionIn? part (n + 1) rest

/-- Whether a text is somewhere in another. -/
def occursIn (part whole : String) : Bool := (positionIn? part.toList 0 whole.toList).isSome

/-- Whether a meaning is in another. -/
def within (a b : Meaning) : Except HostFault Bool :=
  match b with
  | .text t =>
    match a with
    | .text s => .ok (occursIn s t)
    | a => .error (.typing ("'in <string>' requires string as left operand, not " ++ a.typeName))
  | .scalar (.bytes t) =>
    match a, a.integer? with
    | .scalar (.bytes s), _ => .ok (occursIn s t)
    | _, some n =>
      if 0 ≤ n ∧ n < 256 then .ok (t.toList.any fun c ↦ (c.toNat : Int) = n)
      else .error (.value "byte must be in range(0, 256)")
    | a, none => .error (.typing ("a bytes-like object is required, not '" ++ a.typeName ++ "'"))
  | .set _ ms => do
    let a ← match a with
      | .set _ as => pure (.set true as)
      | a => a.asKey
    return ms.any (equal a)
  | .mapping es => do
    let a ← a.asKey
    return es.any fun e ↦ equal a e.1
  | b =>
    match b.elements with
    | .ok ms => .ok (ms.any fun m ↦ equal a m || identical a m)
    | .error _ => .error (.typing ("argument of type '" ++ b.typeName ++ "' is not iterable"))

/-- Whether a comparison holds. -/
def compared (op : String) (a b : Meaning) : Except HostFault Bool :=
  match op with
  | "==" => .ok (equal a b)
  | "!=" => .ok !(equal a b)
  | "is" => .ok (identical a b)
  | "is not" => .ok !(identical a b)
  | "in" => within a b
  | "not in" => do return !(← within a b)
  | op => ordered op a b

/-! ### Signs -/

/-- What a sign in front of a value means. -/
def marked (op : String) (m : Meaning) : Except HostFault Meaning :=
  match op, m, m.integer? with
  | "not", m, _ => .ok (.truth !m.holds)
  | "-", _, some n => .ok (.integer (-n))
  | "+", _, some n => .ok (.integer n)
  | "~", _, some n => .ok (.integer (-n - 1))
  | "-", .float x, _ => .ok (.float x.neg)
  | "+", .float x, _ => .ok (.float x)
  | "-", .scalar (.complex r i), _ => .ok (.scalar (.complex r.neg i.neg))
  | "+", .scalar (.complex r i), _ => .ok (.scalar (.complex r i))
  | op, m, _ =>
    .error (.typing ("bad operand type for unary " ++ op ++ ": '" ++ m.typeName ++ "'"))

/-! ### Indices -/

/-- A bound of a slice; the absent value is none. -/
def bound? (m : Meaning) : Except HostFault (Option Int) :=
  match m, m.integer? with
  | .absent, _ => .ok none
  | _, some n => .ok (some n)
  | _, none =>
    .error (.typing "slice indices must be integers or None or have an __index__ method")

/-- A position counted from the end if it is negative, brought between two ends. -/
def clamped (length low high : Int) (n : Int) : Int :=
  max low (min high (if n < 0 then n + length else n))

/-- The bounds of a slice of a row of some length: start, stop and step. -/
def sliceBounds (length : Nat) (start stop step : Meaning) :
    Except HostFault (Int × Int × Int) := do
  let step := (← bound? step).getD 1
  if step = 0 then throw (.value "slice step cannot be zero")
  let size : Int := length
  let (low, high) : Int × Int := if step < 0 then (-1, size - 1) else (0, size)
  let first := (← bound? start).elim (if step < 0 then high else low) (clamped size low high)
  let last := (← bound? stop).elim (if step < 0 then low else high) (clamped size low high)
  return (first, last, step)

/-- What an index picks out of a row: an element, or a row of elements. -/
def picked (items : List Meaning) (row : List Meaning → Meaning) (refusal : String → String)
    (outside : String) (i : Meaning) : Except HostFault Meaning :=
  match i, i.integer? with
  | .slice a b c, _ => do
    let (start, stop, step) ← sliceBounds items.length a b c
    let positions := (List.range (rangeCount start stop step)).map fun (k : Nat) ↦ start + step * k
    return row (positions.filterMap fun k ↦ items[k.toNat]?)
  | _, some n =>
    let k := if n < 0 then n + items.length else n
    match if k < 0 then none else items[k.toNat]? with
    | some m => .ok m
    | none => .error (.index outside)
  | i, none => .error (.typing (refusal i.typeName))

/-- The text of texts in a row. -/
def joinedTexts (ms : List Meaning) : Meaning := .text ("".intercalate (ms.map written))

/-- The byte string of numbers in a row. -/
def joinedBytes (ms : List Meaning) : Meaning :=
  .scalar (.bytes (String.ofList (ms.map fun m ↦ Char.ofNat (m.integer?.getD 0).toNat)))

/-- What an index picks out of a meaning that is no type. -/
def itemOf (m i : Meaning) : Except HostFault Meaning :=
  let refusal (name type : String) : String :=
    name ++ " indices must be integers or slices, not " ++ type
  match m with
  | .list ms => picked ms .list (refusal "list") "list index out of range" i
  | .tuple ms => picked ms .tuple (refusal "tuple") "tuple index out of range" i
  | .text s => do
    picked (← (text s).elements) joinedTexts
      (fun type ↦ "string indices must be integers, not '" ++ type ++ "'")
      "string index out of range" i
  | .scalar (.bytes s) => do
    picked (← (scalar (.bytes s)).elements) joinedBytes (refusal "byte") "index out of range" i
  | .range a b c => rangeItem a b c i
  | .mapping es => do
    let key ← i.asKey
    match es.find? fun e ↦ equal key e.1 with
    | some e => return e.2
    | none => throw (.key key.shown)
  | m => .error (.typing ("'" ++ m.typeName ++ "' object is not subscriptable"))
where
  rangeItem (a b c : Int) (i : Meaning) : Except HostFault Meaning :=
    let count := rangeCount a b c
    match i, i.integer? with
    | .slice d e f, _ => do
      let (start, stop, step) ← sliceBounds count d e f
      return .range (a + c * start) (a + c * stop) (c * step)
    | _, some n =>
      let k := if n < 0 then n + count else n
      if 0 ≤ k ∧ k < count then .ok (.integer (a + c * k))
      else .error (.index "range object index out of range")
    | i, none =>
      .error (.typing ("range indices must be integers or slices, not " ++ i.typeName))

end Meaning

end RuleMarshal.Annotation
