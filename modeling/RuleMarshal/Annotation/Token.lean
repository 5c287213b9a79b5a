import RuleMarshal.Annotation.Scalar
import RuleMarshal.Text.Name
import RuleMarshal.Text.NormalForm
/-!
The tokens of a written type. A type is written as an expression of one line; inside brackets it may
go on over several. Numbers are read to their value, texts to their characters, names to their
normal form. A text that holds anything else has no tokens at all.
-/

set_option autoImplicit false
set_option relaxedAutoImplicit false

namespace RuleMarshal.Annotation

/-- A piece of a text with holes: characters, or a hole with the expression that fills it and the
letter that says how the value is written. -/
inductive Piece where
  | characters (s : String)
  | hole (expression : String) (conversion : Option Char)
  deriving DecidableEq, Repr

/-- A token of a written type. -/
inductive Token where
  | name (s : String)
  | keyword (s : String)
  | number (s : Scalar)
  | text (s : String)
  | pieces (ps : List Piece)
  | bytes (s : String)
  | mark (s : String)
  | lineEnd
  deriving DecidableEq, Repr

/-! ### Characters and words -/

/-- Characters that words are made of: ASCII letters and digits, low lines, and everything that is
not ASCII. -/
def isWordPart (c : Char) : Bool := c.isAlphanum || c = '_' || 0x80 ≤ c.toNat

/-- Words that cannot be names. -/
def keywords : List String :=
  ["False", "None", "True", "and", "as", "assert", "async", "await", "break", "class", "continue",
    "def", "del", "elif", "else", "except", "finally", "for", "from", "global", "if", "import",
    "in", "is", "lambda", "nonlocal", "not", "or", "pass", "raise", "return", "try", "while",
    "with", "yield"]

/-- Words that may follow a number without a blank between. -/
def wordsBehindNumbers : List String := ["and", "else", "for", "if", "in", "is", "not", "or"]

/-- A word as a token, if it is one. Names are told apart by their normal form, in which a name may
be spelled as a keyword is. -/
def ofWord? (cs : List Char) : Option Token :=
  let s := String.ofList cs
  if keywords.contains s then some (.keyword s)
  else if Text.isName cs then some (.name (Text.normalForm s))
  else none

/-- Marks, the longer ones first. -/
def marks : List String :=
  ["**=", "//=", ">>=", "<<=", "...", "!=", "->", ":=", "**", "//", "<<", ">>", "<=", ">=", "==",
    "+=", "-=", "*=", "/=", "%=", "&=", "|=", "^=", "@=", "+", "-", "*", "/", "%", "@", "&", "|",
    "^", "~", "<", ">", "(", ")", "[", "]", ",", ":", ".", ";", "=", "\x7b", "\x7d"]

/-- The mark that a text begins with, and what is behind it. -/
def markIn? (cs : List Char) : Option (String × List Char) :=
  (marks.find? fun m ↦ m.toList.isPrefixOf cs).map fun m ↦ (m, cs.drop m.length)

/-! ### Numbers -/

/-- The value of a digit. -/
def digitValue (c : Char) : Nat :=
  if c.isDigit then c.toNat - '0'.toNat
  else if 'a' ≤ c ∧ c ≤ 'f' then c.toNat - 'a'.toNat + 10
  else if 'A' ≤ c ∧ c ≤ 'F' then c.toNat - 'A'.toNat + 10
  else 36

/-- The digits of a base that a text begins with, single low lines between them left out. -/
def digitsOf (base : Nat) : List Char → List Char × List Char
  | c :: '_' :: d :: rest =>
    if digitValue c < base then
      if digitValue d < base then
        let (others, behind) := digitsOf base (d :: rest)
        (c :: others, behind)
      else ([c], '_' :: d :: rest)
    else ([], c :: '_' :: d :: rest)
  | c :: rest =>
    if digitValue c < base then
      let (others, behind) := digitsOf base rest
      (c :: others, behind)
    else ([], c :: rest)
  | [] => ([], [])

/-- The number that digits of a base write. -/
def valueOf (base : Nat) (digits : List Char) : Nat :=
  digits.foldl (fun n c ↦ n * base + digitValue c) 0

/-- The exponent that a text begins with, and what is behind it. -/
def exponentIn? (cs : List Char) : Option (List Char × List Char) :=
  match cs with
  | c :: rest =>
    if c = 'e' ∨ c = 'E' then
      let (sign, digits) := match rest with
        | '+' :: more => ([], more)
        | '-' :: more => (['-'], more)
        | more => ([], more)
      match digitsOf 10 digits with
      | ([], _) => none
      | (ds, behind) => some ('e' :: sign ++ ds, behind)
    else none
  | [] => none

/-- An integer of a base other than ten. -/
def basedNumber? (base : Nat) (cs : List Char) : Option (Scalar × List Char) :=
  let cs := match cs with
    | '_' :: rest => rest
    | cs => cs
  match digitsOf base cs with
  | ([], _) => none
  | (digits, behind) => some (.integer (valueOf base digits), behind)

/-- A number of base ten: an integer without a zero in front, a float, or an imaginary number. -/
def decimalNumber? (cs : List Char) : Option (Scalar × List Char) :=
  let (whole, behind) := digitsOf 10 cs
  let (fraction, behind) : Option (List Char) × List Char := match behind with
    | '.' :: rest =>
      let (ds, more) := digitsOf 10 rest
      (some ds, more)
    | more => (none, more)
  let (power, behind) : Option (List Char) × List Char := match exponentIn? behind with
    | some (e, more) => (some e, more)
    | none => (none, behind)
  let value : Option Binary64 :=
    Binary64.ofText? (String.ofList ((if whole.isEmpty then ['0'] else whole) ++ '.' ::
      (if (fraction.getD []).isEmpty then ['0'] else fraction.getD []) ++ power.getD []))
  let number : Option Scalar :=
    if fraction.isNone && power.isNone then
      if whole.head? = some '0' && valueOf 10 whole ≠ 0 then none
      else some (.integer (valueOf 10 whole))
    else value.map .float
  match behind with
  | c :: rest =>
    if c = 'j' ∨ c = 'J' then value.map fun x ↦ (.complex .zero x, rest)
    else number.map (·, behind)
  | [] => number.map (·, behind)

/-- The number that a text begins with. No letter may stand right behind it, but some words may. -/
def numberIn? (cs : List Char) : Option (Scalar × List Char) := do
  let found ← match cs with
    | '0' :: 'x' :: rest | '0' :: 'X' :: rest => basedNumber? 16 rest
    | '0' :: 'o' :: rest | '0' :: 'O' :: rest => basedNumber? 8 rest
    | '0' :: 'b' :: rest | '0' :: 'B' :: rest => basedNumber? 2 rest
    | cs => decimalNumber? cs
  let word := String.ofList (found.2.takeWhile isWordPart)
  if word.isEmpty || wordsBehindNumbers.contains word then some found else none

/-! ### Texts -/

/-- How a text between quotes is read. -/
structure Quoting where
  quote : Char
  /-- Whether three quotes stand at each end, so that the text may go over several lines. -/
  triple : Bool
  raw : Bool
  bytes : Bool

/-- The character of a number given by hexadecimal digits, with what is behind them. -/
def hexCharacter? (width : Nat) (cs : List Char) : Option (Char × List Char) :=
  let digits := cs.take width
  if digits.length = width && digits.all fun c ↦ digitValue c < 16 then
    some (Char.ofNat (valueOf 16 digits), cs.drop width)
  else none

/-- The character of a number given by up to three octal digits. -/
def octalCharacter (cs : List Char) : Char × List Char :=
  let digits := (cs.take 3).takeWhile fun c ↦ digitValue c < 8
  (Char.ofNat (valueOf 8 digits), cs.drop digits.length)

/-- What stands behind a backslash: characters, and what is behind them. A backslash that stands
for nothing special is kept. -/
def escaped? (q : Quoting) (c : Char) (rest : List Char) : Option (List Char × List Char) :=
  let wide := !q.bytes
  match c with
  | '\n' => some ([], rest)
  | '\\' | '\'' | '"' => some ([c], rest)
  | 'a' => some (['\x07'], rest)
  | 'b' => some (['\x08'], rest)
  | 'f' => some (['\x0c'], rest)
  | 'n' => some (['\n'], rest)
  | 'r' => some (['\r'], rest)
  | 't' => some (['\t'], rest)
  | 'v' => some (['\x0b'], rest)
  | 'x' => (hexCharacter? 2 rest).map fun p ↦ ([p.1], p.2)
  | 'u' => if wide then (hexCharacter? 4 rest).map fun p ↦ ([p.1], p.2) else some (['\\', c], rest)
  | 'U' => if wide then (hexCharacter? 8 rest).map fun p ↦ ([p.1], p.2) else some (['\\', c], rest)
  | 'N' => if wide then none else some (['\\', c], rest)
  | c =>
    if digitValue c < 8 then
      let (d, behind) := octalCharacter (c :: rest)
      some ([d], behind)
    else some (['\\', c], rest)

/-- The characters up to the closing quotes, and what is behind those, reading at most the given
number of characters. -/
def quotedWithin (q : Quoting) : Nat → List Char → Option (List Char × List Char)
  | 0, _ => none
  | _ + 1, [] => none
  | fuel + 1, '\\' :: c :: rest =>
    if q.raw then do
      let (others, behind) ← quotedWithin q fuel rest
      return ('\\' :: c :: others, behind)
    else do
      let (here, rest) ← escaped? q c rest
      let (others, behind) ← quotedWithin q fuel rest
      return (here ++ others, behind)
  | fuel + 1, c :: rest =>
    let closes := if q.triple then [q.quote, q.quote, q.quote].isPrefixOf (c :: rest)
      else c = q.quote
    if closes then some ([], rest.drop (if q.triple then 2 else 0))
    else if (c = '\n' && !q.triple) || (q.bytes && 0x80 ≤ c.toNat) then none
    else do
      let (others, behind) ← quotedWithin q fuel rest
      return (c :: others, behind)

/-- The expression of a hole up to what ends it at the depth of the hole, reading at most the given
number of characters. -/
def holeWithin : Nat → Nat → List Char → Option (List Char × List Char)
  | 0, _, _ => none
  | _ + 1, _, [] => none
  | fuel + 1, depth, c :: rest =>
    if depth = 0 ∧ (c = '\x7d' ∨ c = ':' ∨ (c = '!' ∧ rest.head? ≠ some '=')) then
      some ([], c :: rest)
    else
      let depth := if ['(', '[', '\x7b'].contains c then depth + 1
        else if [')', ']', '\x7d'].contains c then depth - 1 else depth
      (holeWithin fuel depth rest).map fun p ↦ (c :: p.1, p.2)

/-- The pieces of a text with holes, reading at most the given number of characters. A brace that
stands for itself is written twice; how a value is laid out cannot be said. -/
def piecesWithin : Nat → List Char → Option (List Piece)
  | 0, _ => none
  | _ + 1, [] => some []
  | fuel + 1, '\x7b' :: '\x7b' :: rest =>
    (.characters "\x7b" :: ·) <$> piecesWithin fuel rest
  | fuel + 1, '\x7d' :: '\x7d' :: rest =>
    (.characters "\x7d" :: ·) <$> piecesWithin fuel rest
  | fuel + 1, '\x7b' :: rest => do
    let (expression, behind) ← holeWithin (rest.length + 1) 0 rest
    let (conversion, behind) ← match behind with
      | '!' :: c :: more => if ['r', 's', 'a'].contains c then some (some c, more) else none
      | more => some (none, more)
    match behind with
    | '\x7d' :: more =>
      (.hole (String.ofList expression) conversion :: ·) <$> piecesWithin fuel more
    | _ => none
  | fuel + 1, c :: rest =>
    if c = '\x7d' then none
    else (.characters (String.ofList [c]) :: ·) <$> piecesWithin fuel rest

/-- The text that begins with a quote, read as the letters in front of it say. -/
def quoted? (letters : List Char) (cs : List Char) : Option (Token × List Char) := do
  let (quote, inside) ← match cs with
    | c :: rest => if c = '"' ∨ c = '\'' then some (c, rest) else none
    | [] => none
  let triple := [quote, quote].isPrefixOf inside
  let q : Quoting :=
    { quote, triple, raw := letters.contains 'r', bytes := letters.contains 'b' }
  let (content, behind) ← quotedWithin q (cs.length + 1) (if triple then inside.drop 2 else inside)
  if letters.contains 'f' then
    (piecesWithin (content.length + 1) content).map fun ps ↦ (.pieces ps, behind)
  else
    let s := String.ofList content
    some (if q.bytes then .bytes s else .text s, behind)

/-- The letters that may stand in front of a quote. -/
def quoteLetters : List String := ["", "r", "u", "b", "f", "br", "rb", "fr", "rf"]

/-! ### All tokens -/

/-- The tokens of a text at a depth of brackets, reading at most the given number of them. -/
def tokensWithin : Nat → Nat → List Char → Option (List Token)
  | 0, _, _ => none
  | _ + 1, depth, [] => if depth = 0 then some [] else none
  | fuel + 1, depth, c :: rest =>
    if c = ' ' ∨ c = '\t' ∨ c = '\x0c' then tokensWithin fuel depth rest
    else if c = '\n' ∨ c = '\r' then
      if depth = 0 then (Token.lineEnd :: ·) <$> tokensWithin fuel depth rest
      else tokensWithin fuel depth rest
    else if c = '#' then tokensWithin fuel depth (rest.dropWhile (· ≠ '\n'))
    else if c = '\\' then
      match rest with
      | '\n' :: d :: more => tokensWithin fuel depth (d :: more)
      | _ => none
    else if isWordPart c && !c.isDigit then
      let word := (c :: rest).takeWhile isWordPart
      let behind := (c :: rest).dropWhile isWordPart
      let letters := word.map Char.toLower
      if quoteLetters.contains (String.ofList letters) &&
          (behind.head? = some '"' || behind.head? = some '\'') then do
        let (token, more) ← quoted? letters behind
        return token :: (← tokensWithin fuel depth more)
      else do
        let token ← ofWord? word
        return token :: (← tokensWithin fuel depth behind)
    else if c.isDigit || (c = '.' && (rest.head?.map Char.isDigit).getD false) then do
      let (d, more) ← numberIn? (c :: rest)
      return .number d :: (← tokensWithin fuel depth more)
    else if c = '"' ∨ c = '\'' then do
      let (token, more) ← quoted? [] (c :: rest)
      return token :: (← tokensWithin fuel depth more)
    else do
      let (m, more) ← markIn? (c :: rest)
      let depth ← if ["(", "[", "\x7b"].contains m then some (depth + 1)
        else if [")", "]", "\x7d"].contains m then
          if depth = 0 then none else some (depth - 1)
        else some depth
      return .mark m :: (← tokensWithin fuel depth more)

/-- Whether the first line that holds anything begins with a blank. -/
def isIndented (cs : List Char) : Bool :=
  let blanks := cs.takeWhile fun c ↦ c = ' ' ∨ c = '\t' ∨ c = '\x0c'
  let behind := cs.drop blanks.length
  let column := (blanks.reverse.takeWhile fun c ↦ c ≠ '\x0c').length
  match behind with
  | [] => false
  | c :: _ => 0 < column && c ≠ '\n' && c ≠ '#'

/-- The tokens of a written type. -/
def tokens? (written : String) : Option (List Token) :=
  let cs := written.toList
  if isIndented (cs.dropWhile (· = '\n')) then none
  else (tokensWithin (cs.length + 1) 0 cs).map fun ts ↦ ts.dropWhile (· = .lineEnd)

end RuleMarshal.Annotation
