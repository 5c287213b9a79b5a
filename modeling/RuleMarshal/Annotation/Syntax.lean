import RuleMarshal.Annotation.Token
import RuleMarshal.Function.ParameterKind
/-!
The terms that tokens of a written type make up. Operators bind by levels, from the choice between
two terms down to the sign of a number; a member, an index or arguments behind a term bind closest.
Reading is bounded by the number of tokens, since every term takes at least one.
-/

set_option autoImplicit false
set_option relaxedAutoImplicit false

namespace RuleMarshal.Annotation

/-- What the elements that clauses give make up. -/
inductive RowKind where
  | list | set | mapping | iterator
  deriving DecidableEq, Repr

/-- What a clause gives its elements to: a name, or the parts of a row, of which one may take all
that the others leave. -/
inductive Target where
  | name (s : String)
  | rest (t : Target)
  | row (items : List Target)
  deriving Inhabited

/-- A parameter of a function that is written out: its name and how it is taken. -/
abbrev WrittenParameter := String × ParameterKind

/-- A term of a written type. The arguments of a call, the elements of a row and the entries of a
mapping may be named, spread or paired terms, and rows may be made by clauses. The defaults of a
function are terms with the names of its parameters. -/
inductive Term where
  | name (s : String)
  | text (s : String)
  | pieces (ps : List Term)
  | filled (conversion : Option Char) (t : Term)
  | absent
  | ellipsis
  | scalar (s : Scalar)
  | member (t : Term) (name : String)
  | index (t : Term) (i : Term)
  | call (f : Term) (args : List Term)
  | tuple (items : List Term)
  | list (items : List Term)
  | set (items : List Term)
  | mapping (entries : List Term)
  | entry (key value : Term)
  | named (name : String) (t : Term)
  | spread (t : Term)
  | spreadNamed (t : Term)
  | binary (op : String) (a b : Term)
  | unary (op : String) (a : Term)
  | comparison (first : Term) (ops : List String) (others : List Term)
  | choice (test yes no : Term)
  | range (start stop step : Term)
  | function (params : List WrittenParameter) (defaults : List Term) (body : Term)
  | made (kind : RowKind) (element : Term) (clauses : List Term)
  | each (target : Target) (source : Term) (tests : List Term)
  | assign (name : String) (t : Term)
  deriving Inhabited

/-- Reading of tokens. -/
abbrev Reader (α : Type) := StateT (List Token) Option α

namespace Reader

/-- The next token, which is left in place. -/
def peek : Reader (Option Token) := do return (← get).head?

/-- Goes on behind the next token. -/
def skip : Reader Unit := modify List.tail

/-- Goes on behind the given token if it is next. -/
def accepts (t : Token) : Reader Bool := do
  if (← peek) = some t then
    skip
    return true
  else return false

/-- Goes on behind the given token, which has to be next. -/
def expect (t : Token) : Reader Unit := do
  if !(← accepts t) then failure

end Reader

open Reader

/-- The lowest level of operators: choices between two terms are above all of them. -/
def lowestLevel : Nat := 1

/-- The level of a negated truth value. -/
def negationLevel : Nat := 3

/-- The level of comparisons. -/
def comparisonLevel : Nat := 4

/-- The level of signs. -/
def signLevel : Nat := 11

/-- The operators of a level that a text may hold, of one token each. -/
def operatorsAt : Nat → List Token
  | 1 => [.keyword "or"]
  | 2 => [.keyword "and"]
  | 4 => [.keyword "in", .mark "<", .mark "<=", .mark ">", .mark ">=", .mark "==", .mark "!="]
  | 5 => [.mark "|"]
  | 6 => [.mark "^"]
  | 7 => [.mark "&"]
  | 8 => [.mark "<<", .mark ">>"]
  | 9 => [.mark "+", .mark "-"]
  | 10 => [.mark "*", .mark "@", .mark "/", .mark "//", .mark "%"]
  | _ => []

/-- How an operator is written. -/
def Token.written : Token → String
  | .name s | .keyword s | .text s | .bytes s | .mark s => s
  | .number n => n.shown
  | .pieces _ => ""
  | .lineEnd => "\n"

/-- The operator of a level that is next. -/
def operatorAt (level : Nat) : Reader (Option String) := do
  let next ← peek
  let found := (operatorsAt level).find? fun t ↦ next = some t
  match found with
  | some t =>
    skip
    return some t.written
  | none =>
    if level = comparisonLevel && next = some (.keyword "is") then
      skip
      return some (if ← accepts (.keyword "not") then "is not" else "is")
    else if level = comparisonLevel && (← get).take 2 = [.keyword "not", .keyword "in"] then
      skip
      skip
      return some "not in"
    else return none

/-- Byte strings that stand side by side are one. -/
def moreBytes : Nat → String → Reader String
  | 0, s => return s
  | fuel + 1, s => do
    match ← peek with
    | some (.bytes more) =>
      skip
      moreBytes fuel (s ++ more)
    | some (.text _) | some (.pieces _) => failure
    | _ => return s

/-- Goes on behind a name that may be given to something. -/
def givenName : Reader String := do
  match ← peek with
  | some (.name s) =>
    if s = "__debug__" then failure
    skip
    return s
  | _ => failure

/-- Goes on behind the name of a parameter, which is unlike those before it. -/
def parameterName (before : List WrittenParameter) : Reader String := do
  let s ← givenName
  if before.any (·.1 = s) then failure
  return s

/-- Goes on to the next parameter, or to the mark behind the last one. -/
def separated : Reader Unit := do
  if !(← accepts (.mark ",")) then
    if (← peek) ≠ some (.mark ":") then failure

/-- The parts of a row as a target, of which at most one takes what the others leave. -/
def rowOfTargets (items : List Target) : Reader Target := do
  let takers := items.filter fun
    | .rest _ => true
    | _ => false
  if 1 < takers.length then failure
  return .row items

/-- One target in brackets or without: itself, unless a comma makes it the part of a row. -/
def loneTarget : List Target × Bool → Reader Target
  | ([.rest _], false) => failure
  | ([t], false) => return t
  | (items, _) => rowOfTargets items

mutual

/-- A target of a clause. -/
def target : Nat → Reader Target
  | 0 => failure
  | fuel + 1 => do
    if ← accepts (.mark "*") then
      match ← target fuel with
      | .rest _ => failure
      | t => return .rest t
    else if ← accepts (.mark "(") then loneTarget (← targets fuel (.mark ")"))
    else if ← accepts (.mark "[") then do
      let (items, _) ← targets fuel (.mark "]")
      rowOfTargets items
    else .name <$> givenName

/-- Targets up to a closing token, and whether a comma follows the last of them. -/
def targets : Nat → Token → Reader (List Target × Bool)
  | 0, _ => failure
  | fuel + 1, close => do
    if ← accepts close then return ([], false)
    let first ← target fuel
    if ← accepts (.mark ",") then
      let (others, _) ← targets fuel close
      return (first :: others, true)
    else
      expect close
      return ([first], false)

end

/-- Texts as one term: a single text if nothing has to be filled in. -/
def joined (ts : List Term) : Term :=
  let texts := ts.filterMap fun
    | .text s => some s
    | _ => none
  if texts.length = ts.length then .text ("".intercalate texts) else .pieces ts

mutual

/-- A term. -/
def term : Nat → Reader Term
  | 0 => failure
  | fuel + 1 => do
    if ← accepts (.keyword "lambda") then
      let (params, defaults) ← parameters fuel [] []
      return .function params defaults (← term fuel)
    let yes ← operation fuel lowestLevel
    if ← accepts (.keyword "if") then
      let test ← operation fuel lowestLevel
      expect (.keyword "else")
      return .choice test yes (← term fuel)
    else return yes

/-- The parameters of a function that is written out and their defaults, behind those that were
read before, up to the mark in front of the body. Behind a parameter with a default that is taken by
position all such have one; a slash makes those before it be taken by position alone, and those
behind a star are taken by name alone. -/
def parameters : Nat → List WrittenParameter → List Term →
    Reader (List WrittenParameter × List Term)
  | 0, _, _ => failure
  | fuel + 1, before, defaults => do
    let named := before.any fun p ↦ !p.2.takesPosition
    if ← accepts (.mark ":") then return (before, defaults)
    else if ← accepts (.mark "/") then
      if before.isEmpty || before.any (·.2 ≠ .positional) then failure
      separated
      parameters fuel (before.map fun p ↦ (p.1, .positionalOnly)) defaults
    else if ← accepts (.mark "**") then
      let s ← parameterName before
      discard (accepts (.mark ","))
      expect (.mark ":")
      return (before ++ [(s, .keywordVariadic)], defaults)
    else if ← accepts (.mark "*") then
      if named then failure
      if ← accepts (.mark ",") then
        let s ← parameterName before
        parameterFrom fuel before defaults s .keywordOnly
      else
        let s ← parameterName before
        separated
        parameters fuel (before ++ [(s, .variadic)]) defaults
    else
      let s ← parameterName before
      parameterFrom fuel before defaults s (if named then .keywordOnly else .positional)

/-- The parameters from the given one on, its name being read. -/
def parameterFrom : Nat → List WrittenParameter → List Term → String → ParameterKind →
    Reader (List WrittenParameter × List Term)
  | 0, _, _, _, _ => failure
  | fuel + 1, before, defaults, s, kind => do
    let default ← if ← accepts (.mark "=") then some <$> term fuel else pure none
    if default.isNone && kind = .positional && !defaults.isEmpty then failure
    separated
    let given := default.toList.map fun t ↦ Term.named s t
    parameters fuel (before ++ [(s, kind)]) (defaults ++ given)

/-- A term of operators of a level or a higher one. -/
def operation : Nat → Nat → Reader Term
  | 0, _ => failure
  | fuel + 1, level => do
    if level = negationLevel then
      if ← accepts (.keyword "not") then return .unary "not" (← operation fuel level)
      else operation fuel (level + 1)
    else if signLevel ≤ level then signed fuel
    else if level = comparisonLevel then
      let first ← operation fuel (level + 1)
      let others ← comparisons fuel
      return if others.isEmpty then first
        else .comparison first (others.map (·.1)) (others.map (·.2))
    else operationFrom fuel level (← operation fuel (level + 1))

/-- A term of operators of a level whose first part was read. -/
def operationFrom : Nat → Nat → Term → Reader Term
  | 0, _, _ => failure
  | fuel + 1, level, left => do
    match ← operatorAt level with
    | some op => operationFrom fuel level (.binary op left (← operation fuel (level + 1)))
    | none => return left

/-- The comparisons that follow a term, which may be a chain. -/
def comparisons : Nat → Reader (List (String × Term))
  | 0 => failure
  | fuel + 1 => do
    match ← operatorAt comparisonLevel with
    | some op =>
      let right ← operation fuel (comparisonLevel + 1)
      return (op, right) :: (← comparisons fuel)
    | none => return []

/-- A term behind signs. -/
def signed : Nat → Reader Term
  | 0 => failure
  | fuel + 1 => do
    match ← peek with
    | some (.mark "-") =>
      skip
      return .unary "-" (← signed fuel)
    | some (.mark "+") =>
      skip
      return .unary "+" (← signed fuel)
    | some (.mark "~") =>
      skip
      return .unary "~" (← signed fuel)
    | _ =>
      let base ← behind fuel (← single fuel)
      if ← accepts (.mark "**") then return .binary "**" base (← signed fuel)
      else return base

/-- A term with its members, indices and arguments, the term itself being read. -/
def behind : Nat → Term → Reader Term
  | 0, _ => failure
  | fuel + 1, t => do
    match ← peek with
    | some (.mark ".") =>
      skip
      match ← peek with
      | some (.name s) =>
        skip
        behind fuel (.member t s)
      | _ => failure
    | some (.mark "[") =>
      skip
      let items ← elements fuel (.mark "]") true
      match items with
      | ([], _) => failure
      | ([.spread i], false) => behind fuel (.index t (.tuple [.spread i]))
      | ([i], false) => behind fuel (.index t i)
      | (items, _) => behind fuel (.index t (.tuple items))
    | some (.mark "(") =>
      skip
      let args ← arguments fuel false
      let names := args.filterMap fun
        | .named s _ => some s
        | _ => none
      if names.eraseDups.length < names.length then failure
      behind fuel (.call t args)
    | _ => return t

/-- A term that no operator splits. -/
def single : Nat → Reader Term
  | 0 => failure
  | fuel + 1 => do
    let next ← peek
    skip
    match next with
    | some (.name s) => return .name s
    | some (.keyword "None") => return .absent
    | some (.keyword "True") => return .scalar (.truth true)
    | some (.keyword "False") => return .scalar (.truth false)
    | some (.number n) => return .scalar n
    | some (.text s) => joined <$> moreText fuel [.text s]
    | some (.pieces ps) => do
      let first ← filledPieces fuel ps
      joined <$> moreText fuel first
    | some (.bytes s) => return .scalar (.bytes (← moreBytes fuel s))
    | some (.mark "...") => return .ellipsis
    | some (.mark "(") => do
      match ← elements fuel (.mark ")") false with
      | ([.spread _], false) => failure
      | ([t], false) => return t
      | (items, _) => return .tuple items
    | some (.mark "[") => do
      match ← elements fuel (.mark "]") false with
      | ([.made .iterator t clauses], false) => return .made .list t clauses
      | (items, _) => return .list items
    | some (.mark "\x7b") => do
      if ← accepts (.mark "\x7d") then return .mapping []
      let first ← entry fuel
      match first with
      | .entry .. | .spreadNamed _ =>
        let clauses ← clausesOf fuel
        if !clauses.isEmpty then
          expect (.mark "\x7d")
          return .made .mapping first clauses
        let more ← if ← accepts (.mark ",") then entries fuel else expect (.mark "\x7d") *> pure []
        return .mapping (first :: more)
      | first =>
        let clauses ← clausesOf fuel
        if !clauses.isEmpty then
          expect (.mark "\x7d")
          return .made .set first clauses
        let more ← if ← accepts (.mark ",") then (·.1) <$> elements fuel (.mark "\x7d") false
          else expect (.mark "\x7d") *> pure []
        return .set (first :: more)
    | _ => failure

/-- The texts that stand side by side with those before; texts and byte strings do not mix. -/
def moreText : Nat → List Term → Reader (List Term)
  | 0, ts => return ts
  | fuel + 1, ts => do
    match ← peek with
    | some (.text more) =>
      skip
      moreText fuel (ts ++ [.text more])
    | some (.pieces ps) =>
      skip
      moreText fuel (ts ++ (← filledPieces fuel ps))
    | some (.bytes _) => failure
    | _ => return ts

/-- The pieces of a text with what fills its holes. -/
def filledPieces : Nat → List Piece → Reader (List Term)
  | 0, _ => failure
  | _ + 1, [] => return []
  | fuel + 1, .characters s :: rest => do return .text s :: (← filledPieces fuel rest)
  | fuel + 1, .hole expression conversion :: rest => do
    let around ← get
    match tokens? ("(" ++ expression ++ ")") with
    | some tokens => set tokens
    | none => failure
    let inside ← single fuel
    if !(← get).isEmpty then failure
    set around
    return .filled conversion inside :: (← filledPieces fuel rest)

/-- An entry of a mapping or an element of a set. -/
def entry : Nat → Reader Term
  | 0 => failure
  | fuel + 1 => do
    if ← accepts (.mark "**") then return .spreadNamed (← operation fuel 5)
    let first ← item fuel false
    if ← accepts (.mark ":") then return .entry first (← term fuel) else return first

/-- The clauses behind an element, which run through rows. -/
def clausesOf : Nat → Reader (List Term)
  | 0 => failure
  | fuel + 1 => do
    if ← accepts (.keyword "for") then
      if (← peek) = some (.keyword "in") then failure
      let t ← loneTarget (← targets fuel (.keyword "in"))
      let source ← operation fuel lowestLevel
      let tests ← testsOf fuel
      return .each t source tests :: (← clausesOf fuel)
    else return []

/-- The tests of a clause. -/
def testsOf : Nat → Reader (List Term)
  | 0 => failure
  | fuel + 1 => do
    if ← accepts (.keyword "if") then
      let test ← operation fuel lowestLevel
      return test :: (← testsOf fuel)
    else return []

/-- One element of a row: a term, which may get a name, a spread of one, or inside an index a
range. -/
def item : Nat → Bool → Reader Term
  | 0, _ => failure
  | fuel + 1, asIndex => do
    if ← accepts (.mark "*") then
      return .spread (← if asIndex then term fuel else operation fuel 5)
    match (← get).take 2 with
    | [.name _, .mark ":="] =>
      let s ← givenName
      skip
      return .assign s (← term fuel)
    | _ =>
      if asIndex then
        let start ← bound fuel
        if ← accepts (.mark ":") then
          let stop ← bound fuel
          let step ← if ← accepts (.mark ":") then bound fuel else pure none
          return .range (start.getD .absent) (stop.getD .absent) (step.getD .absent)
        else
          match start with
          | some t => return t
          | none => failure
      else term fuel

/-- A bound of a range, if there is one. -/
def bound : Nat → Reader (Option Term)
  | 0 => failure
  | fuel + 1 => do
    match ← peek with
    | some (.mark "]") | some (.mark ",") | some (.mark ":") => return none
    | _ => some <$> term fuel

/-- The elements of a row up to its closing mark, and whether a comma follows the last of them. -/
def elements : Nat → Token → Bool → Reader (List Term × Bool)
  | 0, _, _ => failure
  | fuel + 1, close, asIndex => do
    if ← accepts close then return ([], false)
    let first ← item fuel asIndex
    let clauses ← if asIndex then pure [] else clausesOf fuel
    if !clauses.isEmpty then
      expect close
      return ([.made .iterator first clauses], false)
    if ← accepts (.mark ",") then
      if ← accepts close then return ([first], true)
      let (others, comma) ← elements fuel close asIndex
      return (first :: others, comma)
    else
      expect close
      return ([first], false)

/-- The further entries of a mapping. -/
def entries : Nat → Reader (List Term)
  | 0 => failure
  | fuel + 1 => do
    if ← accepts (.mark "\x7d") then return []
    let first ← entry fuel
    match first with
    | .entry .. | .spreadNamed _ =>
      if ← accepts (.mark ",") then return first :: (← entries fuel)
      expect (.mark "\x7d")
      return [first]
    | _ => failure

/-- The arguments of a call. No argument without a name follows one with a name. -/
def arguments : Nat → Bool → Reader (List Term)
  | 0, _ => failure
  | fuel + 1, behindNamed => do
    if ← accepts (.mark ")") then return []
    let first ←
      match (← get).take 2 with
      | [.name _, .mark "="] => do
        let s ← givenName
        skip
        .named s <$> term fuel
      | .mark "**" :: _ => do
        skip
        .spreadNamed <$> term fuel
      | .mark "*" :: _ => do
        skip
        .spread <$> term fuel
      | _ => if behindNamed then failure else item fuel false
    let clauses ← clausesOf fuel
    if !clauses.isEmpty then
      expect (.mark ")")
      return [.made .iterator first clauses]
    let named := match first with
      | .named .. | .spreadNamed _ => true
      | _ => behindNamed
    if ← accepts (.mark ",") then return first :: (← arguments fuel named)
    expect (.mark ")")
    return [first]

end

/-- Refuses a term that gets a name. -/
def unnamed : Reader Unit := do
  match (← get).take 2 with
  | [.name _, .mark ":="] => failure
  | _ => return

/-- Terms in a row without brackets are a tuple. -/
def row (fuel : Nat) : Reader Term := do
  unnamed
  let first ← item fuel false
  if ← accepts (.mark ",") then
    let rest ← others fuel
    return .tuple (first :: rest)
  else
    match first with
    | .spread _ => failure
    | t => return t
where
  others : Nat → Reader (List Term)
    | 0 => failure
    | fuel + 1 => do
      match ← peek with
      | none | some .lineEnd => return []
      | _ =>
        unnamed
        let first ← item fuel false
        if ← accepts (.mark ",") then return first :: (← others fuel) else return [first]

/-- The term that a written type is, if it can be read. A text that begins with a star is the single
element that the star spreads. -/
def read? (written : String) : Option Term := do
  let whole := if written.startsWith "*" then "(" ++ written ++ ",)[0]" else written
  let tokens ← tokens? whole
  let (t, rest) ← (row (24 * (tokens.length + 2))).run tokens
  if rest.all (· = .lineEnd) then some t else none

end RuleMarshal.Annotation
