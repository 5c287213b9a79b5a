import RuleMarshal.Convert.Encode
import RuleMarshal.Environment.State
/-!
Reading literals: how an expression for a host value becomes the value. Lists and tuples are read
from left to right. An object exists, under its label, before its fields are read, so that a field
may refer to the object itself; fields that are not given take their defaults.
-/

set_option autoImplicit false
set_option relaxedAutoImplicit false

namespace RuleMarshal

open MonadExcept (ofExcept)

namespace EngineValue

/-- The engine's integer for a value that has to be an integer and no truth value. -/
def ofIntegerPayload : Value → Except Error EngineValue
  | .int _ n => EngineValue.ofInt n
  | v => .error (.unsupported (.integerPayload v.typeName))

end EngineValue

/-- The item of a row at a position, counted from the end if it is negative. -/
def itemAt (row : String) (items : List Value) (position : Int) : Except Error Value :=
  let i := if position < 0 then position + items.length else position
  match if 0 ≤ i then items[i.toNat]? else Option.none with
  | some v => .ok v
  | Option.none => .error (.host (.index (row ++ " index out of range")))

/-- A value as a key of a mapping. A text is the key that it spells, also where something holds it:
the names of slots, which are texts, find the key again. -/
def Heap.asKey (heap : Heap) (v : Value) : Value :=
  if (heap.opened v).text?.isSome then heap.opened v else v

namespace Act

/-- An item of a value: of a row by position, of a mapping by key, of a text the character. -/
def itemOf (v : Value) (position : Int) : Act Value := do
  let heap := (← get).heap
  match heap.opened v with
  | .list items => ofExcept (itemAt "list" items position)
  | .tuple items => ofExcept (itemAt "tuple" items position)
  | .text s | .symbol s | .instanceName s =>
    let characters := s.toList.map fun c ↦ Value.text (String.singleton c)
    ofExcept (itemAt "string" characters position)
  | .mapping id => do
    let key := Value.int .unsized position
    match ← ofExcept (entryFor (Value.equal (← read).types heap) key (heap.entries id)) with
    | some v => return v
    | none => throw (.host (.key (toString position)))
  | v => throw (.host (.typing ("'" ++ v.typeName ++ "' object is not subscriptable")))

/-- What a variable holds, or an item of it. A variable that was never set holds nothing. -/
def valueOf (name : String) (item : Option Int) : Act Value := do
  match (← get).named.lookup name, item with
  | none, _ => throw (.host (.unbound name))
  | some v, none => return v
  | some v, some i => itemOf v i

mutual

/-- A value that something holds: unless it is the same thing wherever it is made, it gets a cell of
its own, and so does every item of a row. -/
def hold : Value → Act Value
  | .list items => do return .held (← alloc (.value (.list (← holdEach items))))
  | .tuple [] => return .tuple []
  | .tuple (v :: rest) => do
    let first ← hold v
    let others ← holdEach rest
    return .held (← alloc (.value (.tuple (first :: others))))
  | v => if v.isShared then return v else return .held (← alloc (.value v))

/-- Values that something holds. -/
def holdEach : List Value → Act (List Value)
  | [] => return []
  | v :: rest => do
    let first ← hold v
    let others ← holdEach rest
    return first :: others

end

/-- Gives a name to a value. -/
def remember (name : String) (v : Value) : Act Unit := do
  let held ← hold v
  modify fun s ↦ { s with named := putNamed s.named name held }

/-- Another value for an attribute of an object. -/
def assign (object : Value) (attr : String) (v : Value) : Act Unit := do
  match object with
  | .object _ id => put id (.object (putNamed ((← get).heap.attrs id) attr v))
  | _ => return ()

end Act

mutual

/-- The value of a literal, with defaults of fields built at most the given number deep. -/
def Literal.readWithin (depth : Nat) : Literal → Act Value
  | .none => return .none
  | .bool b => return .bool b
  | .int t n => return .int t n
  | .float x => return .float x
  | .text s => return .text s
  | .symbol s => return .symbol s
  | .instanceName s => return .instanceName s
  | .list items => do return .list (← readEach depth items)
  | .tuple items => do return .tuple (← readEach depth items)
  | .mapping entries => do return .mapping (← Act.alloc (.mapping (← readEntries depth entries [])))
  | .engine v => do return .engine (← v.readWithin depth)
  | .object struct label fields => do
    let id ← Act.alloc (.object [])
    let object := Value.object struct id
    if let some label := label then
      modify fun s ↦ { s with labels := putNamed s.labels label object }
    let given ← readFields depth fields
    given.forM fun p ↦ Act.assign object p.1 p.2
    let table := (← read).types
    match table.find? struct with
    | none => throw (.host (.key struct))
    | some t => do
      (table.declaredFields t).forM fun f ↦ do
        if !given.any (·.1 = f.attr) then
          match f.initial? (table.kindOf t), depth with
          | some (.anew built), depth + 1 => Act.assign object f.attr (← built.readWithin depth)
          | some (.anew _), 0 => throw (.host .recursion)
          | some (.shared v), _ => Act.assign object f.attr v
          | none, _ => return ()
      return object
  | .again label => do
    match (← get).labels.lookup label with
    | some v => return v
    | none => throw (.host (.key label))
  | .hint .none => return .none
  | .hint (.forward written) => return .text written
  | .hint h => return .hint h
  | .exception kind text => return .exception kind text
  | .external label => return .external label
  | .stranger kind => return .stranger kind
  | .instanceHandle name => return .instanceHandle ⟨name, 0, 0⟩
  | .factHandle index => return .factHandle ⟨index, 0, 0⟩
  | .var name item => Act.valueOf name item
  | .fault f => throw (.host f)
  | .function f => return .function f
termination_by l => (depth, sizeOf l)

/-- The engine value of a literal. -/
def EngineLiteral.readWithin (depth : Nat) : EngineLiteral → Act EngineValue
  | .integer content => do
    ofExcept (EngineValue.ofIntegerPayload (← content.readWithin depth))
  | .float x => return .float x
  | .string s => return .string s
  | .symbol s => return .symbol s
  | .instanceName s => return .instanceName s
  | .multifield items => do return .multifield (← readEngineEach depth items)
  | .instanceAddress name => return .instanceAddress ⟨name, 0, 0⟩
  | .factAddress index => return .factAddress ⟨index, 0, 0⟩
  | .externalAddress label => return .externalAddress label
  | .bare => return .bare
termination_by l => (depth, sizeOf l)

/-- The values of literals in order. -/
def readEach (depth : Nat) : List Literal → Act (List Value)
  | [] => return []
  | l :: rest => do
    let first ← l.readWithin depth
    let others ← readEach depth rest
    return first :: others
termination_by ls => (depth, sizeOf ls)

/-- The engine values of literals in order. -/
def readEngineEach (depth : Nat) : List EngineLiteral → Act (List EngineValue)
  | [] => return []
  | l :: rest => do
    let first ← l.readWithin depth
    let others ← readEngineEach depth rest
    return first :: others
termination_by ls => (depth, sizeOf ls)

/-- The entries of a mapping behind those that were read before. -/
def readEntries (depth : Nat) :
    List (Literal × Literal) → List (Value × Value) → Act (List (Value × Value))
  | [], entries => return entries
  | (k, v) :: rest, entries => do
    let key ← k.readWithin depth
    let value ← v.readWithin depth
    let heap := (← get).heap
    let table := (← read).types
    ofExcept (key.countable table heap)
    readEntries depth rest
      (← ofExcept (putEqual (Value.equal table heap) entries (heap.asKey key) value))
termination_by ls => (depth, sizeOf ls)

/-- The values of named literals in order. -/
def readFields (depth : Nat) : List (String × Literal) → Act (List (String × Value))
  | [] => return []
  | (name, l) :: rest => do
    let first ← l.readWithin depth
    let others ← readFields depth rest
    return (name, first) :: others
termination_by ls => (depth, sizeOf ls)

end

/-- The value of a literal. -/
def Literal.read (l : Literal) : Act Value := l.readWithin callLimit

end RuleMarshal
