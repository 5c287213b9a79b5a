import RuleMarshal.Host.Heap
import RuleMarshal.Shape.Basic
/-!
When two host values are equal, when they are one and the same, and which values can be counted
in a set. Objects of a described type are equal only to themselves; all other objects are equal
when they are of one type and their fields are equal one by one.
-/

set_option autoImplicit false
set_option relaxedAutoImplicit false

namespace RuleMarshal

/-- How deep the host program can nest calls before it gives up. -/
def callLimit : Nat := 1000

/-- Whether a value of a kind is the same thing wherever it is made: the absent value, truth values,
small integers, texts of at most one narrow character, the empty tuple, types without arguments, and
whatever is known by its number. -/
def Value.isShared : Value → Bool
  | .none | .bool _ | .tuple [] => true
  | .int .unsized n => -5 ≤ n && n ≤ 256
  | .text s =>
    match s.toList with
    | [] => true
    | [c] => c.toNat < 256
    | _ => false
  | .hint (.atom _) | .hint (.union .word _) => true
  | .stranger .bytes => true
  | .held _ | .mapping _ | .object .. | .builder _ | .environment => true
  | .instanceHandle _ | .factHandle _ | .templateHandle _ | .classHandle _ => true
  | .templateSlot .. | .classSlot .. | .signature _ | .schema _ => true
  | _ => false

/-- Whether two values are one and the same thing. An environment has one schema for a type. -/
def Value.identical : Value → Value → Bool
  | .none, .none => true
  | .bool a, .bool b => a = b
  | .tuple [], .tuple [] => true
  | .held a, .held b => a = b
  | .mapping a, .mapping b => a = b
  | .object _ a, .object _ b => a = b
  | .builder a, .builder b => a = b
  | .instanceHandle a, .instanceHandle b => a = b
  | .factHandle a, .factHandle b => a = b
  | .templateHandle a, .templateHandle b => a = b
  | .classHandle a, .classHandle b => a = b
  | .templateSlot _ _ a, .templateSlot _ _ b => a = b
  | .classSlot _ _ a, .classSlot _ _ b => a = b
  | .signature a, .signature b => a.serial = b.serial
  | .schema a, .schema b => a.hostType.same b.hostType
  | .environment, .environment => true
  | .stranger .bytes, .stranger .bytes => true
  | .int t m, .int u n => (Value.int t m).isShared && t = u && m = n
  | .text s, .text t => (Value.text s).isShared && s = t
  | .hint (.atom a), .hint (.atom b) => a = b
  | .hint (.union .word as), .hint (.union .word bs) => Hint.sameEach as bs
  | .external a, .external b => a = b
  | _, _ => false

/-- Whether two hints that may be absent are the same. -/
def sameOptional : Option Hint → Option Hint → Bool
  | some g, some h => g.same h
  | none, none => true
  | _, _ => false

/-- Equality of signatures: everything that was read is the same. -/
def Signature.same (a b : Signature) : Bool :=
  a.name = b.name && Hint.sameEach a.params b.params && a.required = b.required &&
    sameOptional a.variadic b.variadic && a.returns.same b.returns &&
    a.errorTerminal = b.errorTerminal

/-- Equality of slots: everything about them is the same. -/
def SlotSchema.same (a b : SlotSchema) : Bool :=
  a.name = b.name && a.attr = b.attr && a.kind = b.kind && a.multi = b.multi &&
    a.optional = b.optional && a.hint.same b.hint &&
    a.reference.map (·.2) = b.reference.map (·.2) &&
    sameOptional (a.reference.map (·.1)) (b.reference.map (·.1))

/-- Equality of schemas: they are of one type and their slots are equal one by one. -/
def ClassSchema.same (a b : ClassSchema) : Bool :=
  a.name = b.name && a.hostType.same b.hostType && a.slots.length = b.slots.length &&
    (a.slots.zip b.slots).all fun p ↦ p.1.same p.2

/-- Whether two lists are equal one by one, with identical items equal. -/
def equalEach (equal : Value → Value → Except Error Bool) :
    List Value → List Value → Except Error Bool
  | [], [] => .ok true
  | v :: vs, w :: ws => do
    let same ← if v.identical w then pure true else equal v w
    if same then equalEach equal vs ws else return false
  | _, _ => .ok false

/-- What a mapping has under a key. -/
def entryFor (equal : Value → Value → Except Error Bool) (key : Value) :
    List (Value × Value) → Except Error (Option Value)
  | [] => .ok Option.none
  | p :: rest => do
    let same ← if p.1.identical key then pure true else equal p.1 key
    if same then return some p.2 else entryFor equal key rest

/-- Whether every entry of the first mapping has an equal one in the second. -/
def equalEntries (equal : Value → Value → Except Error Bool) :
    List (Value × Value) → List (Value × Value) → Except Error Bool
  | [], _ => .ok true
  | (k, v) :: rest, others => do
    match ← entryFor equal k others with
    | none => return false
    | some w => do
      let same ← if v.identical w then pure true else equal v w
      if same then equalEntries equal rest others else return false

/-- The values of the fields of an object; one that was never set cannot be read. -/
def TypeTable.readFields (table : TypeTable) (struct : String) (attrs : List (String × Value)) :
    Except Error (List Value) :=
  match table.find? struct with
  | some t => (table.declaredFields t).mapM fun f ↦
    match attrs.lookup f.attr with
    | some v => .ok v
    | none => .error (.host (.noAttribute
        ("'" ++ struct ++ "' object has no attribute '" ++ f.attr ++ "'")))
  | none => .ok []

/-- Whether two values are equal, looking at most the given number of containers deep. A thing is
equal to itself, but a float that is no number is not. -/
def Value.equalWithin (table : TypeTable) (heap : Heap) : Nat → Value → Value → Except Error Bool
  | 0, _, _ => .error (.host .recursion)
  | depth + 1, v, w =>
    match heap.opened v, heap.opened w with
    | .float x, .float y => .ok (x.numericEq y)
    | .list vs, .list ws =>
      if vs.length = ws.length then equalEach (equalWithin table heap depth) vs ws else .ok false
    | .tuple vs, .tuple ws =>
      if vs.length = ws.length then equalEach (equalWithin table heap depth) vs ws else .ok false
    | .mapping a, .mapping b =>
      if (heap.entries a).length = (heap.entries b).length then
        equalEntries (equalWithin table heap depth) (heap.entries a) (heap.entries b)
      else .ok false
    | .object s a, .object t b =>
      if s ≠ t then .ok false
      else
        match (table.find? s).map table.kindOf with
        | some .annotated => do
          let vs ← table.readFields s (heap.attrs a)
          let ws ← table.readFields t (heap.attrs b)
          if a = b then return true else equalEach (equalWithin table heap depth) vs ws
        | some .model =>
          let vs := heap.attrs a
          let ws := heap.attrs b
          if a = b then .ok true
          else if vs.length = ws.length then
            equalEntries (equalWithin table heap depth) (vs.map fun p ↦ (.text p.1, p.2))
              (ws.map fun p ↦ (.text p.1, p.2))
          else .ok false
        | _ => .ok (a = b)
    | .exception .., .exception .. | .function _, .function _ | .stranger .object, .stranger .object
    | .stranger .bare, .stranger .bare | .engine .bare, .engine .bare
    | .engine (.externalAddress _), .engine (.externalAddress _) => .ok (v.identical w)
    | .builder a, .builder b => .ok (a = b)
    | .stranger k, .stranger l => .ok (k = l)
    | .engine a, .engine b => .ok (v.identical w || a.same b)
    | .signature a, .signature b => .ok (a.same b)
    | .schema a, .schema b => .ok (a.same b)
    | a, b => .ok (a.scalarEq b)

/-- Whether two values are equal. -/
def Value.equal (table : TypeTable) (heap : Heap) (v w : Value) : Except Error Bool :=
  v.equalWithin table heap callLimit w

/-! ### Counting values -/

/-- The failure of counting a value that cannot be counted in a set. -/
def Value.unhashable (v : Value) : Error :=
  .host (.typing ("unhashable type: '" ++ v.typeName ++ "'"))

mutual

/-- Refuses a value that cannot be counted in a set, looking at most the given number of objects
deep. An object that cannot be changed can be counted if its fields can. -/
def Value.countableWithin (table : TypeTable) (heap : Heap) (depth : Nat) :
    Value → Except Error Unit
  | .held id =>
    match depth with
    | 0 => .error (.host .recursion)
    | depth + 1 => (heap.heldIn id).countableWithin table heap depth
  | .tuple items => eachCountable table heap depth items
  | .object struct id =>
    match table.find? struct with
    | none => .ok ()
    | some t =>
      if table.kindOf t ≠ .annotated && table.kindOf t ≠ .model then .ok ()
      else if !table.isFrozen t then .error (Value.object struct id).unhashable
      else
        match depth with
        | 0 => .error (.host .recursion)
        | depth + 1 =>
          if table.kindOf t = .model then
            eachCountable table heap depth ((heap.attrs id).map (·.2))
          else
            match table.readFields struct (heap.attrs id) with
            | .ok fields => eachCountable table heap depth fields
            | .error e => .error e
  | .list items => .error (Value.list items).unhashable
  | .mapping id => .error (Value.mapping id).unhashable
  | .stranger .set => .error (Value.stranger .set).unhashable
  | _ => .ok ()
termination_by v => (depth, sizeOf v)

/-- Refuses values of which one cannot be counted in a set. -/
def eachCountable (table : TypeTable) (heap : Heap) (depth : Nat) :
    List Value → Except Error Unit
  | [] => .ok ()
  | v :: rest => do
    v.countableWithin table heap depth
    eachCountable table heap depth rest
termination_by vs => (depth, sizeOf vs)

end

/-- Refuses a value that cannot be counted in a set. -/
def Value.countable (table : TypeTable) (heap : Heap) (v : Value) : Except Error Unit :=
  v.countableWithin table heap callLimit

/-- The values without those that are equal to an earlier one. -/
def distinctValues (table : TypeTable) (heap : Heap) (values : List Value) :
    Except Error (List Value) :=
  values.foldlM (fun kept v ↦ do
    v.countable table heap
    let known ← kept.anyM fun w ↦ if w.identical v then pure true else w.equal table heap v
    return if known then kept else kept ++ [v]) []

/-- Another value for a key among entries: under the key as it is there, else at the end. -/
def putEqual (equal : Value → Value → Except Error Bool) :
    List (Value × Value) → Value → Value → Except Error (List (Value × Value))
  | [], key, v => .ok [(key, v)]
  | p :: rest, key, v => do
    let same ← if p.1.identical key then pure true else equal p.1 key
    if same then return (p.1, v) :: rest
    else return p :: (← putEqual equal rest key v)

end RuleMarshal
