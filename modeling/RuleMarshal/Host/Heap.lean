import RuleMarshal.Host.Value
/-!
The heap of the host program. A cell holds what a variable holds, a mapping, the attributes of an
object or a pending fact, and is known by its number. Making a cell leaves all others as they are
(`get?_alloc_of_lt`), and so does writing one (`get?_put_ne`). Named values keep their order; a
value that is put under a name is found there (`lookup_putNamed_self`), and what other names stand
for stays (`lookup_putNamed_ne`).
-/

set_option autoImplicit false
set_option relaxedAutoImplicit false

namespace RuleMarshal

/-- A fact that has not been asserted yet, or the fact that came of it. -/
structure Builder where
  template : TemplateHandle
  /-- Whether its values stand in order rather than in named slots. -/
  ordered : Bool
  values : List EngineValue := []
  slots : List (String × EngineValue) := []
  asserted : Option FactHandle := none

/-- A cell of the heap. -/
inductive Cell where
  | value (v : Value)
  | mapping (entries : List (Value × Value))
  | object (attrs : List (String × Value))
  | builder (b : Builder)

/-- The cells of a host program. -/
structure Heap where
  cells : Array Cell := #[]

namespace Heap

/-- The cell of a number. -/
def get? (heap : Heap) (id : Nat) : Option Cell := heap.cells[id]?

/-- A new cell and its number. -/
def alloc (heap : Heap) (cell : Cell) : Heap × Nat :=
  ({ cells := heap.cells.push cell }, heap.cells.size)

/-- Another content for a cell. -/
def put (heap : Heap) (id : Nat) (cell : Cell) : Heap :=
  { cells := heap.cells.setIfInBounds id cell }

@[simp] theorem get?_alloc_self (heap : Heap) (cell : Cell) :
    (heap.alloc cell).1.get? (heap.alloc cell).2 = some cell := by
  simp [get?, alloc]

theorem get?_alloc_of_lt (heap : Heap) (cell : Cell) {id : Nat} (h : id < heap.cells.size) :
    (heap.alloc cell).1.get? id = heap.get? id := by
  simp [get?, alloc, Array.getElem?_push_lt, h]

@[simp] theorem get?_put_self (heap : Heap) (cell : Cell) {id : Nat}
    (h : id < heap.cells.size) : (heap.put id cell).get? id = some cell := by
  simp [get?, put, h]

theorem get?_put_ne (heap : Heap) (cell : Cell) {id other : Nat} (h : id ≠ other) :
    (heap.put id cell).get? other = heap.get? other := by
  simp [get?, put, Array.getElem?_setIfInBounds_ne h]

/-- The attributes of an object. -/
def attrs (heap : Heap) (id : Nat) : List (String × Value) :=
  match heap.get? id with
  | some (.object attrs) => attrs
  | _ => []

/-- The entries of a mapping. -/
def entries (heap : Heap) (id : Nat) : List (Value × Value) :=
  match heap.get? id with
  | some (.mapping entries) => entries
  | _ => []

/-- What is held in a cell. -/
def heldIn (heap : Heap) (id : Nat) : Value :=
  match heap.get? id with
  | some (.value v) => v
  | _ => .none

/-- The pending fact in a cell. -/
def builder? (heap : Heap) (id : Nat) : Option Builder :=
  match heap.get? id with
  | some (.builder b) => some b
  | _ => none

end Heap

mutual

/-- A value with everything that is held inside it in its place, at most the given number of cells
deep. -/
def Value.settledWithin (heap : Heap) (depth : Nat) : Value → Value
  | .held id =>
    match depth with
    | 0 => .none
    | depth + 1 => (heap.heldIn id).settledWithin heap depth
  | .list items => .list (settledEach heap depth items)
  | .tuple items => .tuple (settledEach heap depth items)
  | v => v
termination_by v => (depth, sizeOf v)

/-- Values with everything that is held inside them in its place. -/
def settledEach (heap : Heap) (depth : Nat) : List Value → List Value
  | [] => []
  | v :: rest => v.settledWithin heap depth :: settledEach heap depth rest
termination_by vs => (depth, sizeOf vs)

end

namespace Heap

/-- What a value is, once everything that is held inside it is in its place. -/
def content (heap : Heap) (v : Value) : Value := v.settledWithin heap heap.cells.size

@[simp] theorem content_text (heap : Heap) (text : String) :
    heap.content (.text text) = .text text := by
  simp [content, Value.settledWithin]

@[simp] theorem content_object (heap : Heap) (struct : String) (id : Nat) :
    heap.content (.object struct id) = .object struct id := by
  simp [content, Value.settledWithin]

@[simp] theorem content_instanceHandle (heap : Heap) (h : InstanceHandle) :
    heap.content (.instanceHandle h) = .instanceHandle h := by
  simp [content, Value.settledWithin]

@[simp] theorem content_engine (heap : Heap) (v : EngineValue) :
    heap.content (.engine v) = .engine v := by
  simp [content, Value.settledWithin]

@[simp] theorem content_factHandle (heap : Heap) (h : FactHandle) :
    heap.content (.factHandle h) = .factHandle h := by
  simp [content, Value.settledWithin]

/-- What a value is, what is held inside it left as it is. -/
def opened (heap : Heap) : Value → Value
  | .held id => heap.heldIn id
  | v => v

end Heap

/-! ### Attributes and entries -/

/-- Another value for a name in a list of named values: in its place, else at the end. -/
def putNamed {α : Type} : List (String × α) → String → α → List (String × α)
  | [], name, v => [(name, v)]
  | p :: rest, name, v => if p.1 = name then (name, v) :: rest else p :: putNamed rest name v

@[simp] theorem lookup_putNamed_self {α : Type} (named : List (String × α)) (name : String)
    (v : α) : (putNamed named name v).lookup name = some v := by
  induction named with
  | nil => simp [putNamed]
  | cons p rest ih =>
    obtain ⟨key, held⟩ := p
    by_cases h : key = name
    · simp [putNamed, h]
    · have hne : (name == key) = false := by simpa using Ne.symm h
      simp [putNamed, h, List.lookup_cons, hne, ih]

theorem lookup_putNamed_ne {α : Type} (named : List (String × α)) {name other : String} (v : α)
    (h : other ≠ name) : (putNamed named name v).lookup other = named.lookup other := by
  have hne : (other == name) = false := by simpa using h
  induction named with
  | nil => simp [putNamed, List.lookup_cons, hne]
  | cons p rest ih =>
    obtain ⟨key, held⟩ := p
    by_cases h : key = name
    · simp [putNamed, h, List.lookup_cons, hne]
    · simp [putNamed, h, List.lookup_cons, ih]

/-- Whether a float and an integer are one number. -/
def Binary64.isInt (x : Binary64) (n : Int) : Bool := x.toInt? = some n

/-- Equality of scalars: texts of all types by their text, numbers of all types by number,
handles by what they name. -/
def Value.scalarEq : Value → Value → Bool
  | .none, .none => true
  | .float x, .float y => x.numericEq y
  | .external a, .external b => a = b
  | .engine v, .engine w => v.same w
  | .hint g, .hint h => g.same h
  | .instanceHandle a, .instanceHandle b => a.same b
  | .factHandle a, .factHandle b => a.same b
  | .templateHandle a, .templateHandle b => a.same b
  | .classHandle a, .classHandle b => a.same b
  | .templateSlot _ _ a, .templateSlot _ _ b => a = b
  | .classSlot _ _ a, .classSlot _ _ b => a = b
  | .environment, .environment => true
  | v, w =>
    match v.text?, w.text? with
    | some s, some t => s = t
    | Option.none, Option.none =>
      match v.integer?, w.integer? with
      | some m, some n => m = n
      | some m, Option.none =>
        match w with
        | .float y => y.isInt m
        | _ => false
      | Option.none, some n =>
        match v with
        | .float x => x.isInt n
        | _ => false
      | Option.none, Option.none => false
    | _, _ => false

/-- Another value for a key of a mapping: under the key as it is there, else at the end. -/
def putEntry : List (Value × Value) → Value → Value → List (Value × Value)
  | [], key, v => [(key, v)]
  | p :: rest, key, v => if p.1.scalarEq key then (p.1, v) :: rest else p :: putEntry rest key v

end RuleMarshal
