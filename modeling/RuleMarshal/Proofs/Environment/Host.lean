import RuleMarshal.Environment.Extraction
import RuleMarshal.Environment.Insertion
import RuleMarshal.Proofs.Convert.Resolution
import RuleMarshal.Proofs.Handle.Inquiry
/-!
What the host program does by itself. Reading literals, holding and naming values, filling objects
and mappings change the heap, the names and the notes of an extraction, and nothing else: they keep
every relation that leaves these free (`LeavesHostFree`).
-/

set_option autoImplicit false
set_option relaxedAutoImplicit false

namespace RuleMarshal

open Act

/-- A relation that leaves free what belongs to the host program alone. No cell of a heap is ever
dropped. -/
def LeavesHostFree (R : State → State → Prop) : Prop :=
  ∀ s heap readings named labels visited, s.heap.cells.size ≤ heap.cells.size →
    R s { s with
          heap := heap, readings := readings, named := named, labels := labels,
          visited := visited }

variable {world : World} {R : State → State → Prop}

section

variable (hfree : LeavesHostFree R)
include hfree

/-! ### Cells and names -/

theorem keeps_alloc (cell : Cell) : (alloc cell).Keeps R world :=
  fun s ↦ hfree s _ s.readings s.named s.labels s.visited (by simp)

theorem keeps_put (id : Nat) (cell : Cell) : (put id cell).Keeps R world :=
  fun s ↦ hfree s _ s.readings s.named s.labels s.visited (by simp [Heap.put])

variable [IsPreorder State R]

theorem keeps_assign (object : Value) (attr : String) (v : Value) :
    (assign object attr v).Keeps R world := by
  unfold assign
  cases object <;> first | exact .pure _ | exact .bind .get fun _ ↦ keeps_put hfree _ _

end

/-! ### Building -/

/-- A relation that is kept by making cells and by filling objects in cells of one's own. -/
structure Building (world : World) (R : State → State → Prop) (own : Nat → Prop) : Prop where
  labels : ∀ (s : State) label object, R s { s with labels := putNamed s.labels label object }
  alloc : ∀ {α : Type} (cell : Cell) {next : Nat → Act α},
    (∀ id, own id → (next id).Keeps R world) → (Act.alloc cell >>= next).Keeps R world
  fill : ∀ {id : Nat}, own id → ∀ attrs, (put id (.object attrs)).Keeps R world

section

variable [IsPreorder State R]

/-- What leaves the host program free takes every cell for one's own. -/
theorem LeavesHostFree.building (hfree : LeavesHostFree R) : Building world R fun _ ↦ True where
  labels s _ _ := hfree s s.heap s.readings s.named _ s.visited (Nat.le_refl _)
  alloc cell _ hnext := (keeps_alloc hfree cell).bind fun id ↦ hnext id trivial
  fill _ _ := keeps_put hfree _ _

theorem Building.keeps_assign {own : Nat → Prop} (hbuild : Building world R own) {id : Nat}
    (hid : own id) (struct attr : String) (v : Value) :
    (assign (.object struct id) attr v).Keeps R world :=
  .bind .get fun _ ↦ hbuild.fill hid _

theorem keeps_itemOf (v : Value) (position : Int) : (itemOf v position).Keeps R world := by
  refine .bind .get fun s ↦ ?_
  dsimp only
  split
  case h_6 =>
    refine .reading (.bind (.ofExcept _) fun found ↦ ?_)
    cases found with
    | none => exact .throw _
    | some v => exact .pure v
  case h_7 => exact .throw _
  all_goals exact .ofExcept _

theorem keeps_valueOf (name : String) (item : Option Int) :
    (valueOf name item).Keeps R world := by
  refine .bind .get fun s ↦ ?_
  split
  · exact .throw _
  · exact .pure _
  · exact keeps_itemOf _ _

mutual

theorem keeps_hold (halloc : ∀ cell, (alloc cell).Keeps R world) (v : Value) :
    (hold v).Keeps R world := by
  cases v with
  | list items =>
    unfold hold
    exact (keeps_holdEach halloc items).bind fun _ ↦ (halloc _).bind fun _ ↦ .pure _
  | tuple items =>
    cases items with
    | nil => exact .pure _
    | cons v rest =>
      unfold hold
      exact (keeps_hold halloc v).bind fun _ ↦ (keeps_holdEach halloc rest).bind fun _ ↦
        (halloc _).bind fun _ ↦ .pure _
  | _ =>
    unfold hold
    exact .ite (.pure _) ((halloc _).bind fun _ ↦ .pure _)

theorem keeps_holdEach (halloc : ∀ cell, (alloc cell).Keeps R world) (vs : List Value) :
    (holdEach vs).Keeps R world := by
  cases vs with
  | nil => exact .pure _
  | cons v rest =>
    exact (keeps_hold halloc v).bind fun _ ↦ (keeps_holdEach halloc rest).bind fun _ ↦ .pure _

end

theorem keeps_remember (hfree : LeavesHostFree R) (name : String) (v : Value) :
    (remember name v).Keeps R world :=
  (keeps_hold (keeps_alloc hfree) v).bind fun _ ↦ .modify fun s ↦
    hfree s s.heap s.readings _ s.labels s.visited (Nat.le_refl _)

/-! ### Literals -/

variable {own : Nat → Prop}

mutual

theorem Literal.keeps_readWithin (hbuild : Building world R own) (depth : Nat) (l : Literal) :
    (l.readWithin depth).Keeps R world := by
  cases l with
  | list items =>
    rw [Literal.readWithin]
    exact (keeps_readEach hbuild depth items).bind fun _ ↦ .pure _
  | tuple items =>
    rw [Literal.readWithin]
    exact (keeps_readEach hbuild depth items).bind fun _ ↦ .pure _
  | mapping entries =>
    rw [Literal.readWithin]
    exact (keeps_readEntries hbuild depth entries []).bind fun _ ↦
      hbuild.alloc _ fun _ _ ↦ .pure _
  | engine v =>
    rw [Literal.readWithin]
    exact (v.keeps_readWithin hbuild depth).bind fun _ ↦ .pure _
  | object struct label fields =>
    rw [Literal.readWithin]
    refine hbuild.alloc _ fun id hid ↦ ?_
    dsimp only
    split
    case' h_1 => refine .bind (.modify fun s ↦ hbuild.labels s _ _) fun _ ↦ ?_
    all_goals
      refine (keeps_readFields hbuild depth fields).bind fun given ↦
        .bind (.forM given fun p _ ↦ hbuild.keeps_assign hid struct p.1 p.2) fun _ ↦ .reading ?_
      split
      · exact .throw _
      · refine .bind (.forM _ fun f _ ↦ .ite ?_ (.pure _)) fun _ ↦ .pure _
        split
        · exact (Literal.keeps_readWithin hbuild _ _).bind fun _ ↦
            hbuild.keeps_assign hid struct _ _
        · exact .throw _
        · exact hbuild.keeps_assign hid struct _ _
        · exact .pure _
  | again label =>
    rw [Literal.readWithin]
    refine .bind .get fun s ↦ ?_
    split
    · exact .pure _
    · exact .throw _
  | hint h =>
    cases h with
    | atom a => cases a <;> (simp only [Literal.readWithin]; exact .pure _)
    | _ =>
      simp only [Literal.readWithin]
      exact .pure _
  | var name item =>
    rw [Literal.readWithin]
    exact keeps_valueOf name item
  | fault f =>
    rw [Literal.readWithin]
    exact .throw _
  | _ =>
    rw [Literal.readWithin]
    exact .pure _
termination_by (depth, sizeOf l)

theorem EngineLiteral.keeps_readWithin (hbuild : Building world R own) (depth : Nat)
    (l : EngineLiteral) : (l.readWithin depth).Keeps R world := by
  cases l with
  | integer content =>
    rw [EngineLiteral.readWithin]
    exact (content.keeps_readWithin hbuild depth).bind fun _ ↦ .ofExcept _
  | multifield items =>
    rw [EngineLiteral.readWithin]
    exact (keeps_readEngineEach hbuild depth items).bind fun _ ↦ .pure _
  | _ =>
    rw [EngineLiteral.readWithin]
    exact .pure _
termination_by (depth, sizeOf l)

theorem keeps_readEngineEach (hbuild : Building world R own) (depth : Nat)
    (ls : List EngineLiteral) :
    (readEngineEach depth ls).Keeps R world := by
  cases ls with
  | nil =>
    rw [readEngineEach]
    exact .pure _
  | cons l rest =>
    rw [readEngineEach]
    exact (l.keeps_readWithin hbuild depth).bind fun _ ↦
      (keeps_readEngineEach hbuild depth rest).bind fun _ ↦ .pure _
termination_by (depth, sizeOf ls)

theorem keeps_readEach (hbuild : Building world R own) (depth : Nat) (ls : List Literal) :
    (readEach depth ls).Keeps R world := by
  cases ls with
  | nil =>
    rw [readEach]
    exact .pure _
  | cons l rest =>
    rw [readEach]
    exact (l.keeps_readWithin hbuild depth).bind fun _ ↦
      (keeps_readEach hbuild depth rest).bind fun _ ↦ .pure _
termination_by (depth, sizeOf ls)

theorem keeps_readEntries (hbuild : Building world R own) (depth : Nat)
    (ls : List (Literal × Literal)) (entries : List (Value × Value)) :
    (readEntries depth ls entries).Keeps R world := by
  cases ls with
  | nil =>
    rw [readEntries]
    exact .pure _
  | cons p rest =>
    obtain ⟨k, v⟩ := p
    rw [readEntries]
    refine (k.keeps_readWithin hbuild depth).bind fun key ↦
      (v.keeps_readWithin hbuild depth).bind fun value ↦ .bind .get fun s ↦ .reading ?_
    exact .bind (.ofExcept _) fun _ ↦ .bind (.ofExcept _) fun put ↦
      keeps_readEntries hbuild depth rest put
termination_by (depth, sizeOf ls)

theorem keeps_readFields (hbuild : Building world R own) (depth : Nat)
    (ls : List (String × Literal)) : (readFields depth ls).Keeps R world := by
  cases ls with
  | nil =>
    rw [readFields]
    exact .pure _
  | cons p rest =>
    obtain ⟨name, l⟩ := p
    rw [readFields]
    exact (l.keeps_readWithin hbuild depth).bind fun _ ↦
      (keeps_readFields hbuild depth rest).bind fun _ ↦ .pure _
termination_by (depth, sizeOf ls)

end

end

end RuleMarshal
