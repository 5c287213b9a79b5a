import RuleMarshal.Proofs.Environment.Exchange
import RuleMarshal.Proofs.Environment.Transfer
/-!
What an extraction leaves aside. It makes new cells for what it builds and fills those, so what
stands in a cell that was there before stays there while an engine value is extracted
(`CellStays.keeps_extractValue`), and while slots are read for it. Only a function that the engine
calls meanwhile could change it (`World.LeavesCell`).
-/

set_option autoImplicit false
set_option relaxedAutoImplicit false

namespace RuleMarshal

open Act

/-- What stands in a cell stays there. -/
def CellStays (id : Nat) (s t : State) : Prop :=
  ∀ cell, s.heap.get? id = some cell → t.heap.get? id = some cell

/-- The functions that an engine calls leave what stands in a cell. -/
def World.LeavesCell (world : World) (id : Nat) : Prop :=
  ∀ history c, ∀ call ∈ (world.engine history c).calls,
    (Channel.serve call).Keeps (CellStays id) world

/-- An engine that calls no functions leaves every cell. -/
theorem World.leavesCell_of_no_calls {world : World}
    (hcalls : ∀ history c, (world.engine history c).calls = []) (id : Nat) :
    world.LeavesCell id := by
  intro history c call hcall
  rw [hcalls] at hcall
  cases hcall

namespace CellStays

variable {world : World} {id : Nat} {s t : State}

instance isPreorder : IsPreorder State (CellStays id) where
  refl _ _ := fun hcell ↦ hcell
  trans _ _ _ hst htu := fun cell hcell ↦ htu cell (hst cell hcell)

theorem of_heap_eq (hheap : t.heap = s.heap) : CellStays id s t := by
  intro cell hcell
  rw [hheap]
  exact hcell

theorem keeps_alloc (cell : Cell) : (alloc cell).Keeps (CellStays id) world := by
  intro s held hheld
  show (s.heap.alloc cell).1.get? id = some held
  rw [s.heap.get?_alloc_of_lt cell (Array.getElem?_eq_some_iff.mp hheld).1]
  exact hheld

theorem keeps_put {other : Nat} (hother : other ≠ id) (cell : Cell) :
    (put other cell).Keeps (CellStays id) world := by
  intro s held hheld
  show (s.heap.put other cell).get? id = some held
  rw [s.heap.get?_put_ne cell hother]
  exact hheld

/-- A cell that is made is another than those that are there. -/
theorem building : Building world (CellStays id) (· ≠ id) where
  labels _ _ _ := of_heap_eq rfl
  alloc cell next hnext s held hheld := by
    have hlt : id < s.heap.cells.size := (Array.getElem?_eq_some_iff.mp hheld).1
    have hmade : CellStays id s ((alloc cell).runIn world s).2 := keeps_alloc cell s
    exact hnext s.heap.cells.size (Nat.ne_of_gt hlt) _ held (hmade held hheld)
  fill hother attrs := keeps_put hother (.object attrs)

theorem frame (hleaves : world.LeavesCell id) : Frame world (fun _ ↦ True) (CellStays id) where
  unguarded _ _ := trivial
  serial _ _ := of_heap_eq rfl
  parked _ _ := of_heap_eq rfl
  schemaOf _ _ := of_heap_eq rfl
  exchange c _ s _ := Channel.keeps_exchange (of_heap_eq rfl) (hleaves s.history c)

theorem extracting (hleaves : world.LeavesCell id) :
    Extracting (.ofRelation (CellStays id)) world (fun _ ↦ True) (· ≠ id) :=
  (frame hleaves).extracting building (fun _ _ _ ↦ of_heap_eq rfl) keeps_alloc keeps_put

/-- What was there before an engine value was extracted is there afterwards. -/
theorem keeps_extractValue (hleaves : world.LeavesCell id) (v : EngineValue) (into : Hint) :
    (extractValue v into).Keeps (CellStays id) world :=
  Meets.iff_keeps.mp ((extracting hleaves).extractWithin callLimit v into)

end CellStays

end RuleMarshal
