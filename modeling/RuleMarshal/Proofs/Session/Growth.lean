import RuleMarshal.Proofs.Environment.Exchange
import RuleMarshal.Proofs.Session.Evolution
/-!
The heap grows. Nothing that a host program does drops a cell, so however deep calls may nest, a
host function ends with all the cells that it began with (`World.ofDepth_growing`), and so does
every exchange with the engine, whatever functions the engine calls in it
(`World.Growing.keeps_serve`).
-/

set_option autoImplicit false
set_option relaxedAutoImplicit false

namespace RuleMarshal

open Act

/-- No cell is dropped. -/
def HeapGrows (s t : State) : Prop := s.heap.cells.size ≤ t.heap.cells.size

namespace HeapGrows

variable {s t : State}

instance isPreorder : IsPreorder State HeapGrows where
  refl _ := Nat.le_refl _
  trans _ _ _ := Nat.le_trans

theorem of_heap_eq (hheap : t.heap = s.heap) : HeapGrows s t := Nat.le_of_eq (by rw [hheap])

theorem leavesHostFree : LeavesHostFree HeapGrows := fun _ _ _ _ _ _ hgrows ↦ hgrows

theorem keeps_guardMutation {world : World} (operation : String) :
    (guardMutation operation).Keeps HeapGrows world :=
  .bind (.bind .get fun _ ↦ .ite (.throw _) (.pure _)) fun _ ↦ .bind .get fun _ ↦
    .ite (.throw _) (.pure _)

end HeapGrows

/-- A world in which host functions drop no cells. -/
structure World.Growing (world : World) : Prop where
  invoke : ∀ f args s, HeapGrows s (world.invoke f args s).2
  resolve : ∀ v h s, HeapGrows s (world.resolve v h s).2

namespace World.Growing

variable {world : World} (hworld : world.Growing)
include hworld

theorem keptByCalls : KeptByCalls world HeapGrows where
  serial _ _ := .of_heap_eq rfl
  park _ _ _ := .of_heap_eq rfl
  resolve := hworld.resolve
  run f values s := hworld.invoke f values { s with depth := s.depth + 1 }

theorem keeps_serve (c : EngineCall) : (Channel.serve c).Keeps HeapGrows world :=
  Channel.keeps_serve_of_kept hworld.keptByCalls (fun _ _ ↦ .modify fun _ ↦ .of_heap_eq rfl)
    (fun _ _ ↦ .of_heap_eq rfl) c

theorem frame : Frame world (fun _ ↦ True) HeapGrows where
  unguarded _ _ := trivial
  serial _ _ := .of_heap_eq rfl
  parked _ _ := .of_heap_eq rfl
  schemaOf _ _ := .of_heap_eq rfl
  exchange _ _ _ _ := Channel.keeps_exchange (.of_heap_eq rfl) fun call _ ↦ hworld.keeps_serve call

theorem governing : Governing (.ofRelation HeapGrows) (.ofRelation HeapGrows) world where
  toTransferring := by
    have hquiet : Frame world (fun c ↦ c.isGuarded = false) HeapGrows :=
      { hworld.frame with unguarded := fun _ hc ↦ hc, exchange := fun c _ ↦
          hworld.frame.exchange c trivial }
    exact hquiet.transferring HeapGrows.leavesHostFree
  atRest := hworld.frame.inquiring
  guard operation hnext :=
    (Meets.of_keeps (HeapGrows.keeps_guardMutation operation)).bind fun _ ↦ hnext
  command _ _ := Meets.iff_keeps.mpr (hworld.frame.command trivial)
  bind _ _ _ := .of_heap_eq rfl
  guardConcluding operation hnext :=
    .after (.of_keeps (HeapGrows.keeps_guardMutation operation)) fun _ ↦ hnext
  register _ _ _ := .of_heap_eq rfl
  endData _ := .of_heap_eq rfl
  endAll _ := .of_heap_eq rfl
  retire _ _ _ := .of_heap_eq rfl
  close _ _ := .of_heap_eq rfl

theorem extracting : Extracting (.ofRelation HeapGrows) world (fun _ ↦ True) fun _ ↦ True :=
  (hworld.frame.transferring HeapGrows.leavesHostFree).extracting

theorem keeps_run (f : Callable) (args : List Value) : (f.run args).Keeps HeapGrows world :=
  f.keeps_run HeapGrows.leavesHostFree
    (fun receiver method b ↦ (concludes_callReceiver hworld.governing receiver method b).keeps
      (fun _ _ ↦ id) fun _ _ _ ↦ id)
    (fun _ ↦ .modify fun _ ↦ .of_heap_eq rfl) (fun _ _ ↦ .modify fun _ ↦ .of_heap_eq rfl) args

end World.Growing

/-- However deep calls may nest, host functions drop no cells. -/
theorem World.ofDepth_growing (types : TypeTable) (config : Config)
    (engine : Array Event → Command → Reply) (depth : Nat) :
    (World.ofDepth types config engine depth).Growing := by
  induction depth with
  | zero => exact ⟨fun _ _ _ ↦ .of_heap_eq rfl, fun _ _ _ ↦ .of_heap_eq rfl⟩
  | succ depth ih =>
    constructor
    · exact fun f args s ↦ ih.keeps_run f args s
    · exact fun v h s ↦ ih.frame.resolveArgument HeapGrows.leavesHostFree v h s

end RuleMarshal
