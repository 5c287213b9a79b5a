import RuleMarshal.Proofs.Extraction.Target
import RuleMarshal.Proofs.Session.Growth
/-!
What an extraction leaves aside on its way. The heaps before and after each call of a function by
the engine are kept, so a run tells what the functions did that the engine called in it
(`State.callsUntil`). As long as these left what stands in a cell (`CallsLeave`), the extraction of
an engine value leaves it too (`StaysMeanwhile.keeps_extractValue`), and so does what reads slots
for it (`StaysMeanwhile.keeps_convert`). What functions would do in other states, or in reply to
other commands, is of no account.
-/

set_option autoImplicit false
set_option relaxedAutoImplicit false

namespace RuleMarshal

open Act

/-! ### Calls meanwhile -/

/-- The heaps before and after the calls that the engine made from one state to another. -/
def State.callsUntil (s t : State) : List (Heap × Heap) := t.calls.toList.drop s.calls.size

/-- The functions that the engine called from one state to another left what stood in a cell. -/
def CallsLeave (id : Nat) (s t : State) : Prop :=
  ∀ call ∈ s.callsUntil t, ∀ cell, call.1.get? id = some cell → call.2.get? id = some cell

/-- No call is forgotten. -/
def CallsGrow (s t : State) : Prop := s.calls.toList <+: t.calls.toList

instance CallsGrow.isPreorder : IsPreorder State CallsGrow where
  refl _ := List.prefix_rfl
  trans _ _ _ := List.IsPrefix.trans

theorem CallsGrow.of_calls_eq {s t : State} (hcalls : t.calls = s.calls) : CallsGrow s t := by
  simp [CallsGrow, hcalls]

theorem CallsGrow.leavesHostFree : LeavesHostFree CallsGrow := fun _ _ _ _ _ _ _ ↦ .of_calls_eq rfl

theorem State.callsUntil_append {s t u : State} (hst : CallsGrow s t) (htu : CallsGrow t u) :
    s.callsUntil u = s.callsUntil t ++ t.callsUntil u := by
  obtain ⟨first, hfirst⟩ := hst
  obtain ⟨later, hlater⟩ := htu
  unfold callsUntil
  rw [← Array.length_toList, ← Array.length_toList, ← hlater, List.drop_left, ← hfirst,
    List.append_assoc, List.drop_left, List.drop_left]

/-- Calls that leave a cell from one state to another leave it between any two on the way. -/
theorem CallsLeave.within {id : Nat} {s t u v : State} (hleave : CallsLeave id s v)
    (hst : CallsGrow s t) (htu : CallsGrow t u) (huv : CallsGrow u v) : CallsLeave id t u := by
  intro call hcall
  refine hleave call ?_
  rw [State.callsUntil_append hst (trans_of CallsGrow htu huv), State.callsUntil_append htu huv]
  exact List.mem_append_right _ (List.mem_append_left _ hcall)

/-! ### Serving -/

section

variable {world : World}

theorem CallsGrow.keeps_serve (c : EngineCall) : (Channel.serve c).Keeps CallsGrow world := by
  intro s
  obtain ⟨t, hserved⟩ := Channel.serve_answers world c s
  rw [hserved]
  exact ⟨[(s.heap, t.heap)], Array.toList_push.symm⟩

theorem CallsGrow.frame : Frame world (fun _ ↦ True) CallsGrow where
  unguarded _ _ := trivial
  serial _ _ := .of_calls_eq rfl
  parked _ _ := .of_calls_eq rfl
  schemaOf _ _ := .of_calls_eq rfl
  exchange _ _ _ _ := Channel.keeps_exchange (.of_calls_eq rfl) fun call _ ↦ keeps_serve call

theorem CallsGrow.extracting :
    Extracting (.ofRelation CallsGrow) world (fun _ ↦ True) fun _ ↦ True :=
  (CallsGrow.frame.transferring CallsGrow.leavesHostFree).extracting

end

/-! ### Cells meanwhile -/

/-- How a cell fares from one state to another: no call is forgotten and no cell is dropped, and the
cell stays as it is where the calls meanwhile left it. -/
structure Fares (id : Nat) (s t : State) : Prop where
  called : CallsGrow s t
  grows : HeapGrows s t
  stays : CallsLeave id s t → t.heap.get? id = s.heap.get? id

/-- A cell that is there stays as it is where the calls meanwhile left it. -/
def StaysMeanwhile (id : Nat) (s t : State) : Prop := id < s.heap.cells.size → Fares id s t

namespace StaysMeanwhile

variable {world : World} {id : Nat} {s t : State}

instance isPreorder : IsPreorder State (StaysMeanwhile id) where
  refl s _ := ⟨refl_of CallsGrow s, refl_of HeapGrows s, fun _ ↦ rfl⟩
  trans s t u hst htu hid := by
    have hfirst := hst hid
    have hlater := htu (Nat.lt_of_lt_of_le hid hfirst.grows)
    refine ⟨trans_of CallsGrow hfirst.called hlater.called,
      trans_of HeapGrows hfirst.grows hlater.grows, fun hleave ↦ ?_⟩
    have hsooner : CallsLeave id s t :=
      hleave.within (refl_of CallsGrow s) hfirst.called hlater.called
    have hafter : CallsLeave id t u :=
      hleave.within hfirst.called hlater.called (refl_of CallsGrow u)
    rw [hlater.stays hafter, hfirst.stays hsooner]

theorem of_eq (hheap : t.heap = s.heap) (hcalls : t.calls = s.calls) : StaysMeanwhile id s t :=
  fun _ ↦ ⟨.of_calls_eq hcalls, .of_heap_eq hheap, fun _ ↦ by rw [hheap]⟩

theorem keeps_alloc (cell : Cell) : (alloc cell).Keeps (StaysMeanwhile id) world := fun s hid ↦
  ⟨.of_calls_eq rfl, HeapGrows.leavesHostFree s _ s.readings s.named s.labels s.visited (by simp),
    fun _ ↦ s.heap.get?_alloc_of_lt cell hid⟩

theorem keeps_put {other : Nat} (hother : other ≠ id) (cell : Cell) :
    (put other cell).Keeps (StaysMeanwhile id) world := fun s _ ↦
  ⟨.of_calls_eq rfl, Nat.le_of_eq (by simp [put, Heap.put]), fun _ ↦ s.heap.get?_put_ne cell hother⟩

/-- A cell that is made is another than those that are there. -/
theorem building : Building world (StaysMeanwhile id) (· ≠ id) where
  labels _ _ _ := of_eq rfl rfl
  alloc cell next hnext s hid := by
    have hmade : StaysMeanwhile id s ((alloc cell).runIn world s).2 := keeps_alloc cell s
    have hlater := hnext s.heap.cells.size (Nat.ne_of_gt hid) ((alloc cell).runIn world s).2
    exact trans_of (StaysMeanwhile id) hmade hlater hid
  fill hother attrs := keeps_put hother (.object attrs)

variable (hgrowing : world.Growing)
include hgrowing

/-- A call that is served is itself one of the calls meanwhile. -/
theorem keeps_serve (c : EngineCall) : (Channel.serve c).Keeps (StaysMeanwhile id) world := by
  intro s hid
  refine ⟨CallsGrow.keeps_serve c s, hgrowing.keeps_serve c s, fun hleave ↦ ?_⟩
  obtain ⟨t, hserved⟩ := Channel.serve_answers world c s
  rw [hserved] at hleave ⊢
  obtain ⟨cell, hcell⟩ : ∃ cell, s.heap.get? id = some cell := ⟨_, Array.getElem?_eq_getElem hid⟩
  rw [hcell]
  exact hleave (s.heap, t.heap) (by simp [State.callsUntil]) cell hcell

theorem frame : Frame world (fun _ ↦ True) (StaysMeanwhile id) where
  unguarded _ _ := trivial
  serial _ _ := of_eq rfl rfl
  parked _ _ := of_eq rfl rfl
  schemaOf _ _ := of_eq rfl rfl
  exchange _ _ _ _ := Channel.keeps_exchange (of_eq rfl rfl) fun call _ ↦ keeps_serve hgrowing call

theorem extracting : Extracting (.ofRelation (StaysMeanwhile id)) world (fun _ ↦ True) (· ≠ id) :=
  (frame hgrowing).extracting building (fun _ _ _ ↦ of_eq rfl rfl) keeps_alloc keeps_put

end StaysMeanwhile

end RuleMarshal
