import RuleMarshal.Proofs.Extraction.Instance
import RuleMarshal.Proofs.RoundTrip.Copying
/-!
The extraction of what the slots of an instance came to. A plain value is decoded to itself
(`attains_plain`). A slot that refers to objects is extracted into their copies
(`attains_reference`), if an instance inserted less deep is extracted into the copy of its object
(`Recalls`).
-/

set_option autoImplicit false
set_option relaxedAutoImplicit false

namespace RuleMarshal

open Act ObjectGraph

/-! ### What an extraction attains -/

variable (σ : Scene)

/-- Whether a computation answers with the copy of a value, and makes copies meanwhile of what was
named. -/
def Attains (copies : List Copy) (s : State) (after : Naming) (v : Value) (act : Act Value) :
    Prop :=
  ∃ w more t, act.runIn σ.world s = (.ok w, t) ∧ Copied σ none copies s more t ∧
    more.map Copy.naming = after ∧ CopyOf more v w

/-- Whether what an insertion came to, with so many objects begun one inside the other at most, is
extracted into copies. -/
def Recalls (depth : Nat) : Prop :=
  ∀ {b : ObjectNode} {e : EngineValue} {made : List Made} {after : Naming}
    {copies : List Copy} {s : State}
    {struct : String} {id : Nat},
    Inserts σ.graph (Encodes σ.keep) depth (copies.map Copy.naming) [b] [e] made after →
    (∀ m ∈ made, σ.store.Holds m) → σ.graph.Reaches σ.root b → b.value = .object struct id →
    σ.world.types.isStruct (.struct struct) = true → Halfway σ copies s →
    Attains σ copies s after b.value (resolveBy (extractWithin depth) e (.struct struct))

variable {σ} {copies : List Copy} {s t : State} {depth : Nat} {after : Naming} {b : ObjectNode}
variable {f : Field} {slot : SlotSchema} {v : Value} {e : EngineValue} {made : List Made}
variable {struct : String}

theorem extractWithin_of_isData (hdata : e.isData = true) (depth : Nat) (h : Hint) :
    extractWithin (depth + 1) e h = h.decode (some (resolveBy (extractWithin depth))) e := by
  cases e <;> first | rfl | cases hdata

/-! ### Plain values -/

theorem FieldOf.plainOf {heap : Heap} {table : TypeTable} (hv : FieldOf heap f.hint v)
    (hslot : SlotOf table f slot) (hreference : slot.reference = none) :
    PlainOf f.hint (heap.content v) := by
  cases hv with
  | plain hv => exact hv
  | absent hunwrap _ | object hunwrap _ =>
    obtain ⟨hsome, -, -⟩ := hslot.single hunwrap
    simp [hreference] at hsome
  | objects hitems _ _ =>
    obtain ⟨hsome, -, -⟩ := hslot.row hitems
    simp [hreference] at hsome

/-- What a plain value was encoded as is decoded to the value. -/
theorem attains_plain (hslot : SlotOf σ.world.types f slot) (hv : FieldOf σ.graph.heap f.hint v)
    (hreference : slot.reference = none) (hencodes : Encodes σ.keep slot v e)
    (hkept : ∀ heap, σ.keep heap → heap.content v = σ.graph.heap.content v) (number : Nat) :
    e.isData = true ∧ ∀ {s}, Halfway σ copies s →
      Attains σ copies s (copies.map Copy.naming) (σ.graph.heap.content v)
        (extractWithin (depth + 1) e (f.hint.inReading number)) := by
  have hplain := hv.plainOf hslot hreference
  obtain ⟨heap, hheap, hencode⟩ := hencodes
  rw [hkept heap hheap] at hencode
  have hencoded : f.hint.encode (σ.graph.heap.content v) = .ok e := by
    split at hencode
    · rename_i hmulti hcontent
      exact absurd hcontent ((hslot.plain hplain).2 hmulti)
    · rwa [hslot.hint] at hencode
  have hdecode := fun cell ↦
    hplain.decode_encode hencoded cell number (some (resolveBy (extractWithin depth)))
  refine ⟨(hdecode id).1, fun {s} hs ↦ ?_⟩
  have hrun : ∀ cell, (extractWithin (depth + 1) e (f.hint.inReading number)).runIn σ.world s =
      (.ok ((σ.graph.heap.content v).renamed cell), s) := by
    intro cell
    rw [extractWithin_of_isData (hdecode cell).1, (hdecode cell).2]
    rfl
  refine ⟨_, copies, s, hrun id, .refl hs, rfl, fun cell _ ↦ ?_⟩
  have hsame := (hrun id).symm.trans (hrun cell)
  exact Except.ok.inj (congrArg Prod.fst hsame)

/-! ### References -/

section

variable {naming : Naming}

theorem Inserts.isData {nodes : List ObjectNode} {es : List EngineValue}
    (hinserts : Inserts σ.graph (Encodes σ.keep) depth naming nodes es made after) :
    eachData es = true := by
  have hdenotes := hinserts.denotes
  clear hinserts
  induction hdenotes with
  | nil => rfl
  | cons hfirst _ ih =>
    rw [eachData, ih]
    obtain ⟨-, rfl⟩ | ⟨-, name, -, rfl⟩ := hfirst <;> rfl

theorem Inserts.of_absent (habsent : σ.graph.heap.opened b.value = .none)
    (hinserts : Inserts σ.graph (Encodes σ.keep) depth naming [b] [e] made after) :
    e = .nil ∧ after = naming := by
  cases hinserts with
  | absent _ hrest =>
    cases hrest
    exact ⟨rfl, rfl⟩
  | again hpresent _ _ => exact absurd habsent hpresent
  | first hpresent _ _ _ _ _ _ => exact absurd habsent hpresent

theorem Inserts.exists_name (hpresent : σ.graph.IsPresent b.value)
    (hinserts : Inserts σ.graph (Encodes σ.keep) depth naming [b] [e] made after) :
    ∃ name, e = .instanceName name := by
  cases hinserts with
  | absent habsent _ => exact absurd habsent hpresent
  | again _ _ _ | first _ _ _ _ _ _ _ => exact ⟨_, rfl⟩

end

/-- A row of references is extracted into the copies of the objects. -/
theorem attains_each (hrecalls : Recalls σ depth)
    (hstruct : σ.world.types.isStruct (.struct struct) = true) {items : List Value}
    {place : Identity} {position item : Nat} {es : List EngineValue}
    (hinserts : Inserts σ.graph (Encodes σ.keep) depth (copies.map Copy.naming)
      (partsFrom place position item items) es made after)
    (hmade : ∀ m ∈ made, σ.store.Holds m)
    (hreached : ∀ n ∈ partsFrom place position item items, σ.graph.IsPresent n.value →
      σ.graph.Reaches σ.root n)
    (hobjects : ∀ w ∈ items, ∃ id, w = .object struct id) (hs : Halfway σ copies s) :
    ∃ ws more t, (es.mapM fun e ↦
      resolveBy (extractWithin depth) e (.struct struct)).runIn σ.world s =
        (.ok ws, t) ∧
      Copied σ none copies s more t ∧ more.map Copy.naming = after ∧
      List.Forall₂ (CopyOf more) items ws := by
  induction items generalizing copies item es made s with
  | nil =>
    cases hinserts
    exact ⟨[], copies, s, rfl, .refl hs, rfl, .nil⟩
  | cons w rest ih =>
    obtain ⟨id, rfl⟩ := hobjects w List.mem_cons_self
    obtain ⟨here, later, inside, outside, between, rfl, rfl, hlength, hfirst, hrest⟩ :=
      Inserts.split (show Inserts _ _ _ _ ([_] ++ _) _ _ _ from hinserts)
    obtain ⟨e, rfl⟩ := List.length_eq_one_iff.mp hlength
    obtain ⟨w, more, t, hrun, hcopied, rfl, hcopy⟩ := hrecalls hfirst
      (fun m hm ↦ hmade m (List.mem_append_left _ hm))
      (hreached _ List.mem_cons_self nofun) rfl hstruct hs
    obtain ⟨ws, most, u, hruns, hcopiedLater, hafter, hcopies⟩ := ih hrest
      (fun m hm ↦ hmade m (List.mem_append_right _ hm))
      (fun n hn ↦ hreached n (List.mem_cons_of_mem _ hn))
      (fun w hw ↦ hobjects w (List.mem_cons_of_mem _ hw)) hcopied.halfway
    refine ⟨w :: ws, most, u, ?_, hcopied.trans hcopiedLater nofun, hafter,
      .cons (hcopy.mono hcopiedLater.subset) hcopies⟩
    rw [List.singleton_append, List.mapM_cons, runIn_bind_of_ok hrun, runIn_bind_of_ok hruns]
    rfl

theorem slotNodes_of_reference {g : ObjectGraph} {position : Nat}
    (hreference : slot.reference.isSome) (hattr : g.heap.attribute? b.value slot.attr = some v) :
    g.slotNodes b position slot = partsFrom b.id position 0 (slot.targets g.heap v) := by
  obtain ⟨reference, hsome⟩ := Option.isSome_iff_exists.mp hreference
  simp [slotNodes, hsome, hattr]

theorem decode_struct {resolve : EngineValue → Hint → Act Value} {optional : Bool}
    (hunwrap : f.hint.unwrapOptional = (.struct struct, optional)) (number : Nat) :
    (f.hint.inReading number).decode (some resolve) e =
      if optional && e.isNil then pure .none else resolve e (.struct struct) := by
  rw [(Hint.isFlat_of_unwrapOptional hunwrap).inReading_eq,
    Hint.decode_of_unwrapOptional e hunwrap rfl]
  rfl

/-- What a slot came to that refers to objects is extracted into their copies. -/
theorem attains_reference (hrecalls : Recalls σ depth) (hslot : SlotOf σ.world.types f slot)
    (hreference : slot.reference.isSome)
    (hattr : σ.graph.heap.attribute? b.value slot.attr = some v)
    (hv : FieldOf σ.graph.heap f.hint v) {position : Nat} {values : List EngineValue}
    (hinserts : Inserts σ.graph (Encodes σ.keep) depth (copies.map Copy.naming)
      (σ.graph.slotNodes b position slot) values made after)
    (hcarries : slot.Carries values e) (hmade : ∀ m ∈ made, σ.store.Holds m)
    (hreached : ∀ n ∈ σ.graph.slotNodes b position slot, σ.graph.IsPresent n.value →
      σ.graph.Reaches σ.root n)
    (number : Nat) :
    e.isData = true ∧ ∀ {s}, Halfway σ copies s →
      Attains σ copies s after (σ.graph.heap.content v)
        (extractWithin (depth + 1) e (f.hint.inReading number)) := by
  rw [slotNodes_of_reference hreference hattr] at hinserts hreached
  have hdata := hinserts.isData
  have hsingle : slot.multi = false → values = [e] ∧ slot.targets σ.graph.heap v = [v] := by
    intro hmulti
    rw [SlotSchema.Carries, hmulti, if_neg Bool.false_ne_true] at hcarries
    rw [SlotSchema.targets, hmulti, if_neg Bool.false_ne_true]
    exact ⟨hcarries, rfl⟩
  cases hv with
  | plain hv => simp [(hslot.plain hv).1] at hreference
  | absent hunwrap habsent =>
    obtain ⟨-, hmulti, -⟩ := hslot.single hunwrap
    obtain ⟨rfl, htargets⟩ := hsingle hmulti
    rw [htargets] at hinserts
    obtain ⟨rfl, rfl⟩ := Inserts.of_absent habsent hinserts
    refine ⟨rfl, fun {s} hs ↦ ⟨.none, copies, s, ?_, .refl hs, rfl, fun cell _ ↦ ?_⟩⟩
    · rw [extractWithin_of_isData rfl, decode_struct hunwrap]
      rfl
    · rw [Heap.content_of_opened_none habsent]
      rfl
  | @object struct _ id hunwrap hobject =>
    subst hobject
    have hpresent : σ.graph.IsPresent (.object struct id) := Value.noConfusion
    obtain ⟨-, hmulti, hstruct⟩ := hslot.single hunwrap
    obtain ⟨rfl, htargets⟩ := hsingle hmulti
    rw [htargets] at hinserts hreached
    obtain ⟨name, rfl⟩ := hinserts.exists_name hpresent
    refine ⟨rfl, fun {s} hs ↦ ?_⟩
    rw [extractWithin_of_isData rfl, decode_struct hunwrap, if_neg (by simp [EngineValue.isNil]),
      Heap.content_object]
    exact hrecalls hinserts hmade (hreached _ List.mem_cons_self hpresent) rfl hstruct hs
  | @objects asTuple struct items hitems hopened hobjects =>
    obtain ⟨-, hmulti, hstruct⟩ := hslot.row hitems
    rw [SlotSchema.Carries, if_pos hmulti] at hcarries
    subst hcarries
    have htargets : slot.targets σ.graph.heap v = items := by
      rw [SlotSchema.targets, if_pos hmulti, hopened]
      cases asTuple <;> rfl
    rw [htargets] at hinserts hreached
    have hdataRow : (EngineValue.multifield values).isData = true := hdata
    refine ⟨hdataRow, fun {s} hs ↦ ?_⟩
    obtain ⟨ws, more, t, hrun, hcopied, hafter, hcopies⟩ :=
      attains_each hrecalls hstruct hinserts hmade hreached hobjects hs
    refine ⟨.row asTuple ws, more, t, ?_, hcopied, hafter, fun cell hmoves ↦ ?_⟩
    · have hflat : (Hint.struct struct).IsFlat := .inl ⟨_, rfl⟩
      rw [extractWithin_of_isData hdataRow,
        Hint.decode_of_items (Hint.items_inReading hitems hflat number) (by simp)]
      have hvalues : (MonadExcept.ofExcept
          ((EngineValue.multifield values).items (f.hint.inReading number)) :
          Act (List EngineValue)).runIn σ.world s = (.ok values, s) := rfl
      have hitems : (values.mapM ((Hint.struct struct).decode
          (some (resolveBy (extractWithin depth))))).runIn σ.world s = (.ok ws, t) := hrun
      rw [runIn_bind_of_ok hvalues, runIn_bind_of_ok hitems]
      rfl
    · rw [Heap.content_of_opened_row hopened hobjects, Value.renamed_row,
        eq_map_of_copyOf hcopies hmoves]

end RuleMarshal
