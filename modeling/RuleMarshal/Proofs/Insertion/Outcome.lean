import RuleMarshal.Proofs.Insertion.Simulation
import RuleMarshal.Proofs.Session.Evolution
/-!
What an insertion comes to. An insertion that succeeds has made one instance for each object that
its root reaches, and these instances represent the object graph (`insert_represents`).
-/

set_option autoImplicit false
set_option relaxedAutoImplicit false

namespace RuleMarshal

open Act

/-- The node of a root. -/
def Value.rootNode (v : Value) : ObjectNode := ⟨v.identityAt .root, v⟩

/-- Behind its guard an insertion is that of an object of a struct type. -/
theorem runIn_insert {world : World} {s : State} (v name : Value) (hopen : s.closed = false)
    (hrest : s.depth = 0) :
    (insert v name).runIn world s = Act.runIn (
      match (s.heap.opened v).structType? world.types with
      | none => throw (.unsupported (.insertion (s.heap.opened v).typeName))
      | some type => Prod.fst <$> (insertWithin callLimit v type (s.heap.content name)).run {})
      world s := by
  unfold insert
  rw [runIn_guardMutation_bind]
  simp only [hopen, hrest, Nat.lt_irrefl, Bool.false_eq_true, if_false]
  rw [runIn_bind, runIn_get]
  dsimp only
  rw [runIn_bind, runIn_read]
  rfl

theorem ok_of_insert {world : World} {s t : State} {v name : Value} {handle : InstanceHandle}
    (hrun : (insert v name).runIn world s = (.ok handle, t)) :
    ∃ type j, (s.heap.opened v).structType? world.types = some type ∧
      Carrying.runIn (insertWithin callLimit v type (s.heap.content name)) world {} s =
        (.ok (handle, j), t) := by
  obtain ⟨hopen, hrest, -⟩ := ok_of_guardMutation hrun
  rw [runIn_insert v name hopen hrest] at hrun
  split at hrun
  · cases hrun
  · rename_i type htype
    rw [map_eq_pure_bind] at hrun
    obtain ⟨⟨made, j⟩, _, hwithin, hreturn⟩ := ok_of_bind hrun
    cases hreturn
    exact ⟨type, j, htype, hwithin⟩

/-- An insertion that succeeds maps objects to instances. Let the engine's fresh names be symbols
that differ from each other and from the name that was asked for, and let it give instances the
names that it is asked to; let the functions that it calls meanwhile leave the objects alone. Then
one order to make an instance was sent for each object that the root reaches, under names that are
all different, with one value for each slot of the schema, in order. A slot that refers to objects
has the names that their instances were made under, and nil for what is absent, and an object's
instance was made before that of the object whose slot referred to it first. -/
theorem insert_represents (types : TypeTable) (config : Config)
    (engine : Array Event → Command → Reply) (depth : Nat) (s t : State) (v name : Value)
    (handle : InstanceHandle) :
    let world := World.ofDepth types config engine depth
    let graph := s.objectGraph world
    graph.Coherent v.rootNode →
    Calm world s (graph.Agrees v.rootNode) →
    NamesFreshly engine s.history (fun given ↦ (s.heap.content name).matchable = .ok given) →
    NamesAsAsked engine s.history →
    (insert v name).runIn world s = (.ok handle, t) →
    ∃ made, t.creations = s.creations ++ made.map Made.creation ∧
      Represents graph v.rootNode made ∧ (v.rootNode.id, handle.name) ∈ namingOf made := by
  intro world graph hcoherent hcalm hfresh hasAsked hrun
  have hsetup : world.setup = ⟨types, config, engine⟩ :=
    World.ofDepth_setup types config engine depth
  have hengine : world.engine = engine := congrArg Setup.engine hsetup
  have hins : Insertable world s v.rootNode (graph.Agrees v.rootNode)
      (fun given ↦ (s.heap.content name).matchable = .ok given) :=
    { orderly := World.ofDepth_orderly types config engine depth
      placed := rfl
      agrees := fun _ hkeep ↦ hkeep
      calm := hcalm
      fresh := hengine ▸ hfresh
      asAsked := hengine ▸ hasAsked }
  obtain ⟨type, j, htype, hwithin⟩ := ok_of_insert hrun
  have hpresent : graph.IsPresent v.rootNode.value := by
    intro habsent
    rw [show s.heap.opened v = .none from habsent] at htype
    cases htype
  have hbegin : Midway world s (graph.Agrees v.rootNode)
      (fun given ↦ (s.heap.content name).matchable = .ok given) [] {} s :=
    ⟨.refl fun _ _ ↦ rfl, rfl, fun _ hmem ↦ nomatch hmem⟩
  obtain ⟨after, -, made, hinserts, hcreations⟩ := performs_insertWithin hins callLimit
    (b := v.rootNode) .refl hpresent htype hbegin (fun _ hmem ↦ nomatch hmem)
    (fun given hgiven ↦ ⟨hgiven, fun hmem ↦ nomatch hmem⟩) hwithin
  exact ⟨made, hcreations, hinserts.represents hcoherent rfl⟩

/-! ### A ring of two objects -/

/-- A struct type whose objects refer to each other. -/
def ringTypes : TypeTable where
  types := [{ name := "Ring", kind := .described,
              fields := [{ attr := "next", hint := .union .word [.struct "Ring", .noneType] }] }]

/-- Two objects, each the next one of the other. -/
def ringState : State where
  heap.cells := #[.object [("next", .object "Ring" 1)], .object [("next", .object "Ring" 0)]]

/-- An engine that knows the class of a ring and makes every instance. Its fresh names are told
apart by their lengths. -/
def ringEngine (history : Array Event) : Command → Reply
  | .evaluate .freshName =>
    { outcome := .ok (.symbol ("gen" ++ String.ofList (List.replicate history.size '1'))) }
  | .evaluate (.makeInstance (some name) _ _) => { outcome := .ok (.instanceName name) }
  | .evaluate (.classQuery _ _) => { outcome := .ok (.bool true) }
  | .evaluate (.classSlots _) => { outcome := .ok (.list [.symbol "next"]) }
  | _ => { outcome := .ok (.bool false) }

theorem ringEngine_calls (history : Array Event) (c : Command) :
    (ringEngine history c).calls = [] := by
  unfold ringEngine
  split <;> rfl

/-- Names told apart by their lengths are different. -/
theorem gen_replicate_injective :
    Function.Injective fun n ↦ "gen" ++ String.ofList (List.replicate n '1') := by
  intro m n hsame
  have hsize := congrArg (List.length ∘ String.toList) hsame
  simpa using hsize

theorem matchable_text_ne_gen (n : Nat) :
    Value.matchable (.text "a") ≠ .ok ("gen" ++ String.ofList (List.replicate n '1')) := by
  intro hgiven
  have hname := congrArg String.toList (Except.ok.inj hgiven)
  simp at hname

theorem ringEngine_namesFreshly :
    NamesFreshly ringEngine #[] (fun given ↦ Value.matchable (.text "a") = .ok given) :=
  .of_injective (fun _ ↦ rfl) gen_replicate_injective matchable_text_ne_gen

/-- What a ring's object refers to is one of the two. -/
theorem ring_reaches {world : World} {n : ObjectNode}
    (hn : (ringState.objectGraph world).Reaches (Value.object "Ring" 0).rootNode n) :
    n.value = .object "Ring" 0 ∨ n.value = .object "Ring" 1 := by
  induction hn with
  | refl => exact .inl rfl
  | @tail owner n _ hrefers ih =>
    obtain ⟨position, item, hstands⟩ := ObjectGraph.stands_of_mem_nodes hrefers.1
    obtain ⟨schema, slot, v, -, -, -, hattr, hitem⟩ := hstands.value
    have hnext {next : Value} (hlookup : List.lookup slot.attr [("next", next)] = some v) :
        v = next := by
      rw [List.lookup_cons] at hlookup
      split at hlookup
      · exact (Option.some.inj hlookup).symm
      · cases hlookup
    have hv : v = .object "Ring" 0 ∨ v = .object "Ring" 1 := by
      obtain howner | howner := ih <;> rw [howner] at hattr
      · exact .inr (hnext hattr)
      · exact .inl (hnext hattr)
    have htarget : n.value = v := by
      unfold SlotSchema.targets at hitem
      split at hitem
      · obtain rfl | rfl := hv <;> cases hitem
      · obtain ⟨_, hv⟩ := List.getElem?_eq_some_iff.mp hitem
        simpa using hv.symm
    rwa [htarget]

theorem ring_coherent (world : World) :
    (ringState.objectGraph world).Coherent (Value.object "Ring" 0).rootNode := by
  intro a b ha hb id hcella hcellb
  obtain ha | ha := ring_reaches ha <;> obtain hb | hb := ring_reaches hb <;>
    rw [ha] at hcella ⊢ <;> rw [hb] at hcellb ⊢ <;> cases hcella <;> cases hcellb

/-- Inserting one of two objects that refer to each other makes two instances. -/
theorem insert_represents_ring :
    let world := World.ofDepth ringTypes { autoSynthesize := false } ringEngine 0
    let run := (insert (.object "Ring" 0) (.text "a")).runIn world ringState
    ∃ handle made, run.1 = .ok handle ∧ run.2.creations = made.map Made.creation ∧
      Represents (ringState.objectGraph world) (Value.object "Ring" 0).rootNode made := by
  intro world run
  have hname : ringState.heap.content (.text "a") = .text "a" := by
    simp [Heap.content, Value.settledWithin]
  have hsucceeds : run.1.toOption.isSome = true := by
    change ((insert (.object "Ring" 0) (.text "a")).runIn world ringState).1.toOption.isSome = true
    rw [runIn_insert _ _ rfl rfl, hname]
    decide +kernel
  cases hanswer : run.1 with
  | error e => rw [hanswer] at hsucceeds; cases hsucceeds
  | ok handle =>
    obtain ⟨made, hcreations, hrepresents, -⟩ := insert_represents ringTypes
      { autoSynthesize := false } ringEngine 0 ringState run.2 (.object "Ring" 0) (.text "a") handle
      (ring_coherent world) (calm_of_no_calls _ _ ringEngine_calls)
      (by rw [hname]; exact ringEngine_namesFreshly)
      (fun _ _ _ _ _ _ houtcome ↦ .inl (Except.ok.inj houtcome).symm) (Prod.ext hanswer rfl)
    exact ⟨handle, made, rfl, hcreations, hrepresents⟩

end RuleMarshal
