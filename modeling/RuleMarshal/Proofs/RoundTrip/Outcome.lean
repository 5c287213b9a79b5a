import RuleMarshal.Proofs.Extraction.Outcome
import RuleMarshal.Proofs.Insertion.Outcome
import RuleMarshal.Proofs.RoundTrip.Filling
/-!
The round trip of an object graph. An engine that stores the instances that were made, and answers
from what it stored, gives an object graph back: an insertion that succeeds is followed by an
extraction that succeeds, and what it answers is a copy of the graph, with an object for each
object, and sharing and cycles as they were (`extract_insert_isomorphic`). For that, new objects of
the types must come to be: a type whose defaults cannot be made has objects that are inserted and
not extracted (`extract_insert_fails`).
-/

set_option autoImplicit false
set_option relaxedAutoImplicit false

namespace RuleMarshal

open Act ObjectGraph

/-! ### Graphs and their copies -/

namespace ObjectGraph

variable (g : ObjectGraph) (root : ObjectNode)

/-- A heap that has kept the cells that a graph has to do with, and what the attributes of its
objects hold. -/
structure Intact (heap : Heap) : Prop where
  agrees : g.Agrees root heap
  content : ∀ n attr v, g.Reaches root n → g.heap.attribute? n.value attr = some v →
    heap.content v = g.heap.content v

/-- Whether no two schemas of objects that are reached have one name. -/
def NamesApart : Prop :=
  ∀ a b A B, g.Reaches root a → g.Reaches root b → g.schemaOf a.value = some A →
    g.schemaOf b.value = some B → A.name = B.name → A = B

end ObjectGraph

/-- Whether cells go over to new ones in which there is a copy of what a root reaches: each object
has a cell of its own, and its fields hold there what they hold in the graph, with the objects in
their new cells. -/
structure IsCopy (world : World) (g : ObjectGraph) (root : ObjectNode) (before after : Heap)
    (cell : Nat → Nat) : Prop where
  injective : ∀ a b i j, g.Reaches root a → g.Reaches root b → a.value.cell? = some i →
    b.value.cell? = some j → cell i = cell j → i = j
  fresh : ∀ n i, g.Reaches root n → n.value.cell? = some i → before.cells.size ≤ cell i
  kept : ∀ i < before.cells.size, after.get? i = before.get? i
  objects : ∀ n struct i, g.Reaches root n → n.value = .object struct i →
    ∃ attrs, after.get? (cell i) = some (.object attrs)
  fields : ∀ n struct i fields, g.Reaches root n → n.value = .object struct i →
    world.types.fields world.config.tags (.struct struct) = .ok fields → ∀ f ∈ fields,
      ∃ v, g.heap.attribute? n.value f.attr = some v ∧
        (after.attrs (cell i)).lookup f.attr = some ((g.heap.content v).renamed cell)

/-- The cell of the copy of what is in a cell, as far as that was copied. -/
def copiedTo (copies : List Copy) (id : Nat) : Nat :=
  ((copies.find? fun c ↦ c.original = id).map (·.copy)).getD id

theorem moves_copiedTo {copies : List Copy} (horiginals : (copies.map (·.original)).Nodup) :
    Moves (copiedTo copies) copies := by
  intro c hc
  cases hfound : copies.find? fun d ↦ d.original = c.original with
  | none => simpa using List.find?_eq_none.mp hfound c hc
  | some d =>
    have hsame : d.original = c.original := by simpa using List.find?_some hfound
    obtain rfl := List.inj_on_of_nodup_map horiginals (List.mem_of_find?_eq_some hfound) hc hsame
    simp [copiedTo, hfound]

section

variable {σ : Scene} {copies : List Copy} {s t : State}

/-- Where everything that is reached was copied, there is a copy of the graph. -/
theorem Copied.isCopy (hcopied : Copied σ none [] s copies t)
    (hreached : ∀ n, σ.graph.Reaches σ.root n → n.id ∈ (copies.map Copy.naming).map (·.1)) :
    IsCopy σ.world σ.graph σ.root s.heap t.heap (copiedTo copies) := by
  have hmoves := moves_copiedTo hcopied.halfway.originals
  have hcopy : ∀ n i, σ.graph.Reaches σ.root n → n.value.cell? = some i →
      ∃ c ∈ copies, c.original = i ∧ n.value = .object c.struct c.original := by
    intro n i hn hcell
    have hid := (hn.id_eq_cell σ.placed i).mpr hcell
    obtain ⟨p, hp, hsame⟩ := List.mem_map.mp (hreached n hn)
    obtain ⟨c, hc, rfl⟩ := List.mem_map.mp hp
    obtain rfl : c.original = i := Identity.cell.inj (hsame.trans hid)
    obtain ⟨m, hm, hvalue⟩ := hcopied.halfway.reached c hc
    exact ⟨c, hc, rfl, (σ.coherent n m hn hm c.original hcell (by rw [hvalue]; rfl)).trans hvalue⟩
  obtain ⟨new, hnew, hall⟩ := hcopied.added
  rw [List.append_nil] at hnew
  subst hnew
  refine ⟨fun a b i j ha hb hi hj hsame ↦ ?_, fun n i hn hi ↦ ?_, fun i hi ↦
    hcopied.cells i hi nofun,
    fun n struct i hn hvalue ↦ ?_, fun n struct i fields hn hvalue hfields f hf ↦ ?_⟩
  · obtain ⟨c, hc, rfl, -⟩ := hcopy a i ha hi
    obtain ⟨d, hd, rfl, -⟩ := hcopy b j hb hj
    rw [hmoves c hc, hmoves d hd] at hsame
    rw [List.inj_on_of_nodup_map hcopied.halfway.apart hc hd hsame]
  · obtain ⟨c, hc, rfl, -⟩ := hcopy n i hn hi
    rw [hmoves c hc]
    exact (hall c hc).1
  · obtain ⟨c, hc, rfl, -⟩ := hcopy n i hn (by rw [hvalue]; rfl)
    rw [hmoves c hc]
    exact (hall c hc).2.object
  · obtain ⟨c, hc, rfl, hobject⟩ := hcopy n i hn (by rw [hvalue]; rfl)
    obtain ⟨rfl, -⟩ := Value.object.inj (hvalue.symm.trans hobject)
    obtain ⟨v, w, hv, hw, hrenamed⟩ := (hall c hc).2.fields fields hfields f hf
    rw [hvalue, hmoves c hc]
    exact ⟨v, hv, by rw [hw, hrenamed _ hmoves]⟩

end

/-! ### What an insertion leaves -/

section

variable {world : World} {s t : State} {handle : InstanceHandle}

/-- A handle that comes from the binding is of the epoch that it comes in. -/
theorem epoch_of_toEngine {v : Native}
    (hrun : v.toEngine.runIn world s = (.ok (.instanceAddress handle), t)) :
    handle.epoch = t.dataEpoch := by
  cases v with
  | inst name =>
    obtain ⟨made, u, hmade, hreturn⟩ := ok_of_bind hrun
    cases hmade
    cases hreturn
    rfl
  | int n =>
    unfold Native.toEngine EngineValue.ofInt at hrun
    split at hrun <;> cases hrun
  | list items =>
    obtain ⟨es, u, -, hreturn⟩ := ok_of_bind hrun
    cases hreturn
  | fact index ofTemplate =>
    obtain ⟨made, u, -, hreturn⟩ := ok_of_bind hrun
    cases hreturn
  | _ => cases hrun

/-- An instance that was made is current, and no failure is parked. -/
theorem current_of_createInstance {e : Expression}
    (hrun : (createInstance e).runIn world s = (.ok handle, t)) :
    t.parked = none ∧ handle.epoch = t.dataEpoch := by
  obtain ⟨-, -, hordered⟩ := ok_of_guardMutation hrun
  obtain ⟨v, u, heval, hmade⟩ := ok_of_bind hordered
  obtain ⟨found, w, x, -, hvalue, rfl⟩ := ok_of_eval heval
  cases v with
  | instanceName name =>
    cases hmade
    exact ⟨rfl, rfl⟩
  | instanceAddress h =>
    cases hmade
    have hepoch := epoch_of_toEngine hvalue
    exact ⟨rfl, hepoch⟩
  | _ => cases hmade

theorem current_of_insertWithin {i j : Insertion} {depth : Nat} {v name : Value} {type : Hint}
    (hrun : Carrying.runIn (insertWithin depth v type name) world i s = (.ok (handle, j), t)) :
    t.parked = none ∧ handle.epoch = t.dataEpoch := by
  cases depth with
  | zero => exact absurd hrun Carrying.ok_of_throw
  | succ depth =>
    rw [insertWithin_succ] at hrun
    obtain ⟨_, _, _, -, hnamed⟩ := Carrying.ok_of_bind hrun
    obtain ⟨_, _, _, -, hinsert⟩ := Carrying.ok_of_bind hnamed
    obtain ⟨_, _, _, -, hmake⟩ := Carrying.ok_of_bind hinsert
    obtain ⟨_, _, _, -, hcreate⟩ := Carrying.ok_of_bind hmake
    obtain ⟨_, _, _, -, hinstance⟩ := Carrying.ok_of_bind hcreate
    exact current_of_createInstance (Carrying.ok_of_lift hinstance).1

/-- An object has the type that it is of, if that is a struct type. -/
theorem type_of_object {heap : Heap} {types : TypeTable} {struct : String} {id : Nat} {type : Hint}
    (htype : (heap.opened (.object struct id)).structType? types = some type) :
    types.isStruct (.struct struct) = true ∧ type = .struct struct := by
  change (if types.isStruct (.struct struct) then some (.struct struct) else none) = some type
    at htype
  obtain ⟨hstruct, hsame⟩ := Option.ite_none_right_eq_some.mp htype
  exact ⟨hstruct, (Option.some.inj hsame).symm⟩

/-- What an environment has remembered of a type that was not given a schema is what can be
built. -/
theorem buildSchema_of_schemaOf {struct : String} {id : Nat} {schema : ClassSchema}
    (hmemo : ({} : Memo).Agrees world.types world.config.tags s.memo)
    (hschema : (s.objectGraph world).schemaOf (.object struct id) = some schema) :
    buildSchema world.types world.config.tags (.struct struct) = .ok schema := by
  obtain ⟨type, htype, hknown⟩ := Option.bind_eq_some_iff.mp hschema
  obtain ⟨-, rfl⟩ := type_of_object htype
  exact hmemo.buildSchema_eq hknown

/-- A store of what was made holds the instances that represent a graph. -/
theorem Represents.holds {root : ObjectNode} {made : List Made} {before creations : List Creation}
    (hrepresents : Represents (s.objectGraph world) root made)
    (hmemo : ({} : Memo).Agrees world.types world.config.tags s.memo)
    (htyped : WellTyped world (s.objectGraph world) root)
    (hapart : (s.objectGraph world).NamesApart root)
    (hcreations : creations = before ++ made.map Made.creation) :
    ∀ m ∈ made, (Store.ofCreations creations).Holds m := by
  have hreaches : ∀ m ∈ made, (s.objectGraph world).Reaches root m.node := fun m hm ↦
    (hrepresents.objects m.node).mp (List.mem_map_of_mem hm)
  refine holds_ofCreations hcreations hrepresents.names
    (fun m hm other hother hclass ↦ ?_) fun m hm ↦ ?_
  · obtain ⟨A, hA, hnameA, hslotsA, -⟩ := hrepresents.slots m hm
    obtain ⟨B, hB, hnameB, hslotsB, -⟩ := hrepresents.slots other hother
    obtain rfl := hapart _ _ A B (hreaches m hm) (hreaches other hother) hA hB
      (hnameA.symm.trans (hclass.trans hnameB))
    rw [hslotsA, hslotsB]
  · obtain ⟨schema, hschema, -, hslots, -⟩ := hrepresents.slots m hm
    obtain ⟨struct, id, hvalue, -⟩ := htyped m.node (hreaches m hm)
    rw [hvalue] at hschema
    obtain ⟨-, -, hnodup, -⟩ := exists_fields_of_buildSchema (buildSchema_of_schemaOf hmemo hschema)
    rwa [hslots]

end

/-! ### There and back -/

/-- An insertion that succeeded, and what is counted on to get its object back. It took place in a
run that began with no type reflected. The graph of the object has values of the types of its
fields, refers to a cell with one type only and has types of different names. The engine gives fresh
names, gives instances the names that it is asked to, and answers from a store of what was made. The
functions that it calls meanwhile leave the graph alone and the environment open. -/
structure Inserted (world : World) (s t : State) (v name : Value) (handle : InstanceHandle) :
    Prop where
  coherent : (s.objectGraph world).Coherent v.rootNode
  typed : WellTyped world (s.objectGraph world) v.rootNode
  apart : (s.objectGraph world).NamesApart v.rootNode
  reached : ∃ begun : State, begun.memo = {} ∧ Evolves world.setup .acting begun s
  fresh : NamesFreshly world.engine s.history
    (fun given ↦ (s.heap.content name).matchable = .ok given)
  asAsked : NamesAsAsked world.engine s.history
  answers : Answers world.engine (Store.ofCreations t.creations) t.history
  calm : Calm world s ((s.objectGraph world).Intact v.rootNode)
  isOpen : t.closed = false
  succeeds : (insert v name).runIn world s = (.ok handle, t)

namespace Inserted

variable {world : World} {s t : State} {struct : String} {id : Nat} {name : Value}
variable {handle : InstanceHandle}

theorem isStruct (hinserted : Inserted world s t (.object struct id) name handle) :
    world.types.isStruct (.struct struct) = true := by
  obtain ⟨type, -, htype, -⟩ := ok_of_insert hinserted.succeeds
  exact (type_of_object htype).1

theorem memo_agrees {v : Value} (hinserted : Inserted world s t v name handle) :
    ({} : Memo).Agrees world.types world.config.tags s.memo := by
  obtain ⟨begun, hempty, hrun⟩ := hinserted.reached
  exact hempty ▸ hrun.memo_agrees

/-- An insertion that succeeded went through everything that is reached, and what it made is
stored. -/
theorem exists_inserts (hinserted : Inserted world s t (.object struct id) name handle)
    (hworld : world.Orderly) :
    let graph := s.objectGraph world
    let root := (Value.object struct id).rootNode
    ∃ made after, Inserts graph (Encodes (graph.Intact root)) callLimit [] [root]
        [.instanceName handle.name] made after ∧
      (∀ n, graph.Reaches root n → n.id ∈ after.map (·.1)) ∧
      (∀ m ∈ made, (Store.ofCreations t.creations).Holds m) ∧
      t.parked = none ∧ handle.epoch = t.dataEpoch := by
  intro graph root
  have hins : Insertable world s root (graph.Intact root)
      (fun given ↦ (s.heap.content name).matchable = .ok given) :=
    { orderly := hworld
      placed := rfl
      agrees := fun _ hkeep ↦ hkeep.agrees
      calm := hinserted.calm
      fresh := hinserted.fresh
      asAsked := hinserted.asAsked }
  obtain ⟨type, j, htype, hwithin⟩ := ok_of_insert hinserted.succeeds
  have hbegin : Midway world s (graph.Intact root)
      (fun given ↦ (s.heap.content name).matchable = .ok given) [] {} s :=
    ⟨.refl ⟨fun _ _ ↦ rfl, fun _ _ _ _ _ ↦ rfl⟩, rfl, fun _ hmem ↦ nomatch hmem⟩
  obtain ⟨after, -, made, hinserts, hcreations⟩ := performs_insertWithin hins callLimit
    (b := root) .refl nofun htype hbegin (fun _ hmem ↦ nomatch hmem)
    (fun given hgiven ↦ ⟨hgiven, fun hmem ↦ nomatch hmem⟩) hwithin
  obtain ⟨hrepresents, -⟩ := hinserts.represents hinserted.coherent rfl
  refine ⟨made, after, hinserts, fun n hn ↦ ?_, ?_, current_of_insertWithin hwithin⟩
  · obtain ⟨m, hm, rfl⟩ := List.mem_map.mp ((hrepresents.objects n).mpr hn)
    have hnamed : (m.node.id, m.name) ∈ after := hinserts.namingOf_subset (List.mem_map_of_mem hm)
    exact List.mem_map_of_mem (f := (·.1)) hnamed
  · exact hrepresents.holds hinserted.memo_agrees hinserted.typed hinserted.apart hcreations

/-- What the extraction of what was inserted takes place in. -/
def scene (hinserted : Inserted world s t (.object struct id) name handle)
    (hmakes : ∀ n made i, (s.objectGraph world).Reaches (Value.object struct id).rootNode n →
      n.value = .object made i → world.Makes t made) : Scene where
  world := world
  store := Store.ofCreations t.creations
  graph := s.objectGraph world
  root := (Value.object struct id).rootNode
  keep := (s.objectGraph world).Intact (Value.object struct id).rootNode
  begun := { t with visited := [] }
  placed := rfl
  typed := hinserted.typed
  coherent := hinserted.coherent
  kept _ hkeep n attr v hn hattr := hkeep.content n attr v hn hattr
  schema _ _ _ _ _ hvalue hschema :=
    buildSchema_of_schemaOf hinserted.memo_agrees (hvalue ▸ hschema)
  makes n struct i hn hvalue u hu :=
    hmakes n struct i hn hvalue u ⟨hu.named, hu.labels, hu.size, hu.cells⟩

end Inserted

/-- What was inserted is extracted as it was, if new objects of its types can be made: as an object
of the same type, with a copy of everything that is reached from it. -/
theorem extract_insert_isomorphic (types : TypeTable) (config : Config)
    (engine : Array Event → Command → Reply) (depth : Nat) (s t : State) (struct : String)
    (id : Nat) (name : Value) (handle : InstanceHandle) :
    let world := World.ofDepth types config engine depth
    let graph := s.objectGraph world
    let root := (Value.object struct id).rootNode
    Inserted world s t (.object struct id) name handle →
    (∀ n made i, graph.Reaches root n → n.value = .object made i → world.Makes t made) →
    ∃ u cell, (extract (.instanceHandle handle) (.hint (.struct struct))).runIn world t =
        (.ok (.object struct (cell id)), u) ∧
      IsCopy world graph root t.heap u.heap cell := by
  intro world graph root hinserted hmakes
  obtain ⟨made, after, hinserts, hnamed, hholds, hparked, hepoch⟩ :=
    hinserted.exists_inserts (World.ofDepth_orderly types config engine depth)
  let σ : Scene := hinserted.scene hmakes
  have hhalfway : Halfway σ [] σ.begun :=
    { ready := ⟨hinserted.isOpen, hparked, hinserted.answers⟩
      epoch := rfl
      continues := .refl _
      visited := rfl
      originals := .nil
      names := .nil
      apart := .nil
      fresh := nofun
      reached := nofun }
  -- The extraction may go as deep as the insertion went, which began with one call of the limit.
  obtain ⟨inner, hdeep⟩ : ∃ inner, callLimit = inner + 1 := ⟨999, rfl⟩
  obtain ⟨w, more, u, hextract, hcopied, rfl, hcopy⟩ : Attains σ [] σ.begun after root.value
      (extractInstance (extractWithin callLimit) handle (.struct struct) none) := by
    rw [hdeep] at hinserts ⊢
    cases hinserts with
    | again _ hagain _ => cases hagain
    | first hpresent hschema hnew hname hinside hfills hrest =>
      cases hrest
      exact attains_instance (recalls σ inner) .refl rfl hinserted.isStruct hepoch
        hschema List.not_mem_nil
        List.not_mem_nil hinside hfills (fun m hm ↦ hholds m (List.mem_append_left _ hm))
        (hholds _ (List.mem_append_right _ List.mem_cons_self)) hhalfway
  have hw : w = .object struct (copiedTo more id) :=
    hcopy (copiedTo more) (moves_copiedTo hcopied.halfway.originals)
  have hinto : (Value.hint (.struct struct)).splitDestination world.types t.heap =
      .ok (.struct struct, none) :=
    rfl
  have hextraction :
      extraction world t handle (Hint.struct struct).forInstance none callLimit = (.ok w, u) :=
    hextract
  refine ⟨{ u with visited := t.visited }, copiedTo more, ?_, hcopied.isCopy hnamed⟩
  rw [runIn_extract (Heap.content_instanceHandle _ _) hinto, hextraction, hw]

/-! ### An engine that stores -/

/-- An engine that stores the instances that were made and answers from what it stored. It knows
every class, with slots of one value each. Its fresh names are told apart by their lengths. -/
def storingEngine (slots : List String) (history : Array Event) : Command → Reply
  | .evaluate e =>
    match (Store.ofCreations (history.toList.filterMap Event.creation?)).answer? e, e with
    | some v, _ => { outcome := .ok v }
    | none, .freshName =>
      { outcome := .ok (.symbol ("gen" ++ String.ofList (List.replicate history.size '1'))) }
    | none, .makeInstance (some name) _ _ => { outcome := .ok (.instanceName name) }
    | none, .classQuery _ _ => { outcome := .ok (.bool true) }
    | none, .classSlots _ => { outcome := .ok (.list (slots.map .symbol)) }
    | none, _ => { outcome := .ok (.bool false) }
  | _ => { outcome := .ok (.bool false) }

theorem storingEngine_calls (slots : List String) (history : Array Event) (c : Command) :
    (storingEngine slots history c).calls = [] := by
  unfold storingEngine
  split
  · split <;> rfl
  · rfl

theorem storingEngine_namesFreshly (slots : List String) :
    NamesFreshly (storingEngine slots) #[]
      (fun given ↦ Value.matchable (.text "a") = .ok given) :=
  .of_injective (fun _ ↦ rfl) gen_replicate_injective matchable_text_ne_gen

theorem Store.creation?_of_answer? {store : Store} {e : Expression}
    (he : (store.answer? e).isSome) :
    e.asked.creation? = none := by
  cases e <;> first | rfl | cases he

theorem storingEngine_answers (slots : List String) (t : State) :
    Answers (storingEngine slots) (Store.ofCreations t.creations) t.history := by
  intro asked e v hasked he
  have hnone : (asked.map Expression.asked).filterMap Event.creation? = [] := by
    rw [List.filterMap_eq_nil_iff]
    intro event hevent
    obtain ⟨q, hq, rfl⟩ := List.mem_map.mp hevent
    exact Store.creation?_of_answer? (hasked q hq)
  have hsame : (t.history ++ (asked.map Expression.asked).toArray).toList.filterMap
      Event.creation? = t.creations := by
    simp [hnone, State.creations]
  unfold storingEngine
  dsimp only
  rw [hsame, he]

/-- A graph that is inserted into an engine that stores can be counted on. -/
theorem exists_inserted_of_storingEngine {types : TypeTable} {slots : List String} {s : State}
    {v : Value} (hmemo : s.memo = {}) (hhistory : s.history = #[]) :
    let world := World.ofDepth types { autoSynthesize := false } (storingEngine slots) 0
    let graph := s.objectGraph world
    let run := (insert v (.text "a")).runIn world s
    graph.Coherent v.rootNode → WellTyped world graph v.rootNode → graph.NamesApart v.rootNode →
    run.1.toOption.isSome = true ∧ run.2.closed = false →
    ∃ handle, run.1 = .ok handle ∧ Inserted world s run.2 v (.text "a") handle := by
  intro world graph run hcoherent htyped hapart ⟨hsome, hopen⟩
  cases hanswer : run.1 with
  | error e => simp [hanswer, Except.toOption] at hsome
  | ok handle =>
    exact ⟨handle, rfl,
      { coherent := hcoherent
        typed := htyped
        apart := hapart
        reached := ⟨s, hmemo, .refl _ s⟩
        fresh := by rw [Heap.content_text, hhistory]; exact storingEngine_namesFreshly slots
        asAsked := fun _ _ _ _ _ _ houtcome ↦ .inl (Except.ok.inj houtcome).symm
        answers := storingEngine_answers slots run.2
        calm := calm_of_no_calls _ _ (storingEngine_calls slots)
        isOpen := hopen
        succeeds := Prod.ext hanswer rfl }⟩

theorem namesApart_of_one_type {g : ObjectGraph} {root : ObjectNode} {struct : String}
    (htype : ∀ n, g.Reaches root n → ∃ id, n.value = .object struct id) : g.NamesApart root := by
  intro a b A B ha hb hA hB _
  obtain ⟨i, hi⟩ := htype a ha
  obtain ⟨j, hj⟩ := htype b hb
  rw [hi] at hA
  rw [hj] at hB
  exact Option.some.inj (hA.symm.trans hB)

/-! ### A ring, there and back -/

theorem ring_wellTyped (config : Config) (engine : Array Event → Command → Reply) :
    let world := World.ofDepth ringTypes config engine 0
    WellTyped world (ringState.objectGraph world) (Value.object "Ring" 0).rootNode := by
  intro world n hn
  have hfields : ∀ fields, world.types.fields world.config.tags (.struct "Ring") = .ok fields →
      ∀ f ∈ fields, f.attr = "next" ∧ f.hint = .union .word [.struct "Ring", .noneType] := by
    intro fields hfields f hf
    cases hfields
    obtain rfl := List.mem_singleton.mp hf
    exact ⟨rfl, rfl⟩
  have hunwrap : (Hint.union .word [.struct "Ring", .noneType]).unwrapOptional =
      (.struct "Ring", true) := rfl
  obtain hvalue | hvalue := ring_reaches hn
  all_goals
    rw [hvalue]
    refine ⟨_, _, rfl, fun fields hdeclared f hf ↦ ?_⟩
    obtain ⟨hattr, hhint⟩ := hfields fields hdeclared f hf
    rw [hattr, hhint]
    exact ⟨_, rfl, .object hunwrap rfl⟩

theorem ring_makes (config : Config) (engine : Array Event → Command → Reply) (s : State) :
    (World.ofDepth ringTypes config engine 0).Makes s "Ring" := by
  refine World.makes_of_initial rfl rfl (show ringTypes.kindOf _ ≠ .model by decide)
    (fun number f hf ↦ ?_) s
  obtain rfl := List.mem_singleton.mp hf
  refine ⟨.anew .none, rfl, ?_⟩
  show (Literal.none.readWithin callLimit).Succeeds _
  rw [Literal.readWithin]
  exact .pure _

/-- Two objects that refer to each other come back as two objects that do. -/
theorem extract_insert_isomorphic_ring :
    let world := World.ofDepth ringTypes { autoSynthesize := false } (storingEngine ["next"]) 0
    let run := (insert (.object "Ring" 0) (.text "a")).runIn world ringState
    ∃ handle u cell, run.1 = .ok handle ∧
      (extract (.instanceHandle handle) (.hint (.struct "Ring"))).runIn world run.2 =
        (.ok (.object "Ring" (cell 0)), u) ∧
      IsCopy world (ringState.objectGraph world) (Value.object "Ring" 0).rootNode run.2.heap
        u.heap cell := by
  intro world run
  have hsucceeds : run.1.toOption.isSome = true ∧ run.2.closed = false := by
    dsimp only [run]
    rw [runIn_insert _ _ rfl rfl, Heap.content_text]
    decide +kernel
  have hreaches : ∀ n, (ringState.objectGraph world).Reaches (Value.object "Ring" 0).rootNode n →
      ∃ id, n.value = .object "Ring" id := fun n hn ↦
    (ring_reaches hn).elim (fun hvalue ↦ ⟨0, hvalue⟩) fun hvalue ↦ ⟨1, hvalue⟩
  obtain ⟨handle, hanswer, hinserted⟩ :=
    exists_inserted_of_storingEngine rfl rfl (ring_coherent world)
    (ring_wellTyped _ _) (namesApart_of_one_type hreaches) hsucceeds
  obtain ⟨u, cell, hextract, hcopy⟩ :=
    extract_insert_isomorphic ringTypes { autoSynthesize := false }
    (storingEngine ["next"]) 0 ringState run.2 "Ring" 0 (.text "a") handle hinserted
    (fun n made i hn hvalue ↦ by
      obtain ⟨id, hring⟩ := hreaches n hn
      obtain ⟨rfl, -⟩ := Value.object.inj (hring.symm.trans hvalue)
      exact ring_makes _ _ _)
  exact ⟨handle, u, cell, hanswer, hextract, hcopy⟩

/-! ### Types that cannot be made -/

/-- Whatever is stored, no instance is extracted into a struct type of which no object can be
made. -/
theorem extract_ne_ok_of_unmade {world : World} {struct : String}
    (hunmade : ∀ s t o, Act.runIn (do blank (.struct struct) (← fieldsAnew (.struct struct)))
      world s ≠ (.ok o, t))
    (h : InstanceHandle) (s t : State) (w : Value) :
    (extract (.instanceHandle h) (.hint (.struct struct))).runIn world s ≠ (.ok w, t) := by
  intro hrun
  have hinto : (Value.hint (.struct struct)).splitDestination world.types s.heap =
      .ok (.struct struct, none) :=
    rfl
  rw [runIn_extract (Heap.content_instanceHandle _ _) hinto] at hrun
  have hanswer : (extraction world s h (.struct struct) none callLimit).1 = .ok w :=
    congrArg Prod.fst hrun
  have hextraction : extraction world s h (.struct struct) none callLimit = (.ok w, _) :=
    Prod.ext hanswer rfl
  unfold extraction extractInstance at hextraction
  rw [runIn_bind_of_ok (runIn_visitedFor h.name)] at hextraction
  obtain ⟨names, u, -, hread⟩ := ok_of_bind hextraction
  rw [runIn_bind_of_ok (runIn_read world u)] at hread
  obtain ⟨-, hanew⟩ := ok_of_refuse hread
  obtain ⟨fields, x, hfields, hnew⟩ := ok_of_bind hanew
  obtain ⟨o, y, hblank, -⟩ := ok_of_bind hnew
  exact hunmade u y o (by rw [runIn_bind_of_ok hfields]; exact hblank)

/-- A struct type with a field whose default is built from a text as if it were an integer. -/
def rashTypes : TypeTable where
  types := [{ name := "Rash", kind := .annotated,
              fields := [{ attr := "next", hint := .union .word [.struct "Rash", .noneType],
                           factory := some (.engine (.integer (.text "x"))) }] }]

/-- An object that refers to no other one. -/
def rashState : State where
  heap.cells := #[.object [("next", .none)]]

theorem rash_reaches {world : World} {n : ObjectNode}
    (hn : (rashState.objectGraph world).Reaches (Value.object "Rash" 0).rootNode n) :
    n.value = .object "Rash" 0 := by
  induction hn with
  | refl => rfl
  | @tail owner n _ hrefers ih =>
    obtain ⟨position, item, hstands⟩ := ObjectGraph.stands_of_mem_nodes hrefers.1
    obtain ⟨schema, slot, v, -, -, -, hattr, hitem⟩ := hstands.value
    rw [ih] at hattr
    obtain rfl : Value.none = v := by
      change List.lookup slot.attr [("next", Value.none)] = some v at hattr
      rw [List.lookup_cons] at hattr
      split at hattr
      · exact Option.some.inj hattr
      · cases hattr
    have habsent : n.value = .none := by
      unfold SlotSchema.targets at hitem
      split at hitem
      · cases hitem
      · obtain ⟨_, hv⟩ := List.getElem?_eq_some_iff.mp hitem
        simpa using hv.symm
    exact absurd (by rw [habsent]; rfl) hrefers.2

theorem rash_wellTyped (config : Config) (engine : Array Event → Command → Reply) :
    let world := World.ofDepth rashTypes config engine 0
    WellTyped world (rashState.objectGraph world) (Value.object "Rash" 0).rootNode := by
  intro world n hn
  rw [rash_reaches hn]
  refine ⟨"Rash", 0, rfl, fun fields hfields f hf ↦ ?_⟩
  cases hfields
  obtain rfl := List.mem_singleton.mp hf
  have hunwrap : (Hint.union .word [.struct "Rash", .noneType]).unwrapOptional =
      (.struct "Rash", true) := rfl
  exact ⟨.none, rfl, .absent hunwrap rfl⟩

/-- What the default is built from cannot be read. -/
theorem rash_not_made (config : Config) (engine : Array Event → Command → Reply) (s t : State)
    (o : Value) :
    Act.runIn (do blank (.struct "Rash") (← fieldsAnew (.struct "Rash")))
      (World.ofDepth rashTypes config engine 0) s ≠ (.ok o, t) := by
  intro hrun
  have hfactory : ∀ u w x, (Literal.engine (.integer (.text "x"))).read.runIn
      (World.ofDepth rashTypes config engine 0) u ≠ (.ok w, x) := by
    intro u w x hread
    unfold Literal.read at hread
    rw [Literal.readWithin, EngineLiteral.readWithin, Literal.readWithin] at hread
    cases hread
  rw [runIn_bind_of_ok (runIn_fieldsAnew rfl)] at hrun
  obtain ⟨_, u, hworld, hblank⟩ := ok_of_bind hrun
  cases hworld
  obtain ⟨id, x, -, hfill⟩ := ok_of_bind hblank
  obtain ⟨_, y, hassign, -⟩ := ok_of_bind hfill
  obtain ⟨_, z, hfirst, -⟩ := ok_of_bind hassign
  obtain ⟨w, z, hread, -⟩ := ok_of_bind hfirst
  exact hfactory _ _ _ hread

/-- An object whose default cannot be made is inserted, and its instance cannot be extracted. -/
theorem extract_insert_fails :
    let world := World.ofDepth rashTypes { autoSynthesize := false } (storingEngine ["next"]) 0
    let run := (insert (.object "Rash" 0) (.text "a")).runIn world rashState
    ∃ handle, Inserted world rashState run.2 (.object "Rash" 0) (.text "a") handle ∧
      ∀ w u, (extract (.instanceHandle handle) (.hint (.struct "Rash"))).runIn world run.2 ≠
        (.ok w, u) := by
  intro world run
  have hsucceeds : run.1.toOption.isSome = true ∧ run.2.closed = false := by
    dsimp only [run]
    rw [runIn_insert _ _ rfl rfl, Heap.content_text]
    decide +kernel
  have hcoherent : (rashState.objectGraph world).Coherent (Value.object "Rash" 0).rootNode :=
    fun a b ha hb _ _ _ ↦ (rash_reaches ha).trans (rash_reaches hb).symm
  obtain ⟨handle, -, hinserted⟩ :=
    exists_inserted_of_storingEngine rfl rfl hcoherent (rash_wellTyped _ _)
    (namesApart_of_one_type fun n hn ↦ ⟨0, rash_reaches hn⟩) hsucceeds
  exact ⟨handle, hinserted, fun w u ↦ extract_ne_ok_of_unmade (rash_not_made _ _) handle run.2 u w⟩

end RuleMarshal
