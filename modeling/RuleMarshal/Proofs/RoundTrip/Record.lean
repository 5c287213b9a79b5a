import Mathlib.Data.List.Nodup
import RuleMarshal.Proofs.Engine.Native
import RuleMarshal.Proofs.Extraction.Store
import RuleMarshal.Proofs.Insertion.Simulation
/-!
The record of what was made. A store can be read off the orders to make instances: an instance is as
it was made last under its name (`Store.ofCreations`), so it holds what an insertion made
(`holds_ofCreations`). An engine that answers from such a store is asked for an instance's slots and
for what they hold, and answers at once (`runIn_slotNames`, `runIn_slot`): nothing but the history
changes.
-/

set_option autoImplicit false
set_option relaxedAutoImplicit false

namespace RuleMarshal

open Act

/-! ### What was made -/

/-- What the binding hands over for the value of a term. -/
def Term.native (t : Term) : Native := t.value.toNative.toOption.getD .null

/-- The store of the instances that were made: each as it was made last under its name, of a class
with the slots that its instances were made with last. -/
def Store.ofCreations (creations : List Creation) : Store where
  instances := creations.reverse.filterMap fun c ↦ c.name.map fun name ↦ (name, c.className)
  slots className :=
    ((creations.reverse.find? fun c ↦ c.className = className).map fun c ↦
      c.slots.map (·.1)).getD []
  value name slot :=
    (((creations.reverse.find? fun c ↦ c.name = some name).bind fun c ↦ c.slots.lookup slot).map
      Term.native).getD .null

/-- Whether a store holds an instance as it was made. -/
structure Store.Holds (store : Store) (m : Made) : Prop where
  instances : store.instances.lookup m.name = some m.className
  slots : store.slots m.className = m.slots.map (·.1)
  value : ∀ slot t, (slot, t) ∈ m.slots → store.value m.name slot = t.native

section

variable {creations before : List Creation} {made : List Made}

theorem lookup_of_find? {creations : List Creation} {name : String} {c : Creation}
    (hfound : creations.find? (fun c ↦ c.name = some name) = some c) :
    (creations.filterMap fun c ↦ c.name.map fun name ↦ (name, c.className)).lookup name =
      some c.className := by
  induction creations with
  | nil => cases hfound
  | cons first rest ih =>
    rw [List.find?_cons] at hfound
    rw [List.filterMap_cons]
    by_cases hname : first.name = some name
    · simp only [hname, decide_true] at hfound
      cases hfound
      simp [hname]
    · simp only [hname, decide_false] at hfound
      cases hfirst : first.name with
      | none => simpa [hfirst] using ih hfound
      | some other =>
        have hne : (name == other) = false := by
          simpa [hfirst] using fun heq : name = other ↦ hname (by rw [hfirst, heq])
        simpa [hfirst, List.lookup_cons, hne] using ih hfound

/-- What is found from the end of some orders is what was made last. -/
theorem find?_creations_of_mem {p : Creation → Bool} {m : Made}
    (hcreations : creations = before ++ made.map Made.creation) (hm : m ∈ made)
    (hp : p m.creation = true) :
    ∃ last ∈ made, p last.creation = true ∧ creations.reverse.find? p = some last.creation := by
  rw [hcreations, List.reverse_append, List.find?_append]
  have hsome : ((made.map Made.creation).reverse.find? p).isSome := by
    rw [List.find?_isSome]
    exact ⟨m.creation, List.mem_reverse.mpr (List.mem_map_of_mem hm), hp⟩
  obtain ⟨c, hc⟩ := Option.isSome_iff_exists.mp hsome
  obtain ⟨last, hlast, rfl⟩ := List.mem_map.mp (List.mem_reverse.mp (List.mem_of_find?_eq_some hc))
  exact ⟨last, hlast, List.find?_some hc, by rw [hc, Option.some_or]⟩

/-- The store of what was made holds each instance of an insertion, if these were made last, under
names of their own, and alike where they are of one class. -/
theorem holds_ofCreations (hcreations : creations = before ++ made.map Made.creation)
    (hnames : (made.map (·.name)).Nodup)
    (hclasses : ∀ m ∈ made, ∀ other ∈ made, m.className = other.className →
      m.slots.map (·.1) = other.slots.map (·.1))
    (hslots : ∀ m ∈ made, (m.slots.map (·.1)).Nodup) :
    ∀ m ∈ made, (Store.ofCreations creations).Holds m := by
  intro m hm
  obtain ⟨last, hlast, hname, hfound⟩ := find?_creations_of_mem (p := fun c ↦ c.name = some m.name)
    hcreations hm (by simp [Made.creation])
  obtain rfl : last = m := by
    have hsame : last.name = m.name := by simpa [Made.creation] using hname
    exact List.inj_on_of_nodup_map hnames hlast hm hsame
  refine ⟨lookup_of_find? hfound, ?_, fun slot t hmem ↦ ?_⟩
  · obtain ⟨other, hother, hclass, hfoundClass⟩ :=
      find?_creations_of_mem (p := fun c ↦ c.className = last.className) hcreations hm
        (by simp [Made.creation])
    show ((creations.reverse.find? _).map _).getD [] = _
    rw [hfoundClass]
    exact hclasses other hother last hm (of_decide_eq_true hclass)
  · show (((creations.reverse.find? _).bind _).map _).getD _ = _
    rw [hfound]
    show ((last.slots.lookup slot).map _).getD _ = _
    rw [lookup_of_mem_of_nodup (hslots last hm) hmem]
    rfl

end

theorem Term.toEngine_native {world : World} {t : Term} (hdata : t.value.isData = true)
    (s : State) :
    t.native.toEngine.runIn world s = (.ok t.value, s) := by
  obtain ⟨v, hv, hrun⟩ := EngineValue.exists_toNative_of_isData hdata
  rw [native, hv]
  exact hrun world s

/-! ### Questions and answers -/

/-- What a state is after questions that an engine answers at once. -/
def State.asking (s : State) (asked : List Expression) : State :=
  { s with history := s.history ++ (asked.map Expression.asked).toArray }

/-- An environment that is open, with nothing parked, and an engine that answers from a store. -/
structure Ready (world : World) (store : Store) (s : State) : Prop where
  isOpen : s.closed = false
  parked : s.parked = none
  answers : Answers world.engine store s.history

section

variable {world : World} {store : Store} {s : State}

theorem State.asking_asking (s : State) (asked more : List Expression) :
    (s.asking asked).asking more = s.asking (asked ++ more) := by
  simp [asking, Array.append_assoc]

theorem Ready.asking (hs : Ready world store s) (asked : List Expression)
    (hasked : ∀ q ∈ asked, (store.answer? q).isSome) : Ready world store (s.asking asked) :=
  ⟨hs.isOpen, hs.parked, hs.answers.append hasked⟩

theorem State.asking_singleton (s : State) (e : Expression) :
    s.asking [e] = { s with history := s.history.push (.command (.evaluate e)) } := by
  simp [asking, Expression.asked]

/-- A question that the engine answers at once comes to what its answer becomes once it was
asked. -/
theorem runIn_eval_asking (hopen : s.closed = false) {e : Expression} {v : Native} {r : EngineValue}
    {t : State} (hreply : world.engine s.history (.evaluate e) = { outcome := .ok v })
    (hv : v.toEngine.runIn world (s.asking [e]) = (.ok r, t)) (hparked : t.parked = none) :
    (eval e).runIn world s = (.ok r, t) :=
  runIn_eval_of_reply hopen hreply (s.asking_singleton e ▸ hv) hparked

theorem runIn_eval_of_answer (hs : Ready world store s) {e : Expression} {v : Native}
    {r : EngineValue} (he : store.answer? e = some v)
    (hv : ∀ u, v.toEngine.runIn world u = (.ok r, u)) :
    (eval e).runIn world s = (.ok r, s.asking [e]) :=
  runIn_eval_asking hs.isOpen (hs.answers.reply he) (hv _) hs.parked

/-! ### Instances of a store -/

theorem runIn_check (hs : Ready world store s) {h : InstanceHandle}
    (hcurrent : s.dataEpoch = h.epoch) (hknows : store.Knows h.name) :
    h.check.runIn world s = (.ok ⟨⟩, s.asking [.instanceExists h.name]) := by
  have hexists : (eval (.instanceExists h.name)).runIn world s =
      (.ok (.symbol "TRUE"), s.asking [.instanceExists h.name]) := by
    refine runIn_eval_of_answer hs (v := .symbol "TRUE") ?_ fun _ ↦ rfl
    rw [Store.answer?, if_pos (show _ = true from hknows)]
  have halive : h.isAlive.runIn world s = (.ok true, s.asking [.instanceExists h.name]) := by
    have hcurrently : h.isCurrent s = true := by
      simp [InstanceHandle.isCurrent, hs.isOpen, hcurrent]
    have hgot : (get : Act State).runIn world s = (.ok s, s) := rfl
    unfold InstanceHandle.isAlive
    rw [runIn_bind_of_ok hgot, if_pos hcurrently]
    unfold evalTrue
    rw [runIn_bind_of_ok hexists]
    rfl
  unfold InstanceHandle.check
  rw [runIn_bind_of_ok halive]
  rfl

/-- What an instance is asked for its slots. -/
def slotNamesAsked (name className : String) : List Expression :=
  [.instanceExists name, .classOf name, .classSlots className]

/-- What an instance is asked for the value of a slot. -/
def slotAsked (name slot : String) : List Expression := [.instanceExists name, .readSlot name slot]

/-- An instance is asked for its slots and names them. -/
theorem runIn_slotNames (hs : Ready world store s) {h : InstanceHandle} {className : String}
    (hcurrent : s.dataEpoch = h.epoch) (hclass : store.instances.lookup h.name = some className) :
    h.slotNames.runIn world s =
      (.ok (store.slots className), s.asking (slotNamesAsked h.name className)) ∧
      Ready world store (s.asking (slotNamesAsked h.name className)) := by
  have hknows : store.Knows h.name := by simp [Store.Knows, hclass]
  have hfirst := hs.asking [.instanceExists h.name] (by simp [Store.answer?])
  have hasked : store.answer? (.classOf h.name) = some (.symbol className) := by
    simp [Store.answer?, hclass]
  have hclassOf : (eval (.classOf h.name)).runIn world (s.asking [.instanceExists h.name]) = _ :=
    runIn_eval_of_answer hfirst hasked fun _ ↦ rfl
  have hsecond := hfirst.asking [.classOf h.name] (by simp [hasked])
  obtain ⟨found, hfound, hslots⟩ := hknows.exists_class
  obtain rfl : className = found := Option.some.inj (hclass.symm.trans hfound)
  have hclassSlots : (eval (.classSlots className)).runIn world
      ((s.asking [.instanceExists h.name]).asking [.classOf h.name]) = _ :=
    runIn_eval_of_answer hsecond hslots (toEngine_symbols _)
  have hcontent : (content (.symbol className)).runIn world
      ((s.asking [.instanceExists h.name]).asking [.classOf h.name]) = (.ok className, _) := rfl
  constructor
  · unfold InstanceHandle.slotNames
    rw [runIn_bind_of_ok (runIn_check hs hcurrent hknows), runIn_bind_of_ok hclassOf,
      runIn_bind_of_ok hcontent, runIn_bind_of_ok hclassSlots]
    simp [State.asking_asking, slotNamesAsked]
  · have hthird := hsecond.asking [.classSlots className] (by simp [hslots])
    simpa [State.asking_asking, slotNamesAsked] using hthird

/-- An instance is asked for what a slot holds and tells it. -/
theorem runIn_slot (hs : Ready world store s) {h : InstanceHandle} {slot : String} {e : EngineValue}
    (hcurrent : s.dataEpoch = h.epoch) (haccepted : Text.SafeSymbol.accepts slot = true)
    (hslot : slot ∈ store.slotsOf h.name)
    (hvalue : ∀ u, (store.value h.name slot).toEngine.runIn world u = (.ok e, u)) :
    (h.slot (.text slot)).runIn world s = (.ok e, s.asking (slotAsked h.name slot)) ∧
      Ready world store (s.asking (slotAsked h.name slot)) := by
  have hknows : store.Knows h.name := by
    by_contra hunknown
    simp [Store.slotsOf, Option.not_isSome_iff_eq_none.mp hunknown] at hslot
  have hfirst := hs.asking [.instanceExists h.name] (by simp [Store.answer?])
  have hasked : store.answer? (.readSlot h.name slot) = some (store.value h.name slot) := by
    rw [Store.answer?, if_pos hslot]
  have hread := runIn_eval_of_answer hfirst hasked hvalue
  have hsymbol : (symbol .slot (.text slot)).runIn world (s.asking [.instanceExists h.name]) =
      (.ok slot, s.asking [.instanceExists h.name]) := by
    simp [symbol, symbolText, Value.hostText?, HostText.content, haccepted]
  constructor
  · unfold InstanceHandle.slot
    rw [runIn_bind_of_ok (runIn_check hs hcurrent hknows), runIn_bind_of_ok hsymbol, hread,
      State.asking_asking]
    rfl
  · have hsecond := hfirst.asking [.readSlot h.name slot] (by simp [hasked])
    rwa [State.asking_asking] at hsecond

end

end RuleMarshal
