import RuleMarshal.Proofs.Extraction.Outcome
import RuleMarshal.Proofs.RoundTrip.Filling
import RuleMarshal.Proofs.Session.Refusal
/-!
Facts that refer to each other. What was built for a fact is not remembered: a fact that is met
again is extracted anew, unlike an instance. Where each of some facts refers to one of them in the
slot of a field of the type that it is extracted into, a round of questions leads from one to the
next (`exists_round`), so that an extraction goes as deep as it may and fails there
(`runIn_extractFact_of_chained`). For a fact that refers to itself no number of commands is enough
(`fact_cycle_unbounded`).
-/

set_option autoImplicit false
set_option relaxedAutoImplicit false

namespace RuleMarshal

open Act

/-! ### Stores of facts -/

/-- Facts with their slots, and what the slots hold. -/
structure FactStore where
  facts : List (Int × List String)
  value : Int → String → Native

namespace FactStore

/-- The answer to what is asked of facts; other expressions have none. -/
def answer? (store : FactStore) : Expression → Option Native
  | .factExists i => some (.symbol (if (store.facts.lookup i).isSome then "TRUE" else "FALSE"))
  | .factSlotNames i => (store.facts.lookup i).map fun names ↦ .list (names.map .symbol)
  | .factSlot i slot =>
    if slot ∈ (store.facts.lookup i).getD [] then some (store.value i slot) else none
  | _ => none

/-- An engine that answers from a store of facts, and refuses what the store has no answer to. -/
def engine (store : FactStore) (_ : Array Event) : Command → Reply
  | .evaluate e =>
    match store.answer? e with
    | some v => { outcome := .ok v }
    | none => { outcome := .error "no answer" }
  | _ => {}

/-- Whether an engine answers from a store of facts whenever it is asked, and does nothing else
then. -/
def Answers (store : FactStore) (engine : Array Event → Command → Reply) : Prop :=
  ∀ past e v, store.answer? e = some v → engine past (.evaluate e) = { outcome := .ok v }

theorem answers_engine (store : FactStore) : store.Answers store.engine := by
  intro past e v he
  simp [engine, he]

/-- Whether every fact of a set refers to one of the set in the slot of a field, and has no slots
for other fields. -/
structure Chained (store : FactStore) (others : List Field) (f : Field) (chain : Set Int) :
    Prop where
  slots : ∀ i ∈ chain, ∃ names, store.facts.lookup i = some names ∧ names ≠ [orderedSlot] ∧
    f.engineName ∈ names ∧ ∀ g ∈ others, g.engineName ∉ names
  next : ∀ i ∈ chain, ∃ j ∈ chain, ∃ ofTemplate, store.value i f.engineName = .fact j ofTemplate

end FactStore

/-- Whether a struct type has a field of its own type, behind some other fields. -/
structure World.Links (world : World) (struct : String) (others : List Field) (f : Field) :
    Prop where
  isStruct : world.types.isStruct (.struct struct) = true
  fields : ∃ after, world.types.fields world.config.tags (.struct struct) =
    .ok (others ++ f :: after)
  unwraps : ∃ optional, f.hint.unwrapOptional = (.struct struct, optional)
  accepted : Text.SafeSymbol.accepts f.engineName = true

/-! ### Questions about a fact -/

/-- A state in the course of an extraction that began in another: the environment is open, and
nothing is parked. -/
structure EnRoute (begun s : State) : Prop where
  isOpen : s.closed = false
  parked : s.parked = none
  continues : begun.Continues s

/-- What a fact is asked for its slots. -/
def factSlotNamesAsked (i : Int) : List Expression := [.factExists i, .factSlotNames i]

/-- What a fact is asked for the value of a slot. -/
def factSlotAsked (i : Int) (slot : String) : List Expression := [.factExists i, .factSlot i slot]

section

variable {world : World} {store : FactStore} {begun s t u : State} {h : FactHandle}
variable {names : List String}

theorem EnRoute.asking (hs : EnRoute begun s) (asked : List Expression) :
    EnRoute begun (s.asking asked) :=
  ⟨hs.isOpen, hs.parked, hs.continues.of_eq rfl rfl rfl⟩

/-- A new object on the way. -/
theorem EnRoute.anew (hs : EnRoute begun s) {id : Nat} (hanew : Anew s id t) : EnRoute begun t := by
  have hcontinues := hanew.continues hs.continues
  obtain ⟨⟨heap, labels, readings, rfl, -⟩, -⟩ := hanew
  exact ⟨hs.isOpen, hs.parked, hcontinues⟩

theorem EnRoute.numbered (hs : EnRoute begun s) (serial : Nat) :
    EnRoute begun { s with serial := serial } :=
  ⟨hs.isOpen, hs.parked, hs.continues.of_eq rfl rfl rfl⟩

theorem State.size_history_asking (s : State) (asked : List Expression) :
    (s.asking asked).history.size = s.history.size + asked.length := by
  simp [asking]

theorem runIn_factCheck (hanswers : store.Answers world.engine) (hs : EnRoute begun s)
    (hcurrent : h.epoch = s.dataEpoch) (hknown : store.facts.lookup h.index = some names) :
    h.check.runIn world s = (.ok ⟨⟩, s.asking [.factExists h.index]) := by
  have hasked : store.answer? (.factExists h.index) = some (.symbol "TRUE") := by
    simp [FactStore.answer?, hknown]
  have hexists : (eval (.factExists h.index)).runIn world s =
      (.ok (.symbol "TRUE"), s.asking [.factExists h.index]) :=
    runIn_eval_asking hs.isOpen (hanswers _ _ _ hasked) rfl hs.parked
  have halive : h.isAlive.runIn world s = (.ok true, s.asking [.factExists h.index]) := by
    have hcurrently : h.isCurrent s = true := by
      simp [FactHandle.isCurrent, hs.isOpen, hcurrent]
    unfold FactHandle.isAlive
    rw [runIn_bind_of_ok (runIn_get world s), if_pos hcurrently]
    unfold evalTrue
    rw [runIn_bind_of_ok hexists]
    rfl
  unfold FactHandle.check
  rw [runIn_bind_of_ok halive]
  rfl

/-- A fact is asked for its slots and names them. -/
theorem runIn_factSlotNames (hanswers : store.Answers world.engine) (hs : EnRoute begun s)
    (hcurrent : h.epoch = s.dataEpoch) (hknown : store.facts.lookup h.index = some names) :
    h.slotNames.runIn world s = (.ok names, s.asking (factSlotNamesAsked h.index)) := by
  have hasked : store.answer? (.factSlotNames h.index) = some (.list (names.map .symbol)) := by
    simp [FactStore.answer?, hknown]
  have hfirst : EnRoute begun (s.asking [.factExists h.index]) := hs.asking _
  have hnamed : (eval (.factSlotNames h.index)).runIn world (s.asking [.factExists h.index]) = _ :=
    runIn_eval_asking hfirst.isOpen (hanswers _ _ _ hasked) (toEngine_symbols _ _) hfirst.parked
  unfold FactHandle.slotNames
  rw [runIn_bind_of_ok (runIn_factCheck hanswers hs hcurrent hknown), runIn_bind_of_ok hnamed]
  simp [State.asking_asking, factSlotNamesAsked]

theorem runIn_factIsOrdered (hanswers : store.Answers world.engine) (hs : EnRoute begun s)
    (hcurrent : h.epoch = s.dataEpoch) (hknown : store.facts.lookup h.index = some names) :
    h.isOrdered.runIn world s =
      (.ok (decide (names = [orderedSlot])), s.asking (factSlotNamesAsked h.index)) := by
  unfold FactHandle.isOrdered
  rw [runIn_bind_of_ok (runIn_factSlotNames hanswers hs hcurrent hknown)]
  rfl

/-- A fact is asked for a slot that refers to a fact, and hands out a handle on that fact. -/
theorem runIn_factSlot (hanswers : store.Answers world.engine) (hs : EnRoute begun s)
    (hcurrent : h.epoch = s.dataEpoch) (hknown : store.facts.lookup h.index = some names)
    {slot : String} (haccepted : Text.SafeSymbol.accepts slot = true) (hslot : slot ∈ names)
    {j : Int} {ofTemplate : Bool} (hvalue : store.value h.index slot = .fact j ofTemplate) :
    (h.slot (.text slot)).runIn world s = (.ok (.factAddress ⟨j, s.dataEpoch, s.serial + 1⟩),
      { s.asking (factSlotAsked h.index slot) with serial := s.serial + 1 }) := by
  have hasked : store.answer? (.factSlot h.index slot) = some (.fact j ofTemplate) := by
    simp [FactStore.answer?, hknown, hslot, hvalue]
  have hsymbol : (symbol .slot (.text slot)).runIn world (s.asking [.factExists h.index]) =
      (.ok slot, s.asking [.factExists h.index]) := by
    simp [symbol, symbolText, Value.hostText?, HostText.content, haccepted]
  have hfirst : EnRoute begun (s.asking [.factExists h.index]) := hs.asking _
  have hread : (eval (.factSlot h.index slot)).runIn world (s.asking [.factExists h.index]) =
      (.ok (.factAddress ⟨j, s.dataEpoch, s.serial + 1⟩),
        { (s.asking [.factExists h.index]).asking [.factSlot h.index slot] with
          serial := s.serial + 1 }) :=
    runIn_eval_asking hfirst.isOpen (hanswers _ _ _ hasked) rfl hfirst.parked
  unfold FactHandle.slot
  rw [runIn_bind_of_ok (runIn_factCheck hanswers hs hcurrent hknown), runIn_bind_of_ok hsymbol,
    hread, State.asking_asking]
  rfl

/-! ### From one fact to the next -/

variable {struct : String} {extract : EngineValue → Hint → Act Value} {e : Error}

/-- Fields are filled up to the first whose slot comes to nothing. -/
theorem runIn_fillFields_of_error {object : Value} {before after : List Field} {f : Field}
    {v : EngineValue} (hbefore : ∀ g ∈ before, g.engineName ∉ names) (hf : f.engineName ∈ names)
    (hslot : (h.slot (.text f.engineName)).runIn world s = (.ok v, t))
    (hextract : (extract v f.hint).runIn world t = (.error e, u)) :
    (fillFields extract object (before ++ f :: after) (fun slot ↦ h.slot (.text slot))
      names).runIn world s = (.error e, u) := by
  induction before with
  | nil =>
    show Act.runIn ((if names.contains f.engineName then _ else _) >>= fun _ ↦ _) world s = _
    rw [if_pos (List.contains_iff_mem.mpr hf), runIn_bind, runIn_bind_of_ok hslot,
      runIn_bind, hextract]
  | cons g rest ih =>
    have hg : ¬names.contains g.engineName = true := fun hmem ↦
      hbefore g List.mem_cons_self (List.contains_iff_mem.mp hmem)
    show Act.runIn ((if names.contains g.engineName then _ else _) >>= fun _ ↦ _) world s = _
    rw [if_neg hg]
    exact ih fun g hg ↦ hbefore g (List.mem_cons_of_mem _ hg)

/-- A fact with named slots is extracted into a struct type by filling a new object, and fails as
that does. -/
theorem runIn_extractFact_of_error {fields : List Field} {id : Nat} {x y : State}
    (hstruct : world.types.isStruct (.struct struct) = true)
    (hordered : h.isOrdered.runIn world s = (.ok false, t))
    (hnames : h.slotNames.runIn world t = (.ok names, u))
    (hfields : (fieldsAnew (.struct struct)).runIn world u = (.ok fields, x))
    (hblank : (blank (.struct struct) fields).runIn world x = (.ok (.object struct id), y))
    {z : State}
    (hfill : (fillFields extract (.object struct id) fields (fun slot ↦ h.slot (.text slot))
      names).runIn world y = (.error e, z)) :
    (extractFact extract h (.struct struct) none).runIn world s = (.error e, z) := by
  have hfilling : (filling (.object struct id) fun object ↦
      fillFields extract object fields (fun slot ↦ h.slot (.text slot)) names).runIn world y =
        (.error e, z) := by
    show Act.runIn (fillFields extract (.object struct id) fields
      (fun slot ↦ h.slot (.text slot)) names >>=
      fun _ ↦ asEngineValue (.object struct id)) _ _ = _
    rw [runIn_bind, hfill]
  have hslots : (extractSlots extract h (.struct struct) none).runIn world t = (.error e, z) := by
    show Act.runIn (h.slotNames >>= _) world t = _
    rw [runIn_bind_of_ok hnames, runIn_bind_of_ok (runIn_read world u)]
    show Act.runIn (if _ then _ else _) _ _ = _
    rw [hstruct, if_neg (by simp), runIn_bind_of_ok hfields]
    show Act.runIn (blank (.struct struct) fields >>= _) world x = _
    rw [runIn_bind_of_ok hblank, hfilling]
  show Act.runIn (h.isOrdered >>= _) world s = _
  rw [runIn_bind_of_ok hordered]
  exact hslots

/-- A reference to a fact is extracted as that fact under a hint of a struct type, or of one that
may be absent. -/
theorem runIn_extractWithin_factAddress {hint : Hint} {optional : Bool}
    (hstruct : world.types.isStruct (.struct struct) = true)
    (hunwrap : hint.unwrapOptional = (.struct struct, optional)) (depth number : Nat) :
    (extractWithin (depth + 1) (.factAddress h) (hint.inReading number)).runIn world s =
      (extractFact (extractWithin depth) h (.struct struct) none).runIn world s := by
  have hcontainer : (Hint.struct struct).isContainer world.types = .ok true := by
    simp [Hint.isContainer, hstruct]
  rw [(Hint.isFlat_of_unwrapOptional hunwrap).inReading_eq]
  unfold extractWithin
  dsimp only
  rw [hunwrap, runIn_bind_of_ok (runIn_read world s)]
  dsimp only
  rw [hcontainer]
  rfl

variable {others : List Field} {f : Field} {chain : Set Int}
variable (hanswers : store.Answers world.engine) (hchain : store.Chained others f chain)
variable (hlinks : world.Links struct others f) (hmakes : world.Makes begun struct)
include hanswers hchain hlinks hmakes

/-- A round of six questions leads from a fact of a chain to the next, and what becomes of the next
becomes of the fact if it is an error. -/
theorem exists_round (hs : EnRoute begun s) (hcurrent : h.epoch = s.dataEpoch)
    (hmem : h.index ∈ chain) :
    ∃ next number u, EnRoute begun u ∧ next.epoch = u.dataEpoch ∧ next.index ∈ chain ∧
      u.history.size = s.history.size + 6 ∧
        ∀ {extract : EngineValue → Hint → Act Value} {e t},
          (extract (.factAddress next) (f.hint.inReading number)).runIn world u = (.error e, t) →
          (extractFact extract h (.struct struct) none).runIn world s = (.error e, t) := by
  obtain ⟨after, hfields⟩ := hlinks.fields
  obtain ⟨names, hknown, hnamed, hf, hothers⟩ := hchain.slots h.index hmem
  obtain ⟨j, hj, ofTemplate, hvalue⟩ := hchain.next h.index hmem
  have hordered := runIn_factIsOrdered hanswers hs hcurrent hknown
  rw [decide_eq_false hnamed] at hordered
  have hasked : EnRoute begun (s.asking (factSlotNamesAsked h.index)) := hs.asking _
  have hnames := runIn_factSlotNames hanswers hasked hcurrent hknown
  have hready : EnRoute begun
      ((s.asking (factSlotNamesAsked h.index)).asking (factSlotNamesAsked h.index)) :=
        hasked.asking _
  obtain ⟨number, id, x, hanewFields, hblank, hanew⟩ := hmakes.exists_anew hready.continues hfields
  have hx : EnRoute begun x := hready.anew hanew
  have hhistory : x.history.size = s.history.size + 4 ∧ x.dataEpoch = s.dataEpoch := by
    obtain ⟨⟨heap, labels, readings, rfl, -⟩, -⟩ := hanew
    simp [State.asking, factSlotNamesAsked]
  have hlater : h.epoch = x.dataEpoch := hcurrent.trans hhistory.2.symm
  have hslot := runIn_factSlot hanswers hx hlater hknown hlinks.accepted hf hvalue
  let u : State := { x.asking (factSlotAsked h.index f.engineName) with serial := x.serial + 1 }
  have hu : EnRoute begun u := (hx.asking _).numbered _
  refine ⟨⟨j, x.dataEpoch, x.serial + 1⟩, number, u, hu, rfl, hj, ?_,
    fun {extract e t} hextract ↦ ?_⟩
  · show (x.asking _).history.size = _
    rw [State.size_history_asking, hhistory.1]
    rfl
  · have hothersAnew : ∀ g ∈ fieldsInReading number others, g.engineName ∉ names := by
      intro g hg
      obtain ⟨declared, hdeclared, rfl⟩ := List.mem_map.mp hg
      exact hothers declared hdeclared
    have hsplit : fieldsInReading number (others ++ f :: after) = fieldsInReading number others ++
        { f with hint := f.hint.inReading number } :: fieldsInReading number after := by
          simp [fieldsInReading]
    apply runIn_extractFact_of_error hlinks.isStruct hordered hnames hanewFields hblank
    rw [hsplit]
    exact runIn_fillFields_of_error hothersAnew hf hslot hextract

/-- However deep it may go, an extraction that follows a chain goes as deep, with six questions to
each fact, and fails there. -/
theorem runIn_extractFact_of_chained (limit : Nat) (hs : EnRoute begun s)
    (hcurrent : h.epoch = s.dataEpoch) (hmem : h.index ∈ chain) :
    ∃ t, (extractFact (extractWithin limit) h (.struct struct) none).runIn world s =
        (.error (.host .recursion), t) ∧
      t.history.size = s.history.size + 6 * (limit + 1) := by
  obtain ⟨optional, hunwrap⟩ := hlinks.unwraps
  induction limit generalizing s h with
  | zero =>
    obtain ⟨next, number, u, -, -, -, hsize, hfails⟩ :=
      exists_round hanswers hchain hlinks hmakes hs hcurrent hmem
    exact ⟨u, hfails rfl, hsize⟩
  | succ limit ih =>
    obtain ⟨next, number, u, hu, hepoch, hnext, hsize, hfails⟩ :=
      exists_round hanswers hchain hlinks hmakes hs hcurrent hmem
    obtain ⟨t, hrun, hmore⟩ := ih hu hepoch hnext
    refine ⟨t, hfails ?_, by omega⟩
    rw [runIn_extractWithin_factAddress hlinks.isStruct hunwrap, hrun]

end

/-! ### A fact that refers to itself -/

/-- A single fact with a single slot, which refers to the fact. -/
def selfFact : FactStore where
  facts := [(1, ["next"])]
  value _ _ := .fact 1 true

/-- The field of a struct type for the next object of the type. -/
def linkField : Field where
  attr := "next"
  hint := .union .word [.struct "Link", .noneType]
  default := some .none

theorem selfFact_chained : selfFact.Chained [] linkField {1} where
  slots i hi := by
    obtain rfl := Set.mem_singleton_iff.mp hi
    exact ⟨["next"], rfl, by decide, List.mem_singleton_self _, nofun⟩
  next i _ := ⟨1, rfl, true, rfl⟩

theorem link_links (engine : Array Event → Command → Reply) :
    (World.ofDepth linkTypes {} engine 0).Links "Link" [] linkField where
  isStruct := show linkTypes.isStruct (.struct "Link") = true by decide
  fields := ⟨[], rfl⟩
  unwraps := ⟨true, rfl⟩
  accepted := by decide

theorem link_makes (engine : Array Event → Command → Reply) (s : State) :
    (World.ofDepth linkTypes {} engine 0).Makes s "Link" := by
  refine World.makes_of_initial rfl rfl (show linkTypes.kindOf _ ≠ .model by decide)
    (fun number f hf ↦ ?_) s
  obtain rfl := List.mem_singleton.mp hf
  exact ⟨.shared .none, rfl, .pure _⟩

/-- An extraction of a fact answers what it comes to with nothing visited before. -/
theorem answer_extract_factHandle {world : World} {s : State} {into : Value} {dest : Hint}
    {target : Option Value} (h : FactHandle)
    (hinto : into.splitDestination world.types s.heap = .ok (dest, target)) :
    ((extract (.factHandle h) into).runIn world s).1 =
      ((extractFact (extractWithin callLimit) h dest target).runIn world
        { s with visited := [] }).1 := by
  have hvalue : extractValue = extractWithin callLimit := rfl
  rw [runIn_extract_of_split hinto, Heap.content_factHandle, runIn_freshly]
  dsimp only
  rw [hvalue]

/-- An extraction of a fact that refers to itself is not done after any number of commands: if it
may go deeper, it asks more. However deep it may go, it fails there. -/
theorem fact_cycle_unbounded :
    let world := World.ofDepth linkTypes {} selfFact.engine 0
    let run limit :=
      (extractFact (extractWithin limit) ⟨1, 0, 1⟩ (.struct "Link") none).runIn world {}
    (¬∃ most, ∀ limit, (run limit).2.history.size ≤ most) ∧
      (∀ limit, (run limit).1 = .error (.host .recursion)) ∧
      ((extract (.factHandle ⟨1, 0, 1⟩) (.hint (.struct "Link"))).runIn world {}).1 =
        .error (.host .recursion) := by
  intro world run
  have hruns : ∀ limit s, EnRoute {} s → s.dataEpoch = 0 → ∃ t,
      (extractFact (extractWithin limit) ⟨1, 0, 1⟩ (.struct "Link") none).runIn world s =
        (.error (.host .recursion), t) ∧ t.history.size = s.history.size + 6 * (limit + 1) := by
    intro limit s hs hepoch
    exact runIn_extractFact_of_chained selfFact.answers_engine selfFact_chained (link_links _)
      (link_makes _ _) limit hs hepoch.symm rfl
  have hbegin : EnRoute {} {} := ⟨rfl, rfl, .refl _⟩
  refine ⟨?_, fun limit ↦ ?_, ?_⟩
  · rintro ⟨most, hmost⟩
    obtain ⟨t, hrun, hsize⟩ := hruns most {} hbegin rfl
    have hle : (run most).2.history.size ≤ most := hmost most
    dsimp only [run] at hle
    rw [hrun, hsize] at hle
    omega
  · obtain ⟨t, hrun, -⟩ := hruns limit {} hbegin rfl
    dsimp only [run]
    rw [hrun]
  · obtain ⟨t, hrun, -⟩ :=
      hruns callLimit { ({} : State) with visited := [] } ⟨rfl, rfl, .refl _⟩ rfl
    have hinto : (Value.hint (.struct "Link")).splitDestination world.types ({} : State).heap =
        .ok (.struct "Link", none) := rfl
    rw [answer_extract_factHandle ⟨1, 0, 1⟩ hinto, hrun]

end RuleMarshal
