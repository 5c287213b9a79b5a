import Mathlib.Algebra.Order.BigOperators.Group.List
import Mathlib.Algebra.Order.Group.Nat
import Mathlib.Data.Finset.Lattice.Fold
import RuleMarshal.Proofs.Extraction.EngineValue
import RuleMarshal.Session.Run
/-!
What an extraction of an instance comes to. From a depth on it runs alike however deep it may go, so
it ends; what it visited it visited once, for every destination, and read in one pass; and what it
built presents the instances of the store with their sharing (`extract_presents`).
-/

set_option autoImplicit false
set_option relaxedAutoImplicit false

namespace RuleMarshal

open Act

/-! ### How far fields reach -/

/-- How many turns the fields of a declared type have together. -/
def World.span (world : World) (struct : String) : Nat :=
  match world.types.fields world.config.tags (.struct struct) with
  | .ok fields => (fields.map (·.hint.turns.length)).sum
  | .error _ => 0

/-- Types are finitely many, so there is a number of turns that no field of theirs exceeds. -/
theorem World.exists_spans (world : World) : ∃ width, world.Spans width := by
  refine ⟨((world.types.types.map (·.name)).map world.span).sum,
    fun struct fields hfields f hf ↦ ?_⟩
  have hmem : struct ∈ world.types.types.map (·.name) :=
    TypeTable.mem_of_find? (find?_isSome_of_fields hfields)
  have hfield : f.hint.turns.length ≤ (fields.map (·.hint.turns.length)).sum :=
    List.single_le_sum (fun _ _ ↦ Nat.zero_le _) _ (List.mem_map_of_mem hf)
  have hspan : world.span struct = (fields.map (·.hint.turns.length)).sum := by
    rw [World.span, hfields]
  have hsum : world.span struct ≤ ((world.types.types.map (·.name)).map world.span).sum :=
    List.single_le_sum (fun _ _ ↦ Nat.zero_le _) _ (List.mem_map_of_mem hmem)
  omega

/-! ### Targets -/

/-- Whether the cell that a value is kept in is there, and holds what it stands for. -/
def Value.IsLive (heap : Heap) : Value → Prop
  | .object _ id => ∃ attrs, heap.get? id = some (.object attrs)
  | .mapping id => ∃ entries, heap.get? id = some (.mapping entries)
  | .held id => ∃ v, heap.get? id = some (.value v) ∧ v.isShared = false
  | _ => True

/-- What an extraction of an instance makes of a destination of any type: a mapping. -/
def Hint.forInstance (dest : Hint) : Hint := if dest.isDynamic then .mapping else dest

section

variable {world : World} {store : Store} {s t : State} {width : Nat}

/-- What has a type that can be filled is a list, a mapping, an object or an engine value. -/
theorem cases_of_fillableType {v : Value} {type : Hint}
    (htype : v.fillableType? world.types = some type) :
    (∃ items, v = .list items ∧ type = .list) ∨ (∃ id, v = .mapping id ∧ type = .mapping) ∨
      (∃ struct id, v = .object struct id ∧ type = .struct struct) ∨
      ∃ e kind, v = .engine e ∧ type = .engineValue (some kind) := by
  cases v with
  | list items => exact .inl ⟨items, rfl, (Option.some.inj htype).symm⟩
  | mapping id => exact .inr (.inl ⟨id, rfl, (Option.some.inj htype).symm⟩)
  | object struct id =>
    unfold Value.fillableType? Value.structType? at htype
    dsimp only at htype
    split at htype
    · exact .inr (.inr (.inl ⟨struct, id, rfl, (Option.some.inj htype).symm⟩))
    · cases htype
  | engine e =>
    obtain ⟨kind, -, htype⟩ := Option.map_eq_some_iff.mp htype
    exact .inr (.inr (.inr ⟨e, kind, rfl, htype.symm⟩))
  | _ => cases htype

/-- What is shared is held in no other cell than its own. -/
theorem eq_of_opened {into v : Value} (hlive : into.IsLive s.heap)
    (hopened : s.heap.opened into = v) (hshared : v.isShared = true) : into = v := by
  cases into with
  | held id =>
    obtain ⟨w, hget, hapart⟩ := hlive
    rw [Heap.opened, Heap.heldIn, hget] at hopened
    rw [← hopened, hapart] at hshared
    cases hshared
  | _ => exact hopened

/-- What there is to be filled, an extraction into it accepts. -/
theorem exists_accepts {into : Value} {dest : Hint} {target : Option Value}
    (hinto : into.splitDestination world.types s.heap = .ok (dest, target))
    (hdest : dest.forInstance = .mapping ∨ world.types.isStruct dest.forInstance)
    (hlive : ∀ o, target = some o → o.IsLive s.heap) :
    ∃ own, Accepts { s with visited := [] } dest.forInstance target own := by
  unfold Value.splitDestination at hinto
  split at hinto
  · cases hinto
    exact ⟨none, .anew⟩
  · cases hinto
    exact ⟨none, .anew⟩
  · split at hinto
    · rename_i type htype
      cases hinto
      have hlive := hlive into rfl
      obtain ⟨items, hopened, rfl⟩ | ⟨id, hopened, rfl⟩ | ⟨struct, id, hopened, rfl⟩ |
        ⟨e, kind, hopened, rfl⟩ := cases_of_fillableType htype
      · exact hdest.elim nofun nofun
      · obtain rfl := eq_of_opened hlive hopened rfl
        obtain ⟨entries, hget⟩ := hlive
        exact ⟨some id, .mapping rfl .mapping hget fun _ hp ↦ nomatch hp⟩
      · obtain rfl := eq_of_opened hlive hopened rfl
        obtain ⟨attrs, hget⟩ := hlive
        exact ⟨some id, .object hget fun _ hp ↦ nomatch hp⟩
      · cases into with
        | held id =>
          obtain ⟨v, hget, -⟩ := hlive
          exact ⟨some id, .held hopened (Heap.lt_size_of_get? hget) fun _ hp ↦ nomatch hp⟩
        | engine v => exact ⟨none, .engineValue⟩
        | _ => cases hopened
    · cases hshown : into.shown world.types s.heap with
      | error fault =>
        rw [hshown] at hinto
        cases hinto
      | ok text =>
        rw [hshown] at hinto
        cases hinto

/-! ### Extractions of instances -/

/-- What an extraction that began with nothing visited answers for an instance: what was built for
it, which is the target if there is one. An engine value that nothing holds is answered anew. -/
structure AnswersFor (world : World) (store : Store) (name : String) (dest : Hint)
    (target : Option Value) (w : Value) (t : State) : Prop where
  built : ∃ d o, dest.destination? = some d ∧ t.built (name, d) = some o ∧
    ((∀ kind, d ≠ .engineValue kind) →
      w = o ∧ Presents world store t.built t.heap True (name, d) o)
  target : ∀ o, target = some o → (∀ v, o ≠ .engine v) → w = o
  whole : (∀ kind, dest ≠ .engineValue kind) → ¬world.Declares .choice → ∀ p ∈ t.visited,
    Presents world store t.built t.heap True p.1 p.2

theorem Settles.answersFor {name : String} {dest : Hint} {d : Destination} {target : Option Value}
    {w : Value} (hsettles : Settles world store s (name, d) w t) (hvisited : s.visited = [])
    (hdest : dest.destination? = some d) (htarget : ∀ o, target = some o → w = o) :
    AnswersFor world store name dest target w t where
  built := ⟨d, w, hdest, hsettles.built, fun _ ↦ ⟨rfl, hsettles.presents⟩⟩
  target o ho _ := htarget o ho
  whole _ hnone p hp := hsettles.whole hnone p hp (hvisited ▸ List.not_mem_nil)

/-- An extraction with nothing visited before answers for its instance, and runs alike however much
deeper than enough it may go. -/
theorem yields_extraction {h : InstanceHandle} {dest : Hint} {target : Option Value}
    {own : Option Nat} {limit other : Nat} (hs : Underway world store s) (hvisited : s.visited = [])
    (hfacts : store.IsFactFree) (hspans : world.Spans width) (haccepts : Accepts s dest target own)
    (hdest : dest = .mapping ∨ world.types.isStruct dest)
    (hdeep : limit = other ∨ reach world store width s.visited dest < min limit other) :
    Yields world (Passage world store own 0 s) (AnswersFor world store h.name dest target)
      (extractInstance (extractWithin limit) h dest target)
      (extractInstance (extractWithin other) h dest target) s := by
  have hnew : ∀ key, s.built key = none := by
    intro key
    rw [State.built, hvisited]
    rfl
  have hextract : ∀ e inner u, Underway world store u →
      reach world store width u.visited inner ≤ reach world store width s.visited dest →
      inner.IsOffered world → e.IsFactFree →
      Converts world store e inner (extractWithin limit e inner) (extractWithin other e inner) u :=
    fun e inner u hu hle hoffered he ↦
      converts_extractWithin hfacts hspans limit other e inner u hu hoffered he (by omega)
  have hmapping : dest = .mapping → Yields world (Passage world store own 0 s)
      (AnswersFor world store h.name dest target)
      (extractInstance (extractWithin limit) h dest target)
      (extractInstance (extractWithin other) h dest target) s := by
    rintro rfl
    refine (yields_ofMapping hs hfacts haccepts rfl .mapping rfl (hnew _)
      fun e u hu hle he ↦ hextract e .any u hu (reach_le hle (List.nil_sublist _))
        (fun _ hturn ↦ by cases hturn)
        he).mono (fun _ hst ↦ hst) fun w t _ hw ↦ hw.1.answersFor hvisited rfl hw.2
  refine hdest.elim hmapping fun hstruct ↦ ?_
  cases dest with
  | atom a =>
    cases a with
    | struct struct =>
      refine (yields_ofStruct hs hfacts haccepts hspans (hnew _) fun e inner u hu hfollows ↦
        hextract e inner u hu (Nat.le_of_lt hfollows.reach_lt)).mono (fun _ hst ↦ hst)
        fun w t _ hw ↦ hw.1.answersFor hvisited rfl hw.2
    | engineValue kind =>
      obtain ⟨kind, rfl⟩ : ∃ known, kind = some known := Option.isSome_iff_exists.mp hstruct
      refine (yields_ofEngineValue hs hfacts haccepts (hnew _)
        fun e inner u hu hle hturns ↦ ?_).mono (fun _ hst ↦ hst) fun w t _ hw ↦ ?_
      · refine hextract e inner u hu (reach_le hle ?_) fun turn hturn ↦ ?_
        · rw [hturns]
          exact List.nil_sublist _
        · rw [hturns] at hturn
          cases hturn
      · obtain ⟨⟨o, hbuilt⟩, hheld⟩ := hw
        refine ⟨⟨_, o, rfl, hbuilt, fun hkind ↦ absurd rfl (hkind _)⟩, fun o ho hvalue ↦ ?_,
          fun hkind ↦ absurd rfl (hkind _)⟩
        cases haccepts with
        | anew => cases ho
        | engineValue =>
          cases ho
          exact absurd rfl (hvalue _)
        | held _ _ _ =>
          cases ho
          exact hheld _ rfl
        | mapping hdestination htakes _ _ =>
          cases hdestination
          cases htakes
    | _ => cases hstruct
  | _ => cases hstruct

end

/-- An extraction of an instance with nothing visited before it, and with instances followed at most
the given number deep. -/
def extraction (world : World) (s : State) (h : InstanceHandle) (dest : Hint)
    (target : Option Value) (limit : Nat) : Except Error Value × State :=
  (extractInstance (extractWithin limit) h dest target).runIn world { s with visited := [] }

/-- What an extraction has done when it ends, with an answer or with an error: it visited no
instance twice for one destination, built each object in a cell of its own, so that it presents its
instance at least in part, and read slots no more often than the passes of what it visited. -/
structure Extracted (world : World) (store : Store) (s t : State) : Prop where
  keys : (t.visited.map (·.1)).Nodup
  cells : ∀ p ∈ t.visited, ∀ q ∈ t.visited, ∀ id, p.2.storage? = some id →
    q.2.storage? = some id → p = q
  presents : ∀ p ∈ t.visited, Presents world store t.built t.heap False p.1 p.2
  reads : ∀ name slot,
    t.reads name slot ≤ s.reads name slot + world.quota store t.visited name slot

section

variable {world : World} {store : Store} {s t : State} {own : Option Nat}

theorem Passage.extracted (hst : Passage world store own 0 { s with visited := [] } t) :
    Extracted world store s t where
  keys := hst.underway.keys
  cells := hst.underway.cells
  presents := hst.underway.presents
  reads := hst.reads

/-- An extraction runs as that of the instance, and goes back to what was visited before. -/
theorem runIn_extract {source into : Value} {h : InstanceHandle} {dest : Hint}
    {target : Option Value} (hsource : s.heap.content source = .instanceHandle h)
    (hinto : into.splitDestination world.types s.heap = .ok (dest, target)) :
    (extract source into).runIn world s =
      ((extraction world s h dest.forInstance target callLimit).1,
        { (extraction world s h dest.forInstance target callLimit).2 with
          visited := s.visited }) := by
  have hread : (read : Act World).runIn world s = (.ok world, s) := rfl
  have hget : (get : Act State).runIn world s = (.ok s, s) := rfl
  unfold extract
  rw [Act.runIn_bind_of_ok hread, Act.runIn_bind_of_ok hget]
  dsimp only
  rw [hinto, hsource]
  rfl

theorem exists_le_of_alike {α : Type} {run : Nat → α} {enough : Nat}
    (halike : ∀ limit, enough ≤ limit → run limit = run enough) (size : α → Nat) :
    ∃ most, ∀ limit, size (run limit) ≤ most := by
  have hle : ∀ limit ≤ enough,
      size (run limit) ≤ (Finset.range (enough + 1)).sup fun limit ↦ size (run limit) :=
    fun limit hlimit ↦ Finset.le_sup (f := fun limit ↦ size (run limit))
      (Finset.mem_range.mpr (Nat.lt_succ_of_le hlimit))
  refine ⟨(Finset.range (enough + 1)).sup fun limit ↦ size (run limit), fun limit ↦ ?_⟩
  by_cases hlimit : limit ≤ enough
  · exact hle limit hlimit
  · rw [halike limit (Nat.le_of_not_le hlimit)]
    exact hle enough (Nat.le_refl enough)

end

/-- Extraction of an instance from a store that refers to no facts, into a mapping, a struct type or
an object of such a type. However deep it may go, it sends no more than so many commands, and from a
depth on it runs alike. It reads the slots of an instance in one pass for each destination that it
visits it for. What it answers is what was built for the instance, the target if there is one, and
presents the whole of it: references to an instance under one destination are all the one object
that was built for it. -/
theorem extract_presents (world : World) (store : Store) (s : State) (source into : Value)
    (h : InstanceHandle) (dest : Hint) (target : Option Value)
    (hanswers : Answers world.engine store s.history) (hfacts : store.IsFactFree)
    (hsource : s.heap.content source = .instanceHandle h)
    (hinto : into.splitDestination world.types s.heap = .ok (dest, target))
    (hdest : dest.forInstance = .mapping ∨ world.types.isStruct dest.forInstance)
    (hlive : ∀ o, target = some o → o.IsLive s.heap) :
    let run := extraction world s h dest.forInstance target
    (extract source into).runIn world s =
        ((run callLimit).1, { (run callLimit).2 with visited := s.visited }) ∧
      (∃ enough, ∀ limit, enough ≤ limit → run limit = run enough) ∧
      (∃ most, ∀ limit, (run limit).2.history.size ≤ most) ∧
      ∀ limit, Extracted world store s (run limit).2 ∧ ∀ w, (run limit).1 = .ok w →
        AnswersFor world store h.name dest.forInstance target w (run limit).2 := by
  intro run
  obtain ⟨width, hspans⟩ := world.exists_spans
  obtain ⟨own, haccepts⟩ := exists_accepts hinto hdest hlive
  have hbegin : Underway world store { s with visited := [] } :=
    ⟨hanswers, List.nodup_nil, fun p hp ↦ absurd hp List.not_mem_nil,
      fun p hp ↦ absurd hp List.not_mem_nil⟩
  have hyields : ∀ limit other, (limit = other ∨
      reach world store width [] dest.forInstance < min limit other) →
      Yields world (Passage world store own 0 { s with visited := [] })
        (AnswersFor world store h.name dest.forInstance target)
        (extractInstance (extractWithin limit) h dest.forInstance target)
        (extractInstance (extractWithin other) h dest.forInstance target)
        { s with visited := [] } :=
    fun limit other hdeep ↦ yields_extraction hbegin rfl hfacts hspans haccepts hdest hdeep
  have halike : ∀ limit, reach world store width [] dest.forInstance + 1 ≤ limit →
      run limit = run (reach world store width [] dest.forInstance + 1) := fun limit hle ↦
    (hyields _ limit (.inr (by omega))).1
  refine ⟨runIn_extract hsource hinto, ⟨_, halike⟩, ?_, fun limit ↦ ?_⟩
  · exact exists_le_of_alike halike fun result ↦ result.2.history.size
  · obtain ⟨-, hpassage, hanswer⟩ := hyields limit limit (.inl rfl)
    exact ⟨hpassage.extracted, fun w hw ↦ hanswer w _ (Prod.ext hw rfl)⟩

/-! ### Two instances that refer to each other -/

/-- A struct type with a field of its own type, or none. -/
def linkTypes : TypeTable where
  types := [{ name := "Link", kind := .described,
              fields := [{ attr := "next", hint := .union .word [.struct "Link", .noneType],
                           default := some .none }] }]

/-- Two instances, each the next one of the other. -/
def linkStore : Store where
  instances := [("a", "Link"), ("b", "Link")]
  slots _ := ["next"]
  value name _ := .instanceName (if name = "a" then "b" else "a")

/-- Of two instances that refer to each other come two objects that refer to each other, with one
reading of each slot. -/
theorem extract_presents_link :
    let world := World.ofDepth linkTypes {} linkStore.engine 0
    let run := extraction world {} ⟨"a", 0, 1⟩ (.struct "Link") none callLimit
    ∃ w, run.1 = .ok w ∧ AnswersFor world linkStore "a" (.struct "Link") none w run.2 ∧
      run.2.reads "a" "next" = 1 ∧ run.2.reads "b" "next" = 1 := by
  intro world run
  have hfacts : linkStore.IsFactFree := fun _ _ _ ↦ rfl
  have hsource : ({} : State).heap.content (.instanceHandle ⟨"a", 0, 1⟩) =
      .instanceHandle ⟨"a", 0, 1⟩ := by
    simp [Heap.content, Value.settledWithin]
  obtain ⟨-, -, -, hlimit⟩ := extract_presents world linkStore {} (.instanceHandle ⟨"a", 0, 1⟩)
    (.hint (.struct "Link")) ⟨"a", 0, 1⟩ (.struct "Link") none
      (linkStore.answers_engine _) hfacts hsource
    rfl (.inr (by decide)) fun _ ho ↦ by cases ho
  have hsucceeds : run.1.toOption.isSome = true ∧ run.2.reads "a" "next" = 1 ∧
      run.2.reads "b" "next" = 1 := by
    decide +kernel
  cases hanswer : run.1 with
  | error e =>
    rw [hanswer] at hsucceeds
    exact absurd hsucceeds.1 Bool.false_ne_true
  | ok w => exact ⟨w, rfl, (hlimit callLimit).2 w hanswer, hsucceeds.2⟩

/-! ### Two fields that go to one slot -/

/-- A struct type with two fields that go to one slot. -/
def twinTypes : TypeTable where
  types := [{ name := "Twin", kind := .described,
              fields := [{ attr := "a", hint := .int .unsized, binding := some "v",
                           default := some (.int .unsized 0) },
                { attr := "b", hint := .int .unsized, binding := some "v",
                  default := some (.int .unsized 0) }] }]

/-- A single instance with a single slot. -/
def twinStore : Store where
  instances := [("i", "Twin")]
  slots _ := ["v"]
  value _ _ := .int 1

/-- A slot that two fields of a type go to is read twice for that type. -/
theorem slot_read_twice :
    let world := World.ofDepth twinTypes {} twinStore.engine 0
    let run := (extract (.instanceHandle ⟨"i", 0, 1⟩) (.hint (.struct "Twin"))).runIn world {}
    Answers world.engine twinStore #[] ∧ twinStore.IsFactFree ∧
      run.1.toOption.isSome = true ∧ run.2.reads "i" "v" = 2 := by
  intro world run
  have hsource : ({} : State).heap.content (.instanceHandle ⟨"i", 0, 1⟩) =
      .instanceHandle ⟨"i", 0, 1⟩ := by
    simp [Heap.content, Value.settledWithin]
  have hrun : run = _ := runIn_extract hsource rfl
  refine ⟨twinStore.answers_engine _, fun _ _ _ ↦ rfl, ?_⟩
  rw [hrun]
  decide +kernel

/-! ### An alternative that fails part way -/

/-- A struct type that an instance does not fit, one that it fits, and one with a field of either
and a field of the first. -/
def choiceTypes : TypeTable where
  types :=
    [{ name := "Strict", kind := .described,
       fields := [{ attr := "x", hint := .int .unsized, default := some (.int .unsized 0) },
         { attr := "y", hint := .int .unsized, default := some (.int .unsized 0) }] },
      { name := "Loose", kind := .described,
        fields := [{ attr := "x", hint := .int .unsized, default := some (.int .unsized 0) }] },
      { name := "Root", kind := .described,
        fields := [{ attr := "either", hint := .union .word [.struct "Strict", .struct "Loose"],
                     default := some .none },
          { attr := "strict", hint := .struct "Strict", default := some .none }] }]

/-- An instance with a text in its second slot, and one that refers to it in both of its slots. -/
def choiceStore : Store where
  instances := [("r", "Root"), ("i", "Strict")]
  slots className := if className = "Root" then ["either", "strict"] else ["x", "y"]
  value _ slot := match slot with
    | "x" => .int 1
    | "y" => .text "two"
    | _ => .instanceName "i"

/-- The attribute of an object, or nothing. -/
def Heap.attr? (heap : Heap) (attr : String) : Value → Option Value
  | .object _ id => (heap.attrs id).lookup attr
  | _ => none

/-- An alternative that fails part way leaves an object behind. A field of that type that refers to
the same instance gets the object as it is, with a default where the slot holds what the field does
not take. -/
theorem half_built_after_alternative :
    let world := World.ofDepth choiceTypes {} choiceStore.engine 0
    let run := (extract (.instanceHandle ⟨"r", 0, 1⟩) (.hint (.struct "Root"))).runIn world {}
    let strict := run.1.toOption.bind (run.2.heap.attr? "strict")
    Answers world.engine choiceStore #[] ∧ choiceStore.IsFactFree ∧
      strict.map (·.typeName) = some "Strict" ∧
      (strict.bind (run.2.heap.attr? "y")).bind (·.integer?) = some 0 ∧
      ∀ e, (choiceStore.value "i" "y").Gives e →
        ∀ s, ((extractValue e (.int .unsized)).runIn world s).1.toOption = none := by
  intro world run strict
  have hrun : run = _ := runIn_extract (Heap.content_instanceHandle _ _) rfl
  have hpart : strict.map (·.typeName) = some "Strict" ∧
      (strict.bind (run.2.heap.attr? "y")).bind (·.integer?) = some 0 := by
    dsimp only [strict]
    rw [hrun]
    decide +kernel
  refine ⟨choiceStore.answers_engine _, ?_, hpart.1, hpart.2, ?_⟩
  · intro name slot _
    dsimp only [choiceStore]
    split <;> rfl
  · intro e hgives s
    cases hgives with
    | text => rfl

end RuleMarshal
