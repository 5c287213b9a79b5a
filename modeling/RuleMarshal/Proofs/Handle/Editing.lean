import RuleMarshal.Proofs.Computation.Result
import RuleMarshal.Proofs.Handle.Listing
import RuleMarshal.Proofs.Session.Interference
/-!
Edits of a pending fact. A call that edits one asks for some edits, and each of them is made or
refused by what the builder and the arguments are alone (`Builder.requests`). They are made one
after the other up to the first that is refused, and then the call fails with that refusal; no other
part of the state is touched (`Builder.runIn_edits`). A call for one edit is thus all or nothing,
whereas one for several leaves the edits in front of the one that is refused
(`Builder.refused_edits`).
-/

set_option autoImplicit false
set_option relaxedAutoImplicit false

namespace RuleMarshal

open Act

/-! ### The cell of a builder -/

namespace Heap

variable {heap : Heap} {id : Nat} {b : Builder}

theorem builder?_eq_some_iff : heap.builder? id = some b ↔ heap.get? id = some (.builder b) := by
  unfold builder?
  split
  · rename_i held hheld
    rw [hheld]
    simp
  · rename_i hother
    exact iff_of_false nofun (hother b)

theorem put_self {cell : Cell} (hcell : heap.get? id = some cell) : heap.put id cell = heap := by
  obtain ⟨hid, hheld⟩ := Array.getElem?_eq_some_iff.mp hcell
  have hcells : heap.cells.setIfInBounds id cell = heap.cells := by
    rw [Array.setIfInBounds_def, dif_pos hid, ← hheld, Array.set_getElem_self]
  rw [put, hcells]

theorem put_put (first second : Cell) : (heap.put id first).put id second = heap.put id second := by
  simp [put]

theorem builder?_put (hb : heap.builder? id = some b) (c : Builder) :
    (heap.put id (.builder c)).builder? id = some c := by
  have hid := (Array.getElem?_eq_some_iff.mp (builder?_eq_some_iff.mp hb)).1
  exact builder?_eq_some_iff.mpr (heap.get?_put_self _ hid)

/-- A variable holds the same, whatever a builder is. -/
theorem heldIn_put_builder (hb : heap.builder? id = some b) (c : Builder) (other : Nat) :
    (heap.put id (.builder c)).heldIn other = heap.heldIn other := by
  unfold heldIn
  by_cases hother : id = other
  · subst hother
    rw [builder?_eq_some_iff.mp hb, builder?_eq_some_iff.mp (builder?_put hb c)]
  · rw [heap.get?_put_ne _ hother]

end Heap

mutual

/-- What is in its place in a value depends on what the variables hold. -/
theorem Value.settledWithin_congr {heap other : Heap}
    (hheld : ∀ id, other.heldIn id = heap.heldIn id) (depth : Nat) (v : Value) :
    v.settledWithin other depth = v.settledWithin heap depth := by
  cases v with
  | held id =>
    cases depth with
    | zero => simp only [Value.settledWithin]
    | succ depth =>
      simp only [Value.settledWithin]
      rw [hheld id]
      exact Value.settledWithin_congr hheld depth (heap.heldIn id)
  | list items | tuple items => simp only [Value.settledWithin, settledEach_congr hheld depth items]
  | _ => simp only [Value.settledWithin]
termination_by (depth, sizeOf v)

theorem settledEach_congr {heap other : Heap} (hheld : ∀ id, other.heldIn id = heap.heldIn id)
    (depth : Nat) (items : List Value) :
    settledEach other depth items = settledEach heap depth items := by
  cases items with
  | nil => simp only [settledEach]
  | cons v rest =>
    simp only [settledEach, Value.settledWithin_congr hheld depth v,
      settledEach_congr hheld depth rest]
termination_by (depth, sizeOf items)

end

theorem Heap.content_put_builder {heap : Heap} {id : Nat} {b : Builder}
    (hb : heap.builder? id = some b) (c : Builder) (v : Value) :
    (heap.put id (.builder c)).content v = heap.content v := by
  have hsize : (heap.put id (.builder c)).cells.size = heap.cells.size := by simp [put]
  rw [content, content, hsize]
  exact v.settledWithin_congr (heldIn_put_builder hb c) heap.cells.size

/-- A state with another builder in a cell. -/
def State.withBuilder (s : State) (id : Nat) (b : Builder) : State :=
  { s with heap := s.heap.put id (.builder b) }

theorem State.withBuilder_self {s : State} {id : Nat} {b : Builder}
    (hb : s.heap.builder? id = some b) :
    s.withBuilder id b = s := by
  rw [withBuilder, Heap.put_self (Heap.builder?_eq_some_iff.mp hb)]

theorem State.withBuilder_withBuilder (s : State) (id : Nat) (b c : Builder) :
    (s.withBuilder id b).withBuilder id c = s.withBuilder id c := by
  rw [withBuilder, withBuilder, withBuilder, Heap.put_put]

/-! ### Edits -/

namespace Builder

/-- One change of what a builder holds. -/
inductive Edit where
  /-- A value behind the others. -/
  | added (v : EngineValue)
  /-- Another value at a position. -/
  | placed (i : Nat) (v : EngineValue)
  /-- Another value for a slot. -/
  | assigned (slot : String) (v : EngineValue)

/-- A builder after an edit. -/
def edit (b : Builder) : Edit → Builder
  | .added v => { b with values := b.values ++ [v] }
  | .placed i v => { b with values := b.values.set i v }
  | .assigned slot v => { b with slots := putNamed b.slots slot v }

/-- A builder after some edits, in order. -/
def edited (b : Builder) (edits : List Edit) : Builder := edits.foldl edit b

@[simp] theorem edited_nil (b : Builder) : b.edited [] = b := rfl

@[simp] theorem edited_cons (b : Builder) (e : Edit) (edits : List Edit) :
    b.edited (e :: edits) = (b.edit e).edited edits := rfl

theorem edited_append (b : Builder) (edits more : List Edit) :
    b.edited (edits ++ more) = (b.edited edits).edited more :=
  List.foldl_append

@[simp] theorem template_edit (b : Builder) (e : Edit) :
    (b.edit e).template = b.template := by cases e <;> rfl

@[simp] theorem ordered_edit (b : Builder) (e : Edit) :
    (b.edit e).ordered = b.ordered := by cases e <;> rfl

@[simp] theorem asserted_edit (b : Builder) (e : Edit) :
    (b.edit e).asserted = b.asserted := by cases e <;> rfl

theorem asserted_edited (b : Builder) (edits : List Edit) :
    (b.edited edits).asserted = b.asserted := by
  induction edits generalizing b with
  | nil => rfl
  | cons e rest ih => rw [edited_cons, ih, asserted_edit]

/-- Edits change neither what fact it will be nor whether it is one already. -/
theorem editable_edited (b : Builder) (edits : List Edit) (ordered : Bool) :
    (b.edited edits).editable ordered = b.editable ordered ∧
      (b.edited edits).ordered = b.ordered := by
  induction edits generalizing b with
  | nil => exact ⟨rfl, rfl⟩
  | cons e rest ih =>
    obtain ⟨heditable, hordered⟩ := ih (b.edit e)
    refine ⟨?_, hordered.trans (b.ordered_edit e)⟩
    rw [edited_cons, heditable]
    simp [editable]

/-! ### What is asked for -/

/-- Another value behind the others, as a request. -/
def addition (heap : Heap) (v : Value) : Except Error Edit := do
  return .added (← (heap.content v).toEngine)

/-- A position as the place that it stands for. -/
def place (b : Builder) (position : Int) : Except Error Nat :=
  let i := if position < 0 then position + b.values.length else position
  if 0 ≤ i ∧ i < b.values.length then .ok i.toNat
  else .error (.host (.index "list assignment index out of range"))

/-- A text as the name of a slot. -/
def slotNamed (text : String) : Except Error String :=
  if Text.SafeSymbol.accepts text then .ok text
    else .error (.unsupported (.engineSymbol .slot (Text.shown text)))

/-- Another value at a position or for a slot, as a request. -/
def assignment (b : Builder) (types : TypeTable) (heap : Heap) (key v : Value) :
    Except Error Edit :=
  if b.ordered then do
    b.editable true
    match key.integer? with
    | none => throw (.mismatch .orderedByPosition)
    | some position =>
      let value ← (heap.content v).toEngine
      return .placed (← b.place position) value
  else do
    b.editable false
    let value ← (heap.content v).toEngine
    return .assigned (← slotNamed (← key.written types heap)) value

/-- The edits that a call asks for, each as it is made of the arguments or refused. A call that is
refused as a whole asks for one. -/
def requests (b : Builder) (types : TypeTable) (heap : Heap) (given : Bound) :
    Method → List (Except Error Edit)
  | .append => [do b.editable true; addition heap (given.get 0)]
  | .extend =>
    match (do b.editable true; (given.get 0).iterated heap : Except Error (List Value)) with
    | .ok items => items.map (addition heap)
    | .error e => [.error e]
  | .set => [b.assignment types heap (given.get 0) (given.get 1)]
  | .update => given.keywords.map fun p ↦ b.assignment types heap (.text p.1) p.2
  | _ => []

/-- The calls that edit a builder. -/
def editing : List Method := [.append, .extend, .set, .update]

/-- The edits in front of the first that is refused. -/
def kept : List (Except Error Edit) → List Edit
  | .ok e :: rest => e :: kept rest
  | .error _ :: _ => []
  | [] => []

/-- The first refusal, if there is one. -/
def outcome : List (Except Error Edit) → Except Error Unit
  | .ok _ :: rest => outcome rest
  | .error raised :: _ => .error raised
  | [] => .ok ⟨⟩

theorem eq_of_outcome_error {asked : List (Except Error Edit)} {raised : Error}
    (hasked : outcome asked = .error raised) :
    ∃ rest, asked = (kept asked).map .ok ++ .error raised :: rest := by
  induction asked with
  | nil => cases hasked
  | cons first rest ih =>
    cases first with
    | ok e =>
      obtain ⟨later, hrest⟩ := ih hasked
      exact ⟨later, congrArg (.ok e :: ·) hrest⟩
    | error found =>
      cases hasked
      exact ⟨rest, rfl⟩

end Builder

/-! ### What is read for an edit -/

namespace Act

variable {world : World} {s : State}

theorem runIn_encode (v : Value) : (encode v).runIn world s = ((s.heap.content v).toEngine, s) := by
  unfold encode
  rw [runIn_bind, runIn_get]
  exact runIn_ofExcept _ _ _

theorem runIn_written (v : Value) :
    (written v).runIn world s = (v.written world.types s.heap, s) := by
  unfold written
  rw [runIn_bind, runIn_read]
  dsimp only
  rw [runIn_bind, runIn_get]
  exact runIn_ofExcept _ _ _

/-- A text is taken as the name of a slot, or refused. -/
theorem runIn_slotSymbol (text : String) :
    (symbol .slot (.text text)).runIn world s = (Builder.slotNamed text, s) := by
  unfold symbol Builder.slotNamed
  rw [runIn_bind, runIn_symbolText]
  by_cases haccepts : Text.SafeSymbol.accepts text = true
  · rw [if_pos haccepts, if_pos haccepts]
    rfl
  · rw [if_neg haccepts, if_neg haccepts]

end Act

namespace Builder

/-! ### Calls -/

/-- What an edit by itself comes to: a refused one leaves the state. -/
def answered (s : State) (id : Nat) (b : Builder) : Except Error Edit → Except Error Unit × State
  | .ok e => (.ok ⟨⟩, s.withBuilder id (b.edit e))
  | .error raised => (.error raised, s)

section

variable {world : World} {s t : State} {id : Nat} {b : Builder} {α : Type}

/-- What a value is added by once the builder was found to take values in order. -/
def adding (id : Nat) (v : Value) : Act Unit := do
  let value ← encode v
  let b ← read id
  write id { b with values := b.values ++ [value] }

theorem runIn_adding (hb : s.heap.builder? id = some b) (v : Value) :
    (adding id v).runIn world s = answered s id b (addition s.heap v) := by
  unfold adding addition
  rw [runIn_bind, runIn_encode]
  cases hv : (s.heap.content v).toEngine with
  | error raised => rfl
  | ok value =>
    dsimp only
    rw [runIn_bind, runIn_read hb]
    rfl

theorem putAt_eq (b : Builder) (position : Int) (v : EngineValue) :
    b.putAt position v = (b.place position).map fun i ↦ b.edit (.placed i v) := by
  unfold putAt place
  dsimp only
  generalize (if position < 0 then position + (b.values.length : Int) else position) = i
  split <;> rfl

theorem runIn_set (hb : s.heap.builder? id = some b) (key v : Value) :
    (Builder.set id key v).runIn world s =
      answered s id b (b.assignment world.types s.heap key v) := by
  unfold Builder.set assignment
  rw [runIn_bind, runIn_read hb]
  dsimp only
  by_cases hordered : b.ordered
  · rw [if_pos hordered, if_pos hordered, runIn_bind, runIn_ofExcept]
    cases b.editable true with
    | error raised => rfl
    | ok _ =>
      dsimp only
      cases key.integer? with
      | none => rfl
      | some position =>
        dsimp only
        rw [runIn_bind, runIn_encode]
        cases hv : (s.heap.content v).toEngine with
        | error raised => rfl
        | ok value =>
          dsimp only
          rw [runIn_bind, runIn_read hb]
          dsimp only
          rw [runIn_bind, runIn_ofExcept, putAt_eq]
          cases b.place position <;> rfl
  · rw [if_neg hordered, if_neg hordered, runIn_bind, runIn_ofExcept]
    cases b.editable false with
    | error raised => rfl
    | ok _ =>
      dsimp only
      rw [runIn_bind, runIn_encode]
      cases hv : (s.heap.content v).toEngine with
      | error raised => rfl
      | ok value =>
        dsimp only
        rw [runIn_bind, runIn_written]
        cases key.written world.types s.heap with
        | error raised => rfl
        | ok text =>
          change _ = answered s id b (do return .assigned (← slotNamed text) value)
          dsimp only
          rw [runIn_bind, runIn_slotSymbol]
          cases slotNamed text with
          | error raised => rfl
          | ok slot =>
            dsimp only
            rw [runIn_bind, runIn_read hb]
            rfl

theorem runIn_append (hb : s.heap.builder? id = some b) (v : Value) :
    (append id v).runIn world s = answered s id b (do b.editable true; addition s.heap v) := by
  unfold append
  rw [runIn_bind, runIn_read hb]
  dsimp only
  rw [runIn_bind, runIn_ofExcept]
  cases b.editable true with
  | error raised => rfl
  | ok _ => exact runIn_adding hb v

/-! ### Several edits -/

theorem builder?_withBuilder (hb : s.heap.builder? id = some b) (c : Builder) :
    (s.withBuilder id c).heap.builder? id = some c :=
  Heap.builder?_put hb c

/-- What some edits come to, one after the other up to the first that is refused. -/
def ended (s : State) (id : Nat) (b : Builder) (asked : List (Except Error Edit)) :
    Except Error Unit × State :=
  (outcome asked, s.withBuilder id (b.edited (kept asked)))

theorem answered_eq_ended (hb : s.heap.builder? id = some b) (asked : Except Error Edit) :
    answered s id b asked = ended s id b [asked] := by
  cases asked with
  | ok e => rfl
  | error raised => exact congrArg (Prod.mk _) (State.withBuilder_self hb).symm

/-- Steps that each come to an edit, wherever the edits before have led, come to all of them in
order. -/
theorem runIn_forM_edits {step : α → Act Unit} {request : α → Except Error Edit} {items : List α}
    (hstep : ∀ a ∈ items, ∀ edits,
      (step a).runIn world (s.withBuilder id (b.edited edits)) =
      answered (s.withBuilder id (b.edited edits)) id (b.edited edits) (request a))
    (edits : List Edit) :
    (items.forM step).runIn world (s.withBuilder id (b.edited edits)) =
      (outcome (items.map request),
        s.withBuilder id (b.edited (edits ++ kept (items.map request)))) := by
  induction items generalizing edits with
  | nil => rw [List.map_nil, kept, List.append_nil]; rfl
  | cons a rest ih =>
    obtain ⟨hfirst, hrest⟩ := List.forall_mem_cons.mp hstep
    rw [List.forM_eq_forM, List.forM_cons, runIn_bind, hfirst edits, List.map_cons]
    cases request a with
    | error raised =>
      rw [kept, List.append_nil]
      rfl
    | ok e =>
      have hmade : (s.withBuilder id (b.edited edits)).withBuilder id ((b.edited edits).edit e) =
          s.withBuilder id (b.edited (edits ++ [e])) := by
        rw [State.withBuilder_withBuilder, edited_append]
        rfl
      dsimp only [answered]
      rw [hmade, ← List.forM_eq_forM, ih hrest (edits ++ [e]), List.append_assoc]
      rfl

theorem runIn_forM_ended (hb : s.heap.builder? id = some b) {step : α → Act Unit}
    {request : α → Except Error Edit} {items : List α}
    (hstep : ∀ a ∈ items, ∀ edits,
      (step a).runIn world (s.withBuilder id (b.edited edits)) =
      answered (s.withBuilder id (b.edited edits)) id (b.edited edits) (request a)) :
    (items.forM step).runIn world s = ended s id b (items.map request) := by
  have hrun := runIn_forM_edits hstep []
  rw [edited_nil, State.withBuilder_self hb] at hrun
  exact hrun

theorem runIn_extend (hb : s.heap.builder? id = some b) (given : Bound) :
    (extend id (given.get 0)).runIn world s =
      ended s id b (b.requests world.types s.heap given .extend) := by
  unfold extend requests
  rw [runIn_bind, runIn_read hb]
  dsimp only
  rw [runIn_bind, runIn_ofExcept]
  cases b.editable true with
  | error raised => exact congrArg (Prod.mk _) (State.withBuilder_self hb).symm
  | ok _ =>
    dsimp only
    rw [runIn_bind, runIn_get]
    dsimp only
    rw [runIn_bind, runIn_ofExcept]
    cases hitems : (given.get 0).iterated s.heap with
    | error raised => exact congrArg (Prod.mk _) (State.withBuilder_self hb).symm
    | ok items =>
      have hstep : ∀ v ∈ items, ∀ edits,
          (adding id v).runIn world (s.withBuilder id (b.edited edits)) =
          answered (s.withBuilder id (b.edited edits)) id (b.edited edits) (addition s.heap v) := by
        intro v _ edits
        have hsame : addition (s.withBuilder id (b.edited edits)).heap v = addition s.heap v := by
          rw [addition, addition, State.withBuilder, Heap.content_put_builder hb]
        rw [← hsame]
        exact runIn_adding (builder?_withBuilder hb _) v
      exact runIn_forM_ended hb hstep

/-- What a keyword asks for is the same after other edits. -/
theorem assignment_text_edited (hb : s.heap.builder? id = some b) (edits : List Edit)
    (types : TypeTable) (text : String) (v : Value) :
    (b.edited edits).assignment types (s.withBuilder id (b.edited edits)).heap (.text text) v =
      b.assignment types s.heap (.text text) v := by
  obtain ⟨-, hordered⟩ := b.editable_edited edits true
  have hwritten : ∀ heap : Heap, (Value.text text).written types heap = .ok text := fun heap ↦ by
    rw [Value.written, Heap.content_text]
  unfold assignment
  rw [hordered, (b.editable_edited edits true).1, (b.editable_edited edits false).1, hwritten,
    hwritten, State.withBuilder, Heap.content_put_builder hb]
  rfl

theorem runIn_update (hb : s.heap.builder? id = some b) (given : Bound) :
    (update id given.keywords).runIn world s =
      ended s id b (b.requests world.types s.heap given .update) := by
  have hstep : ∀ p ∈ given.keywords, ∀ edits,
      (Builder.set id (.text p.1) p.2).runIn world (s.withBuilder id (b.edited edits)) =
        answered (s.withBuilder id (b.edited edits)) id (b.edited edits)
          (b.assignment world.types s.heap (.text p.1) p.2) := by
    intro p _ edits
    rw [← assignment_text_edited hb edits]
    exact runIn_set (builder?_withBuilder hb _) _ _
  exact runIn_forM_ended hb hstep

/-- A call that edits a builder makes the edits that it asks for, up to the first that is refused,
and is refused as that is. Nothing else changes. -/
theorem runIn_edits (hb : s.heap.builder? id = some b) {method : Method}
    (hmethod : method ∈ editing) (given : Bound) :
    (callBuilder id method given).runIn world s =
      ((outcome (b.requests world.types s.heap given method)).map fun _ ↦ .builder id,
        s.withBuilder id (b.edited (kept (b.requests world.types s.heap given method)))) := by
  have hafter : ∀ {act : Act Unit} {asked : List (Except Error Edit)},
      act.runIn world s = ended s id b asked →
      (do act; return .builder id : Act Value).runIn world s =
        ((outcome asked).map fun _ ↦ .builder id, s.withBuilder id (b.edited (kept asked))) := by
    intro act asked hact
    rw [runIn_bind, hact]
    unfold ended
    cases outcome asked <;> rfl
  simp only [editing, List.mem_cons, List.not_mem_nil, or_false] at hmethod
  obtain rfl | rfl | rfl | rfl := hmethod
  · exact hafter ((runIn_append hb _).trans (answered_eq_ended hb _))
  · exact hafter (runIn_extend hb given)
  · exact hafter ((runIn_set hb _ _).trans (answered_eq_ended hb _))
  · exact hafter (runIn_update hb given)

/-! ### Refused calls -/

theorem requests_length_of_single {method : Method} (hsingle : method = .append ∨ method = .set)
    (b : Builder) (types : TypeTable) (heap : Heap) (given : Bound) :
    (b.requests types heap given method).length = 1 := by
  obtain rfl | rfl := hsingle <;> rfl

end

/-- A call that is refused leaves the edits in front of the one that is refused, in order, and
changes nothing else. There are none if it is refused as a whole, and a call for one edit changes
nothing at all. -/
theorem refused_edits {world : World} {s t : State} {id : Nat} {b : Builder} {method : Method}
    {given : Bound} {raised : Error} (hb : s.heap.builder? id = some b) (hmethod : method ∈ editing)
    (hrun : (callBuilder id method given).runIn world s = (.error raised, t)) :
    ∃ made rest, b.requests world.types s.heap given method =
      made.map .ok ++ .error raised :: rest ∧
      t = s.withBuilder id (b.edited made) ∧ (method = .append ∨ method = .set → t = s) := by
  rw [runIn_edits hb hmethod] at hrun
  obtain ⟨houtcome, hleft⟩ := Prod.mk.inj hrun
  have hrefused : outcome (b.requests world.types s.heap given method) = .error raised := by
    cases hasked : outcome (b.requests world.types s.heap given method) with
    | ok u =>
      rw [hasked] at houtcome
      cases houtcome
    | error found =>
      rw [hasked] at houtcome
      cases houtcome
      rfl
  obtain ⟨rest, hrequests⟩ := eq_of_outcome_error hrefused
  refine ⟨_, rest, hrequests, hleft.symm, fun hsingle ↦ ?_⟩
  have hnone : kept (b.requests world.types s.heap given method) = [] := by
    have hlength := requests_length_of_single hsingle b world.types s.heap given
    rw [hrequests, List.length_append, List.length_map, List.length_cons] at hlength
    exact List.length_eq_zero_iff.mp (by omega)
  rw [← hleft, hnone]
  exact State.withBuilder_self hb

/-- A pending fact of ordered values in the first cell. -/
def colorsBuilder : Builder where
  template := ⟨.plain "colors", (0, 0), 0⟩
  ordered := true

/-- A state with that fact and nothing else. -/
def colorsState : State where
  heap := ⟨#[.builder colorsBuilder]⟩

/-- The arguments to extend it by an integer and an object that the engine has no value for. -/
def mixedValues : Bound where
  values := [some (.list [.int .unsized 1, .stranger .object])]

theorem iterated_mixedValues :
    (mixedValues.get 0).iterated colorsState.heap = .ok [.int .unsized 1, .stranger .object] := by
  have hcontent : colorsState.heap.content (mixedValues.get 0) =
      .list [.int .unsized 1, .stranger .object] := by
    simp [mixedValues, Bound.get, Bound.get?, Heap.content, Value.settledWithin, settledEach]
  rw [Value.iterated, hcontent]

theorem requests_mixedValues (types : TypeTable) :
    colorsBuilder.requests types colorsState.heap mixedValues .extend =
      [.ok (.added (.integer 1 (by decide))),
        .error (.unsupported (.noRepresentation "Unknown"))] := by
  have hfirst : addition colorsState.heap (.int .unsized 1) =
      .ok (.added (.integer 1 (by decide))) := by
    rw [addition, show colorsState.heap.content (.int .unsized 1) = .int .unsized 1 by
      simp [Heap.content, Value.settledWithin]]
    rfl
  have hsecond : addition colorsState.heap (.stranger .object) =
      .error (.unsupported (.noRepresentation "Unknown")) := by
    rw [addition, show colorsState.heap.content (.stranger .object) = .stranger .object by
      simp [Heap.content, Value.settledWithin]]
    rfl
  have hitems :
      (do colorsBuilder.editable true
          (mixedValues.get 0).iterated colorsState.heap : Except Error _) =
      .ok [.int .unsized 1, .stranger .object] := iterated_mixedValues
  unfold requests
  rw [hitems]
  dsimp only
  rw [List.map_cons, List.map_cons, List.map_nil, hfirst, hsecond]

theorem runIn_extend_mixedValues (world : World) :
    (callBuilder 0 .extend mixedValues).runIn world colorsState =
      (.error (.unsupported (.noRepresentation "Unknown")),
        colorsState.withBuilder 0 { colorsBuilder with values := [.integer 1 (by decide)] }) := by
  rw [runIn_edits (b := colorsBuilder) rfl (by simp [editing]), requests_mixedValues]
  rfl

/-- An integer stays of a walk that is refused at an object. -/
theorem refused_edits_mixed :
    let world := World.ofDepth {} {} classlessEngine 0
    ∃ t raised, (callBuilder 0 .extend mixedValues).runIn world colorsState = (.error raised, t) ∧
      ∃ made rest, colorsBuilder.requests world.types colorsState.heap mixedValues .extend =
        made.map .ok ++ .error raised :: rest ∧
          t = colorsState.withBuilder 0 (colorsBuilder.edited made) := by
  intro world
  have hrun := runIn_extend_mixedValues world
  obtain ⟨made, rest, hrequests, hleft, -⟩ :=
    refused_edits (b := colorsBuilder) rfl (by simp [editing]) hrun
  exact ⟨_, _, hrun, made, rest, hrequests, hleft⟩

/-- A call that extends a pending fact is refused, and the pending fact is another afterwards. -/
theorem extension_not_atomic :
    let world := World.ofDepth {} {} classlessEngine 0
    ∃ t raised b c, (callBuilder 0 .extend mixedValues).runIn world colorsState =
      (.error raised, t) ∧
      colorsState.heap.builder? 0 = some b ∧ t.heap.builder? 0 = some c ∧
        b.values.length < c.values.length :=
  ⟨_, _, colorsBuilder, { colorsBuilder with values := [.integer 1 (by decide)] },
    runIn_extend_mixedValues _, rfl, rfl, by decide⟩

end Builder

end RuleMarshal
