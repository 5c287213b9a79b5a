import RuleMarshal.Proofs.Insertion.Outcome
import RuleMarshal.Proofs.Insertion.Progress
import RuleMarshal.Proofs.Session.Surfacing
/-!
What a failed insertion leaves behind. Objects that a slot refers to are inserted before the
instance that refers to them, so an insertion that fails may have made instances: those of what was
finished before the place that it had come to, and of none of the objects that are under way there,
the root being the first of them (`insert_breaks_off`). Where no slot of the root refers to objects,
nothing is left behind (`insert_leaves_nothing_of_plain`).
-/

set_option autoImplicit false
set_option relaxedAutoImplicit false

namespace RuleMarshal

open Act

section

variable {g : ObjectGraph} {keep : Heap → Prop} {e : Error} {n : ObjectNode}
variable {under : List ObjectNode}
variable {made : List Made}

/-- Something stands in an object that the insertion was broken off in, if anything was finished. -/
theorem BreaksAt.exists_standsAt {position item : Nat}
    (hbreaks : BreaksAt g keep e n position item under made) (hmade : made ≠ []) :
    ∃ b k l, StandsAt g keep n b k l := by
  cases hbreaks with
  | here hrefused hbefore =>
    obtain ⟨m, hm⟩ := List.exists_mem_of_ne_nil _ hmade
    obtain ⟨b, k, l, -, hstands, -⟩ := hbefore m hm
    exact ⟨b, k, l, hstands⟩
  | inside hstands hbefore hinside => exact ⟨_, _, _, hstands⟩

/-- Where no slot refers to objects, nothing is finished before the insertion is broken off. -/
theorem BreaksOff.eq_nil_of_plain (hbreaks : BreaksOff g keep n e under made)
    (hplain : ∀ schema, HasSchema g keep n.value schema → ∀ slot ∈ schema.slots,
      slot.reference = none) :
    made = [] := by
  cases hbreaks with
  | unbegun hspared => rfl
  | begun hbreaks =>
    by_contra hmade
    obtain ⟨b, k, l, -, slot, heap, v, ⟨⟨schema, hschema, hslot⟩, -, -⟩, hsome, -⟩ :=
      hbreaks.exists_standsAt hmade
    rw [hplain schema hschema slot (List.mem_of_getElem? hslot)] at hsome
    cases hsome

end

/-- An insertion that fails otherwise than by what a command came to has passed its guard. -/
theorem unguarded_of_insert {world : World} {s t : State} {v name : Value} {e : Error}
    (hrun : (insert v name).runIn world s = (.error e, t)) (he : e.answersCommand = false) :
    s.closed = false ∧ s.depth = 0 := by
  unfold insert at hrun
  rw [runIn_guardMutation_bind] at hrun
  split at hrun
  · cases hrun
    cases he
  · rename_i hopen
    split at hrun
    · cases hrun
      cases he
    · rename_i hrest
      exact ⟨by simpa using hopen, by omega⟩

/-- An insertion that fails otherwise than by what a command came to is broken off in the midst of
what it inserts. -/
theorem Followable.exists_breaksOff {world : World} {s t : State} {keep : Heap → Prop}
    (hworld : Followable world s keep) (hparks : s.ParksCall) (hkeep : keep s.heap) {v name : Value}
    {e : Error} (hrun : (insert v name).runIn world s = (.error e, t))
    (he : e.answersCommand = false) :
    ∃ under made, t.creations = s.creations ++ made.map Made.creation ∧
      BreaksOff (s.objectGraph world) keep v.rootNode e under made ∧
      (cellsOf (under ++ made.map (·.node))).Nodup := by
  have hbegin : Ongoing world s keep {} s :=
    ⟨.refl hkeep, hparks, List.nodup_nil, List.forall_mem_nil _⟩
  obtain ⟨hopen, hrest⟩ := unguarded_of_insert hrun he
  rw [runIn_insert v name hopen hrest] at hrun
  split at hrun
  · cases hrun
    exact ⟨[], [], by simp, .unbegun rfl, List.nodup_nil⟩
  · rename_i type htype
    rw [map_eq_pure_bind] at hrun
    obtain hwithin | ⟨answer, u, -, hreturn⟩ := cases_of_bind_error hrun
    · have hcourse : Course world s keep {} s _ _ _
          (insertWithin callLimit v.rootNode.value type (s.heap.content name)) :=
        course_insertWithin hworld callLimit htype hbegin fun _ _ ↦ List.not_mem_nil
      obtain ⟨under, made, hbreaks, hordered, hapart⟩ := hcourse.failed hwithin he
      exact ⟨under, made, hordered, hbreaks, by simpa [Insertion.cells] using hapart⟩
    · cases hreturn

section

variable (types : TypeTable) (config : Config) (engine : Array Event → Command → Reply)
variable (depth : Nat)

theorem followable_ofDepth {s : State} {keep : Heap → Prop} (hfits : AnswersFit engine)
    (hcalm : Calm (.ofDepth types config engine depth) s keep) :
    Followable (.ofDepth types config engine depth) s keep where
  orderly := World.ofDepth_orderly types config engine depth
  endsCalls := World.ofDepth_endsCalls types config engine depth
  calm := hcalm
  fits := by rwa [World.ofDepth_engine]

/-- An insertion that fails, be it that a value is of no type or size that a slot takes, that an
object is none of what a slot refers to, or for any other reason than what a command came to, is
broken off in the midst of the objects that are under way. Let the integers that the engine hands
over be such as it takes, and let what is parked be a failed call. Then the orders that were sent
are one each for objects that were finished, with a value for every slot, before the place that the
insertion had come to in an object under way; a value that is refused stands in the last of these
places. None was sent for an object under way. What is said of the heap is so on heaps that the
functions which the engine calls meanwhile have kept. -/
theorem insert_breaks_off (s t : State) (v name : Value) (e : Error) (keep : Heap → Prop) :
    let world := World.ofDepth types config engine depth
    AnswersFit engine → s.ParksCall → keep s.heap → Calm world s keep →
    (insert v name).runIn world s = (.error e, t) → e.answersCommand = false →
    ∃ under made, t.creations = s.creations ++ made.map Made.creation ∧
      BreaksOff (s.objectGraph world) keep v.rootNode e under made ∧
      (cellsOf (under ++ made.map (·.node))).Nodup := by
  intro world hfits hparks hkeep hcalm hrun he
  exact (followable_ofDepth types config engine depth hfits hcalm).exists_breaksOff
    hparks hkeep hrun he

/-- An insertion of an object whose slots refer to no objects leaves nothing behind if it fails
otherwise than by what a command came to. -/
theorem insert_leaves_nothing_of_plain (s t : State) (v name : Value) (e : Error) :
    let world := World.ofDepth types config engine depth
    (∀ schema, HasSchema (s.objectGraph world) (fun _ ↦ True) v schema →
      ∀ slot ∈ schema.slots, slot.reference = none) →
    AnswersFit engine → s.ParksCall →
    (insert v name).runIn world s = (.error e, t) → e.answersCommand = false →
      t.creations = s.creations := by
  intro world hplain hfits hparks hrun he
  have hcalm : Calm world s fun _ ↦ True := fun _ _ _ _ _ _ _ ↦ trivial
  obtain ⟨under, made, hcreations, hbreaks, -⟩ :=
    (followable_ofDepth types config engine depth hfits hcalm).exists_breaksOff
      hparks trivial hrun he
  rw [hcreations, hbreaks.eq_nil_of_plain hplain, List.map_nil, List.append_nil]

end

/-! ### An object whose second slot is refused -/

/-- A struct type whose objects refer to two leaves. -/
def stemTypes : TypeTable where
  types :=
    [{ name := "Leaf", kind := .described, fields := [] },
     { name := "Stem", kind := .described,
       fields :=
         [{ attr := "leaf", hint := .struct "Leaf" }, { attr := "bud", hint := .struct "Leaf" }] }]

/-- A stem with a leaf, and with a text in the place of the other one. -/
def stemState : State where
  heap.cells := #[.object [("leaf", .object "Leaf" 1), ("bud", .text "none yet")], .object []]

/-- An engine that knows the classes of stems and leaves and makes every instance. -/
def stemEngine (_ : Array Event) : Command → Reply
  | .evaluate .freshName => { outcome := .ok (.symbol "gen1") }
  | .evaluate (.makeInstance (some name) _ _) => { outcome := .ok (.instanceName name) }
  | .evaluate (.classQuery _ _) => { outcome := .ok (.bool true) }
  | .evaluate (.classSlots _) => { outcome := .ok (.list [.symbol "leaf", .symbol "bud"]) }
  | _ => { outcome := .ok (.bool false) }

theorem stemEngine_calls (history : Array Event) (c : Command) :
    (stemEngine history c).calls = [] := by
  unfold stemEngine
  split <;> rfl

theorem stemEngine_answersFit : AnswersFit stemEngine := by
  intro history c v houtcome
  unfold stemEngine at houtcome
  split at houtcome <;> cases houtcome <;> simp [Native.Fits, nativesFit]

/-- The second slot is refused. -/
theorem stem_refused :
    let world := World.ofDepth stemTypes { autoSynthesize := false } stemEngine 0
    ∃ e, ((insert (.object "Stem" 0) .none).runIn world stemState).1 = .error e ∧
      e.class? = some .mismatch ∧ e.refusesValue = true := by
  intro world
  have hname : stemState.heap.content .none = .none := by simp [Heap.content, Value.settledWithin]
  have hfails : Except.casesOn (motive := fun _ ↦ Bool)
    ((insert (.object "Stem" 0) .none).runIn world stemState).1
      (fun e ↦ decide (e.class? = some .mismatch) && e.refusesValue) (fun _ ↦ false) = true := by
    rw [runIn_insert _ _ rfl rfl, hname]
    decide +kernel
  cases hrun : ((insert (.object "Stem" 0) .none).runIn world stemState).1 with
  | error e =>
    rw [hrun, Bool.and_eq_true, decide_eq_true_iff] at hfails
    exact ⟨e, rfl, hfails⟩
  | ok _ =>
    rw [hrun] at hfails
    cases hfails

/-- Where a slot is refused that comes after one that refers to an object, the instance of that
object was ordered and is left behind. -/
theorem refused_insert_leaves_instance :
    let world := World.ofDepth stemTypes { autoSynthesize := false } stemEngine 0
    let run := (insert (.object "Stem" 0) .none).runIn world stemState
    (∃ e, run.1 = .error e ∧ e.class? = some .mismatch ∧ e.refusesValue = true) ∧
      run.2.creations.map (·.className) = ["Leaf"] := by
  refine ⟨stem_refused, ?_⟩
  have hname : stemState.heap.content .none = .none := by simp [Heap.content, Value.settledWithin]
  rw [runIn_insert _ _ rfl rfl, hname]
  decide +kernel

/-- What the refusal of a stem's second slot leaves behind was finished before, on the heap that the
objects are in. -/
theorem insert_breaks_off_stem :
    let world := World.ofDepth stemTypes { autoSynthesize := false } stemEngine 0
    let run := (insert (.object "Stem" 0) .none).runIn world stemState
    ∃ e under made, run.1 = .error e ∧ run.2.creations = made.map Made.creation ∧
      BreaksOff (stemState.objectGraph world) (· = stemState.heap)
        (Value.object "Stem" 0).rootNode e under made ∧
      (cellsOf (under ++ made.map (·.node))).Nodup := by
  intro world run
  obtain ⟨e, herror, -, hrefuses⟩ := stem_refused
  have hcommand : e.answersCommand = false := by
    by_contra hanswers
    rw [Error.refusesValue_of_answersCommand (by simpa using hanswers)] at hrefuses
    cases hrefuses
  obtain ⟨under, made, hcreations, hbreaks, hapart⟩ :=
    insert_breaks_off stemTypes { autoSynthesize := false }
    stemEngine 0 stemState run.2 (.object "Stem" 0) .none e (· = stemState.heap)
      stemEngine_answersFit
    (fun _ ↦ nofun) rfl (calm_of_no_calls _ _ stemEngine_calls) (Prod.ext herror rfl) hcommand
  exact ⟨e, under, made, herror, hcreations, hbreaks, hapart⟩

end RuleMarshal
