import RuleMarshal.Environment.Channel
import RuleMarshal.Proofs.Computation.Contract
/-!
Conversions that leave some destinations to a resolver: the conversion itself touches nothing, so
what holds of the resolver holds of the conversion if the ways in which conversions are built pass
it on (`PassedByConversion`, `Hint.passes_decode`).

So conversions meet what the resolver meets. A union goes on after the failure of a member to
convert, so such failures have to be among the errors that may be followed (`Hint.meets_decode`);
relations that are kept however a run ends make no difference between errors (`Hint.keeps_decode`).
-/

set_option autoImplicit false
set_option relaxedAutoImplicit false

namespace RuleMarshal

/-- A property of computations that the ways in which conversions are built pass on: from the parts
of a computation to the whole, and from the members of a union to trying one after the other. -/
structure PassedByConversion (P : (α : Type) → Act α → Prop) : Prop where
  pure : ∀ {α : Type} (a : α), P α (pure a)
  throw : ∀ {α : Type} (e : Error), P α (throw e)
  bind : ∀ {α β : Type} {act : Act α} {next : α → Act β}, P α act → (∀ a, P β (next a)) →
    P β (act >>= next)
  orElse : ∀ {act next : Act Value}, P Value act → P Value next →
    P Value (tryCatch act fun e ↦ if e.isConversion then next else MonadExcept.throw e)

namespace PassedByConversion

variable {P : (α : Type) → Act α → Prop} {α β γ : Type}

variable (hP : PassedByConversion P)
include hP

theorem ofExcept (found : Except Error α) : P α (MonadExcept.ofExcept found) := by
  cases found with
  | error e => exact hP.throw e
  | ok a => exact hP.pure a

theorem mapM {f : γ → Act β} (items : List γ) (hf : ∀ c ∈ items, P β (f c)) :
    P (List β) (items.mapM f) := by
  induction items with
  | nil => exact hP.pure _
  | cons c rest ih =>
    rw [List.mapM_cons]
    refine hP.bind (hf c List.mem_cons_self) fun _ ↦ ?_
    exact hP.bind (ih fun d hd ↦ hf d (List.mem_cons_of_mem c hd)) fun _ ↦ hP.pure _

end PassedByConversion

variable {world : World} {C : Contract} {P : (α : Type) → Act α → Prop}
variable {resolve : Option (EngineValue → Hint → Act Value)}

namespace Hint

theorem decode_generic_of_ne {place : Place} {origin : HintAtom} {args : List Hint}
    {v : EngineValue} (horigin : origin ≠ .list) :
    (@generic place origin args).decode resolve v =
      leave resolve (@generic place origin args) v := by
  cases origin <;> first | exact absurd rfl horigin | (unfold decode; rfl)

/-! ### What conversions pass on -/

theorem passes_leave (hP : PassedByConversion P) (hresolve : ∀ f ∈ resolve, ∀ v h, P Value (f v h))
    (h : Hint) (v : EngineValue) : P Value (leave resolve h v) := by
  cases resolve with
  | none => exact hP.throw _
  | some f => exact hresolve f rfl v h

theorem passes_sequence (hP : PassedByConversion P) (h whole : Hint) (v : EngineValue)
    (make : List Value → Value) (hitem : ∀ w, P Value (h.decode resolve w))
    (hleave : P Value (leave resolve whole v)) :
    P Value (if h.isAbsence then leave resolve whole v else do
      let items ← MonadExcept.ofExcept (v.items whole)
      return make (← items.mapM (h.decode resolve))) := by
  split
  · exact hleave
  · refine hP.bind (hP.ofExcept _) fun items ↦ ?_
    exact hP.bind (hP.mapM items fun w _ ↦ hitem w) fun _ ↦ hP.pure _

mutual

theorem passes_decode (hP : PassedByConversion P)
    (hresolve : ∀ f ∈ resolve, ∀ v h, P Value (f v h)) :
    ∀ (h : Hint) (v : EngineValue), P Value (h.decode resolve v)
  | .atom a, v => by
    unfold decode
    cases decodeAtom? a v with
    | none => exact passes_leave hP hresolve _ v
    | some answer => exact hP.ofExcept answer
  | .union spelling members, v => by
    unfold decode
    have hmembers := passes_decodeMembers hP hresolve members v
    split
    · split
      · exact hP.pure _
      · split
        · exact passes_decodeSole hP hresolve members v
        · exact hmembers _
    · exact hmembers _
  | .listOf h, v => by
    unfold decode
    exact passes_sequence hP h _ v .list (passes_decode hP hresolve h)
      (passes_leave hP hresolve _ v)
  | .tupleOf h, v => by
    unfold decode
    exact passes_sequence hP h _ v .tuple (passes_decode hP hresolve h)
      (passes_leave hP hresolve _ v)
  | .sequenceOf h, v => by
    unfold decode
    exact passes_sequence hP h _ v .list (passes_decode hP hresolve h)
      (passes_leave hP hresolve _ v)
  | .mutableSequenceOf h, v => by
    unfold decode
    exact passes_sequence hP h _ v .list (passes_decode hP hresolve h)
      (passes_leave hP hresolve _ v)
  | .fixedTuple [], v => by
    unfold decode
    exact hP.bind (hP.ofExcept _) fun items ↦ hP.bind (hP.ofExcept _) fun _ ↦ hP.pure _
  | .fixedTuple (h :: rest), v => by
    unfold decode
    split
    · exact passes_sequence hP h _ v .tuple (passes_decode hP hresolve h)
        (passes_leave hP hresolve _ v)
    · exact hP.throw _
  | .generic origin args, v => by
    by_cases horigin : origin = .list
    · subst horigin
      unfold decode
      cases args with
      | nil => exact hP.bind (hP.ofExcept _) fun items ↦ hP.bind (hP.ofExcept _) fun _ ↦ hP.pure _
      | cons h rest =>
        exact passes_sequence hP h _ v .list (passes_decode hP hresolve h)
          (passes_leave hP hresolve _ v)
    · rw [decode_generic_of_ne horigin]
      exact passes_leave hP hresolve _ v
  | .setOf h, v => by
    unfold decode
    exact passes_leave hP hresolve _ v
  | .mappingOf place key value, v => by
    unfold decode
    exact passes_leave hP hresolve _ v

theorem passes_decodeSole (hP : PassedByConversion P)
    (hresolve : ∀ f ∈ resolve, ∀ v h, P Value (f v h)) :
    ∀ (members : List Hint) (v : EngineValue), P Value (decodeSole resolve members v)
  | [], v => by
    unfold decodeSole
    exact passes_leave hP hresolve _ v
  | h :: rest, v => by
    unfold decodeSole
    split
    · exact passes_decodeSole hP hresolve rest v
    · exact passes_decode hP hresolve h v

theorem passes_decodeMembers (hP : PassedByConversion P)
    (hresolve : ∀ f ∈ resolve, ∀ v h, P Value (f v h)) :
    ∀ (members : List Hint) (v : EngineValue) (failure : Error),
      P Value (decodeMembers resolve members v failure)
  | [], v, failure => by
    unfold decodeMembers
    exact hP.throw _
  | h :: rest, v, failure => by
    unfold decodeMembers
    split
    · exact passes_decodeMembers hP hresolve rest v failure
    · exact hP.orElse (passes_decode hP hresolve h v)
        (passes_decodeMembers hP hresolve rest v failure)

end

/-! ### Contracts -/

theorem passedByConversion_meets (hC : C.PassesConversions) :
    PassedByConversion fun _ act ↦ act.Meets C world where
  pure := .pure
  throw := .throw
  bind hact hnext := .bind hact hnext
  orElse hact hnext := by
    refine .tryCatch hact fun e ↦ ?_
    by_cases he : e.isConversion = true
    · exact .inr ⟨by rw [if_pos he]; exact hnext, hC e he⟩
    · exact .inl (if_neg he)

theorem meets_decode (hC : C.PassesConversions)
    (hresolve : ∀ f ∈ resolve, ∀ v h, (f v h).Meets C world) (h : Hint) (v : EngineValue) :
    (h.decode resolve v).Meets C world :=
  passes_decode (passedByConversion_meets hC) hresolve h v

theorem keeps_decode {R : State → State → Prop} [IsPreorder State R]
    (hresolve : ∀ f ∈ resolve, ∀ v h, (f v h).Keeps R world) (h : Hint) (v : EngineValue) :
    (h.decode resolve v).Keeps R world := by
  rw [← Act.Meets.iff_keeps]
  exact meets_decode (fun _ _ _ _ ↦ id)
    (fun f hf v h ↦ Act.Meets.iff_keeps.mpr (hresolve f hf v h)) h v

end Hint

end RuleMarshal
