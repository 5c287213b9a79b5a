import RuleMarshal.Proofs.Convert.Plain
import RuleMarshal.Proofs.Engine.Render
/-!
Values without a declared type. An engine value becomes a host value by its kind, and by its type
the host value becomes the same engine value again, unless foreign data or the bare value is
somewhere in it: what stands for foreign data on the host's side is nothing that the engine takes,
and nothing stands for the bare value (`EngineValue.exists_dynamic_iff`). So what is read where
every value is let through can be written back as it was, absence, truth values and handles at any
depth included (`Hint.exists_toEngine_of_isDynamic`).
-/

set_option autoImplicit false
set_option relaxedAutoImplicit false

namespace RuleMarshal

open MonadExcept (ofExcept)

namespace EngineValue

/-- The values that do not come back of what they become: foreign data and the bare value. -/
def IsForeign : EngineValue → Prop
  | .externalAddress _ | .bare => True
  | _ => False

/-- Whether a value holds, at no depth, foreign data or the bare value. -/
def IsForeignFree (e : EngineValue) : Prop := ∀ part, e.Contains part → ¬ part.IsForeign

variable {e : EngineValue} {es : List EngineValue}

theorem isForeignFree_iff_of_single (hsingle : ∀ items, e ≠ .multifield items) :
    e.IsForeignFree ↔ ¬ e.IsForeign := by
  simp [IsForeignFree, contains_iff_of_single hsingle]

theorem isForeignFree_multifield_iff : (multifield es).IsForeignFree ↔ ∀ e ∈ es, e.IsForeignFree :=
  forall_contains_multifield_iff.trans (and_iff_right id)

theorem exists_dynamic_iff_of_single (hsingle : ∀ items, e ≠ .multifield items) :
    (∃ v, e.dynamic = .ok v ∧ v.toEngine = .ok e) ↔ ¬ e.IsForeign := by
  cases e with
  | multifield items => exact absurd rfl (hsingle items)
  | integer n fits => simp [dynamic, Value.toEngine, ofInt, fits, IsForeign]
  | symbol text =>
    by_cases hnil : text = "nil"
    · simp [dynamic, Value.toEngine, hnil, nil, IsForeign]
    · simp [dynamic, Value.toEngine, hnil, IsForeign]
  | _ => simp [dynamic, Value.toEngine, IsForeign]

/-- The items of a multifield come back together exactly if each comes back alone. -/
theorem exists_dynamicEach_iff :
    (∃ vs, dynamicEach es = .ok vs ∧ toEngineEach vs = .ok es) ↔
      ∀ e ∈ es, ∃ v, e.dynamic = .ok v ∧ v.toEngine = .ok e := by
  induction es with
  | nil => simp [dynamicEach, toEngineEach]
  | cons e rest ih =>
    rw [List.forall_mem_cons, ← ih]
    constructor
    · rintro ⟨vs, hread, hwritten⟩
      obtain ⟨v, hv, hmore⟩ := Except.ok_of_bind hread
      obtain ⟨others, hothers, hreturn⟩ := Except.ok_of_bind hmore
      cases hreturn
      obtain ⟨first, hfirst, hmore⟩ := Except.ok_of_bind hwritten
      obtain ⟨again, hagain, hreturn⟩ := Except.ok_of_bind hmore
      cases hreturn
      exact ⟨⟨v, hv, hfirst⟩, others, hothers, hagain⟩
    · rintro ⟨⟨v, hv, hfirst⟩, others, hothers, hagain⟩
      refine ⟨v :: others, ?_, ?_⟩
      · rw [dynamicEach, hv, hothers]
        rfl
      · rw [toEngineEach, hfirst, hagain]
        rfl

theorem exists_dynamic_multifield_iff :
    (∃ v, (multifield es).dynamic = .ok v ∧ v.toEngine = .ok (multifield es)) ↔
      ∃ vs, dynamicEach es = .ok vs ∧ toEngineEach vs = .ok es := by
  constructor
  · rintro ⟨v, hread, hwritten⟩
    obtain ⟨vs, hvs, hreturn⟩ := Except.ok_of_bind hread
    cases hreturn
    obtain ⟨again, hagain, hreturn⟩ := Except.ok_of_bind hwritten
    cases hreturn
    exact ⟨vs, hvs, hagain⟩
  · rintro ⟨vs, hvs, hagain⟩
    refine ⟨.list vs, ?_, ?_⟩
    · rw [dynamic, hvs]
      rfl
    · rw [Value.toEngine, hagain]
      rfl

/-- A value comes back of what it becomes by its kind exactly if it holds no foreign data and no
bare value. -/
theorem exists_dynamic_iff (e : EngineValue) :
    (∃ v, e.dynamic = .ok v ∧ v.toEngine = .ok e) ↔ e.IsForeignFree := by
  induction e using of_items with
  | single e hsingle =>
    rw [exists_dynamic_iff_of_single hsingle, isForeignFree_iff_of_single hsingle]
  | multifield items ih =>
    rw [exists_dynamic_multifield_iff, exists_dynamicEach_iff, isForeignFree_multifield_iff]
    exact forall₂_congr ih

theorem eq_nil_of_isNil (hnil : e.isNil = true) : e = .nil := by
  cases e with
  | symbol text => rw [nil, of_decide_eq_true hnil]
  | _ => cases hnil

end EngineValue

namespace Hint

section

variable {n : Type → Type} [Monad n] [MonadExcept Error n] {h m : Hint}

theorem isUnion_of_isDynamic (hdynamic : m.isDynamic = true) : m.isUnion = false := by
  cases m with
  | union => cases hdynamic
  | _ => rfl

theorem decode_of_isDynamic (resolve : Option (EngineValue → Hint → n Value))
    (hdynamic : m.isDynamic = true) (e : EngineValue) :
    m.decode resolve e = ofExcept e.dynamic := by
  unfold isDynamic at hdynamic
  split at hdynamic <;> first | rfl | cases hdynamic

/-- Under a type that lets every value through, be it optional or not, a value without foreign data
and bare values is read, and what is read is written as the same value again. -/
theorem exists_toEngine_of_isDynamic (resolve : Option (EngineValue → Hint → n Value))
    (hdynamic : h.unwrapOptional.1.isDynamic = true) (e : EngineValue) (hfree : e.IsForeignFree) :
    ∃ v, h.decode resolve e = pure v ∧ v.toEngine = .ok e := by
  rcases hunwrap : h.unwrapOptional with ⟨m, optional⟩
  rw [hunwrap] at hdynamic
  rw [decode_of_unwrapOptional e hunwrap (isUnion_of_isDynamic hdynamic)]
  split
  · rename_i habsent
    obtain rfl := EngineValue.eq_nil_of_isNil (Bool.and_eq_true_iff.mp habsent).2
    exact ⟨.none, rfl, rfl⟩
  · obtain ⟨v, hread, hwritten⟩ := (EngineValue.exists_dynamic_iff e).mpr hfree
    refine ⟨v, ?_, hwritten⟩
    rw [decode_of_isDynamic resolve hdynamic, hread]
    rfl

end

/-- An absent value, a multifield of a truth value, a text, a float without a number and no items,
and handles come back together. -/
theorem exists_toEngine_of_isDynamic_nested :
    ∃ (e : EngineValue) (v : Value), any.unwrapOptional.1.isDynamic = true ∧ e.IsForeignFree ∧
      any.decode (Option.none : Option (EngineValue → Hint → Except Error Value)) e = .ok v ∧
        v.toEngine = .ok e := by
  let inner : EngineValue := .multifield [.ofBool true, .string "nil", .float .nan, .multifield []]
  let e : EngineValue :=
    .multifield [.nil, inner, .instanceAddress ⟨"ada", 0, 0⟩, .factAddress ⟨3, 0, 0⟩]
  have hfree : e.IsForeignFree := by
    simp [e, inner, EngineValue.isForeignFree_multifield_iff,
      EngineValue.isForeignFree_iff_of_single, EngineValue.IsForeign, EngineValue.nil,
      EngineValue.ofBool]
  have hdynamic : any.unwrapOptional.1.isDynamic = true := rfl
  obtain ⟨v, hread, hwritten⟩ :=
    exists_toEngine_of_isDynamic
      (Option.none : Option (EngineValue → Hint → Except Error Value)) hdynamic e hfree
  exact ⟨e, v, hdynamic, hfree, hread, hwritten⟩

end Hint

end RuleMarshal
