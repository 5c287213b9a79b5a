import RuleMarshal.Proofs.Extraction.Chain
/-!
Multifields into lists. The items of a multifield are extracted one after the other, each as it is
extracted alone (`extract_multifield`), where the address of a fact meets no sequence type and no
type of engine values.

Alone, the address of a fact becomes the fact under such a type too. As an item it is converted,
which does not follow it: a list of sequences never takes the address of an ordered fact
(`extract_multifield_refused`), whose values it takes one list at a time (`ordered_fact_refused`).
-/

set_option autoImplicit false
set_option relaxedAutoImplicit false

namespace RuleMarshal

open Act
open MonadExcept (ofExcept)

/-- Whether the address of a fact is read alike alone and as an item of a multifield: what is to be
there is neither a sequence nor an engine value. -/
structure Hint.ReadsFactsAlike (h : Hint) : Prop where
  sequence : ∀ asTuple item, h.unwrapOptional.1.items ≠ .each asTuple item
  engineValue : ∀ kind, h.unwrapOptional.1 ≠ .engineValue kind

variable {world : World} {h m item : Hint} {handle : FactHandle} {es : List EngineValue}
variable {s t : State}

/-! ### Types that are left to the resolver -/

/-- A container that is no sequence is a mapping or a struct type. -/
theorem Hint.isMapping_or_isStruct {table : TypeTable} (hcontainer : m.isContainer table = .ok true)
    (hsequence : ∀ asTuple item, m.items ≠ .each asTuple item) :
    m.isMapping = true ∨ table.isStruct m = true := by
  unfold isContainer at hcontainer
  split at hcontainer
  · rename_i hkind
    exact Bool.or_eq_true_iff.mp hkind
  · split at hcontainer
    · cases hcontainer
    · rename_i asTuple item hitems
      exact absurd hitems (hsequence asTuple item)
    · cases hcontainer

/-- Mappings and struct types that are no types of engine values are left to the resolver. -/
theorem Hint.decode_of_isMapping_or_isStruct {n : Type → Type} [Monad n] [MonadExcept Error n]
    {resolve : Option (EngineValue → Hint → n Value)} {table : TypeTable} (e : EngineValue)
    (hkind : m.isMapping = true ∨ table.isStruct m = true)
    (hengine : ∀ kind, m ≠ .engineValue kind) :
    m.decode resolve e = leave resolve m e := by
  cases m with
  | atom a =>
    cases a with
    | mapping | struct => rfl
    | engineValue kind => exact absurd rfl (hengine kind)
    | _ => obtain hkind | hkind := hkind <;> cases hkind
  | mappingOf => rfl
  | generic origin args =>
    cases origin with
    | mapping => rfl
    | _ => obtain hkind | hkind := hkind <;> cases hkind
  | _ => obtain hkind | hkind := hkind <;> cases hkind

/-- A tuple whose items have types of their own is refused, whatever is to be decoded. -/
theorem Hint.decode_of_ofOwnTypes {n : Type → Type} [Monad n] [MonadExcept Error n]
    {resolve : Option (EngineValue → Hint → n Value)} (e : EngineValue)
    (hitems : m.items = .ofOwnTypes) :
    m.decode resolve e = throw m.itemsRefused := by
  cases m with
  | fixedTuple hs =>
    cases hs with
    | nil => cases hitems
    | cons first rest =>
      rw [items] at hitems
      split at hitems
      · unfold Items.ofItem at hitems
        split at hitems <;> cases hitems
      · rename_i hmixed
        rw [decode, if_neg hmixed]
  | atom a => cases a <;> cases hitems
  | listOf k | tupleOf k | sequenceOf k | mutableSequenceOf k =>
    rw [items, Items.ofItem] at hitems
    split at hitems <;> cases hitems
  | generic origin args =>
    cases origin with
    | list =>
      cases args with
      | nil => cases hitems
      | cons first rest =>
        rw [items, Items.ofItem] at hitems
        split at hitems <;> cases hitems
    | _ => cases hitems
  | _ => cases hitems

theorem Hint.isUnion_of_isContainer {table : TypeTable}
    (hcontainer : m.isContainer table ≠ .ok false) :
    m.isUnion = false := by
  cases m with
  | union => exact absurd rfl hcontainer
  | _ => rfl

theorem Hint.items_of_isContainer_error {table : TypeTable} {e : Error}
    (hcontainer : m.isContainer table = .error e) :
    m.items = .ofOwnTypes ∧ e = m.itemsRefused := by
  unfold isContainer at hcontainer
  split at hcontainer
  · cases hcontainer
  · split at hcontainer
    · cases hcontainer
    · cases hcontainer
    · rename_i hitems
      cases hcontainer
      exact ⟨hitems, rfl⟩

/-- The resolver follows the address of a fact into every container. -/
theorem runIn_resolveBy_factAddress {extract : EngineValue → Hint → Act Value}
    (hcontainer : m.isContainer world.types = .ok true) :
    (resolveBy extract (.factAddress handle) m).runIn world s =
      (extractFact extract handle m none).runIn world s := by
  unfold resolveBy
  split
  · cases hcontainer
  · cases hcontainer
  · rw [runIn_bind_of_ok (runIn_read world s)]
    dsimp only
    rw [if_neg (by simp [EngineValue.isNil]), hcontainer]
    rfl

/-! ### Items -/

/-- What the address of a fact is converted to is what it is extracted as alone, where the two are
alike. -/
theorem runIn_decode_factAddress (halike : h.ReadsFactsAlike) (depth : Nat) :
    (h.decode (some (resolveBy (extractWithin depth))) (.factAddress handle)).runIn world s =
      (extractWithin (depth + 1) (.factAddress handle) h).runIn world s := by
  obtain ⟨hsequence, hengine⟩ := halike
  rcases hunwrap : h.unwrapOptional with ⟨m, optional⟩
  unfold extractWithin
  dsimp only
  rw [hunwrap] at hsequence hengine ⊢
  rw [runIn_bind_of_ok (runIn_read world s)]
  dsimp only at hsequence hengine ⊢
  have hdecode : m.isContainer world.types ≠ .ok false →
      h.decode (some (resolveBy (extractWithin depth))) (.factAddress handle) =
        m.decode (some (resolveBy (extractWithin depth))) (.factAddress handle) := by
    intro hcontainer
    rw [Hint.decode_of_unwrapOptional _ hunwrap (Hint.isUnion_of_isContainer hcontainer),
      if_neg (by simp [EngineValue.isNil])]
  cases hcontainer : m.isContainer world.types with
  | error e =>
    obtain ⟨hitems, rfl⟩ := Hint.items_of_isContainer_error hcontainer
    rw [hdecode (by simp [hcontainer]), Hint.decode_of_ofOwnTypes _ hitems]
    rfl
  | ok container =>
    cases container with
    | false => rfl
    | true =>
      have hkind := Hint.isMapping_or_isStruct hcontainer hsequence
      rw [hdecode (by simp [hcontainer]), Hint.decode_of_isMapping_or_isStruct _ hkind hengine]
      exact runIn_resolveBy_factAddress hcontainer

/-- What each item of a multifield is converted to is what it is extracted as alone. -/
theorem runIn_decode_item {e : EngineValue}
    (hfact : ∀ handle, e = .factAddress handle → h.ReadsFactsAlike) (depth : Nat) :
    (h.decode (some (resolveBy (extractWithin depth))) e).runIn world s =
      (extractWithin (depth + 1) e h).runIn world s := by
  cases e with
  | factAddress handle => exact runIn_decode_factAddress (hfact handle rfl) depth
  | _ => rfl

/-- Into a list the items of a multifield are converted. -/
theorem extractValue_multifield (hpresent : h.isAbsence = false) :
    extractValue (.multifield es) (.listOf h) =
      (do
        return .list (← es.mapM (h.decode (some (resolveBy (extractWithin (callLimit - 1)))))) :
        Act Value) := by
  have hdeep : callLimit = (callLimit - 1) + 1 := rfl
  rw [extractValue, hdeep]
  unfold extractWithin
  dsimp only
  rw [Hint.decode, if_neg (by simp [hpresent])]
  rfl

/-- A multifield is extracted into a list by extracting its items one after the other, where no
address of a fact meets a sequence type or a type of engine values: it succeeds if each of the
extractions does, with the list of their results, and fails with the first that fails. -/
theorem extract_multifield (world : World) (s : State) (hpresent : h.isAbsence = false)
    (hfacts : ∀ handle, .factAddress handle ∈ es → h.ReadsFactsAlike) :
    (extractValue (.multifield es) (.listOf h)).runIn world s =
      (do return .list (← es.mapM fun e ↦ extractValue e h) : Act Value).runIn world s := by
  have hdeep : callLimit = (callLimit - 1) + 1 := rfl
  have hitems : ∀ e ∈ es, ∀ s,
      (h.decode (some (resolveBy (extractWithin (callLimit - 1)))) e).runIn world s =
      (extractValue e h).runIn world s := by
    intro e he s
    rw [extractValue, hdeep]
    exact runIn_decode_item (fun handle hfact ↦ hfacts handle (hfact ▸ he)) _
  rw [extractValue_multifield hpresent, runIn_bind, runIn_bind, runIn_mapM_congr hitems]

/-! ### Sequences of sequences -/

/-- No address of a fact is converted to a sequence. -/
theorem exists_refusal_of_sequence {resolve : EngineValue → Hint → Act Value} {asTuple : Bool}
    (hsequence : m.items = .each asTuple item) (s : State) :
    ∃ cause, (m.decode (some resolve) (.factAddress handle)).runIn world s =
      (.error (.unsupported cause), s) := by
  cases m with
  | atom a => cases a <;> cases hsequence <;> exact ⟨_, rfl⟩
  | listOf k | tupleOf k | sequenceOf k | mutableSequenceOf k =>
    obtain ⟨hpresent, -, -⟩ := Hint.eq_of_ofItem hsequence
    rw [Hint.decode, hpresent, if_neg Bool.false_ne_true]
    exact ⟨_, rfl⟩
  | fixedTuple ks =>
    cases ks with
    | nil => exact ⟨_, rfl⟩
    | cons k rest =>
      rw [Hint.items] at hsequence
      split at hsequence
      · rename_i huniform
        obtain ⟨hpresent, -, -⟩ := Hint.eq_of_ofItem hsequence
        rw [Hint.decode, if_pos huniform, hpresent, if_neg Bool.false_ne_true]
        exact ⟨_, rfl⟩
      · cases hsequence
  | generic origin ks =>
    cases origin with
    | list =>
      cases ks with
      | nil => exact ⟨_, rfl⟩
      | cons k rest =>
        obtain ⟨hpresent, -, -⟩ := Hint.eq_of_ofItem hsequence
        rw [Hint.decode, hpresent, if_neg Bool.false_ne_true]
        exact ⟨_, rfl⟩
    | _ => cases hsequence
  | _ => cases hsequence

/-- A multifield with the address of a fact among its items is never extracted into a list of
sequences. -/
theorem extract_multifield_refused {asTuple : Bool}
    (hsequence : h.unwrapOptional.1.items = .each asTuple item) (hmem : .factAddress handle ∈ es)
    (w : Value) :
    (extractValue (.multifield es) (.listOf h)).runIn world s ≠ (.ok w, t) := by
  intro hrun
  rcases hunwrap : h.unwrapOptional with ⟨m, optional⟩
  rw [hunwrap] at hsequence
  have hunion : m.isUnion = false := by
    cases m with
    | union => cases hsequence
    | _ => rfl
  have hpresent : h.isAbsence = false := by
    cases habsence : h.isAbsence with
    | false => rfl
    | true =>
      unfold Hint.isAbsence at habsence
      split at habsence
      · cases hunwrap
        cases hsequence
      · cases habsence
  rw [extractValue_multifield hpresent] at hrun
  obtain ⟨ws, u, hitems, -⟩ := ok_of_bind hrun
  obtain ⟨w, u, v, hitem⟩ := exists_run_of_mapM hitems hmem
  rw [Hint.decode_of_unwrapOptional _ hunwrap hunion, if_neg (by simp [EngineValue.isNil])] at hitem
  obtain ⟨cause, hrefused⟩ := exists_refusal_of_sequence hsequence u
  rw [hrefused] at hitem
  cases hitem

/-! ### An ordered fact -/

/-- A single ordered fact with two numbers. -/
def pairFact : FactStore where
  facts := [(1, [orderedSlot])]
  value _ _ := .list [.int 1, .int 2]

/-- The integers that a list is made of, if it is made of integers alone. -/
def Value.integers? : Value → Option (List Int)
  | .list items => items.mapM Value.integer?
  | _ => Option.none

/-- The address of an ordered fact is extracted as the list of its values alone, but not as an item
of a multifield. -/
theorem ordered_fact_refused :
    let world := World.ofDepth {} {} pairFact.engine 0
    let address : EngineValue := .factAddress ⟨1, 0, 1⟩
    let numbers : Hint := .listOf (.int .unsized)
    ((extractValue address numbers).runIn world {}).1.toOption.bind Value.integers? = some [1, 2] ∧
      ((extractValue (.multifield [address]) (.listOf numbers)).runIn world {}).1 =
        .error (.unsupported (.notASequenceSource (some .factAddress) numbers)) := by
  intro world address numbers
  refine ⟨by decide +kernel, ?_⟩
  rw [extractValue_multifield rfl]
  rfl

end RuleMarshal
