import RuleMarshal.Environment.Channel
import RuleMarshal.Proofs.Computation.Keeps
import RuleMarshal.Proofs.Computation.Result
import RuleMarshal.Proofs.Convert.Dynamic
/-!
Engine values across the binding. The binding has a form for every value but addresses of facts and
the bare value, and a multifield has one exactly if its items have
(`EngineValue.exists_toNative_iff`). What the binding hands back of the form is the value again,
with the name of an instance where an address of one was (`EngineValue.runIn_toEngine_of_toNative`),
and no handle is made on the way. Hence data comes back unchanged at any depth
(`EngineValue.back_from_binding`).
-/

set_option autoImplicit false
set_option relaxedAutoImplicit false

namespace RuleMarshal

open Act

namespace EngineValue

/-- The values that the binding has no form for: addresses of facts and the bare value. -/
def IsUnsendable : EngineValue → Prop
  | .factAddress _ | .bare => True
  | _ => False

mutual

/-- A value with the name of the instance in the place of each address of one. -/
def withNames : EngineValue → EngineValue
  | .instanceAddress h => .instanceName h.name
  | .multifield items => .multifield (withNamesEach items)
  | v => v

/-- Values with names of instances in the place of addresses. -/
def withNamesEach : List EngineValue → List EngineValue
  | [] => []
  | v :: rest => v.withNames :: withNamesEach rest

end

variable {world : World} {s : State} {e : EngineValue} {es : List EngineValue}

/-! ### Values that the binding has a form for -/

theorem toNativeEach_eq_mapM : toNativeEach es = es.mapM toNative := by
  induction es with
  | nil => rfl
  | cons e rest ih =>
    rw [toNativeEach, List.mapM_cons, ih]

theorem exists_toNative_iff_of_single (hsingle : ∀ items, e ≠ .multifield items) :
    (∃ v, e.toNative = .ok v) ↔ ¬ e.IsUnsendable := by
  cases e with
  | multifield items => exact absurd rfl (hsingle items)
  | _ => simp [toNative, IsUnsendable]

theorem exists_toNative_multifield_iff :
    (∃ v, (multifield es).toNative = .ok v) ↔ ∀ e ∈ es, ∃ v, e.toNative = .ok v := by
  rw [← Except.exists_mapM_iff, toNative, toNativeEach_eq_mapM]
  constructor
  · rintro ⟨v, hv⟩
    obtain ⟨vs, hvs, -⟩ := Except.ok_of_bind hv
    exact ⟨vs, hvs⟩
  · rintro ⟨vs, hvs⟩
    rw [hvs]
    exact ⟨.list vs, rfl⟩

/-- The binding has a form for a value exactly if it has one for everything that the value holds. -/
theorem exists_toNative_iff (e : EngineValue) :
    (∃ v, e.toNative = .ok v) ↔ ∀ part, e.Contains part → ¬ part.IsUnsendable := by
  induction e using of_items with
  | single e hsingle => simp [exists_toNative_iff_of_single hsingle, contains_iff_of_single hsingle]
  | multifield items ih =>
    rw [exists_toNative_multifield_iff, forall_contains_multifield_iff]
    exact (forall₂_congr ih).trans (and_iff_right id).symm

/-- A value is refused for something that it holds, of which the kind is told. -/
theorem exists_unsendable_of_toNative {raised : Error} (e : EngineValue)
    (hrefused : e.toNative = .error raised) :
    ∃ part, e.Contains part ∧ part.IsUnsendable ∧
      raised = .unsupported (.notNative part.kind?) := by
  induction e using of_items with
  | single e hsingle =>
    cases e with
    | multifield items => exact absurd rfl (hsingle items)
    | factAddress h =>
      cases hrefused
      exact ⟨.factAddress h, .self _, trivial, rfl⟩
    | bare =>
      cases hrefused
      exact ⟨.bare, .self _, trivial, rfl⟩
    | _ => cases hrefused
  | multifield items ih =>
    rw [toNative, toNativeEach_eq_mapM] at hrefused
    obtain hitems | ⟨vs, -, hreturn⟩ := Except.cases_of_bind_error hrefused
    · obtain ⟨before, e, after, rfl, -, he⟩ := Except.mapM_eq_error_iff.mp hitems
      have hmem : e ∈ before ++ e :: after := List.mem_append_right _ List.mem_cons_self
      obtain ⟨part, hpart, hunsendable, hraised⟩ := ih e hmem he
      exact ⟨part, .item hmem hpart, hunsendable, hraised⟩
    · cases hreturn

/-! ### What comes back -/

theorem runIn_nativesToEngine_of_items
    (hitems : ∀ e ∈ es, ∀ v, e.toNative = .ok v → v.toEngine.runIn world s = (.ok e.withNames, s))
    {vs : List Native} (hsent : toNativeEach es = .ok vs) :
    (nativesToEngine vs).runIn world s = (.ok (withNamesEach es), s) := by
  induction es generalizing vs with
  | nil =>
    cases hsent
    rfl
  | cons e rest ih =>
    obtain ⟨v, hv, hmore⟩ := Except.ok_of_bind hsent
    obtain ⟨others, hothers, hreturn⟩ := Except.ok_of_bind hmore
    cases hreturn
    obtain ⟨hfirst, hrest⟩ := List.forall_mem_cons.mp hitems
    rw [nativesToEngine, runIn_bind_of_ok (hfirst v hv), runIn_bind_of_ok (ih hrest hothers)]
    rfl

/-- The binding hands back what it was given, with names in the place of addresses of instances. No
handle is made. -/
theorem runIn_toEngine_of_toNative (e : EngineValue) {v : Native} (hsent : e.toNative = .ok v) :
    v.toEngine.runIn world s = (.ok e.withNames, s) := by
  induction e using of_items generalizing v with
  | single e hsingle =>
    cases e with
    | multifield items => exact absurd rfl (hsingle items)
    | integer n fits =>
      cases hsent
      rw [Native.toEngine, ofInt, dif_pos fits]
      rfl
    | _ => cases hsent <;> rfl
  | multifield items ih =>
    obtain ⟨vs, hvs, hreturn⟩ := Except.ok_of_bind hsent
    cases hreturn
    have hitems : (nativesToEngine vs).runIn world s = (.ok (withNamesEach items), s) :=
      runIn_nativesToEngine_of_items (fun e he v hv ↦ ih e he hv) hvs
    rw [Native.toEngine, runIn_bind_of_ok hitems]
    rfl

theorem withNamesEach_eq_map : withNamesEach es = es.map withNames := by
  induction es with
  | nil => rfl
  | cons e rest ih => rw [withNamesEach, ih, List.map_cons]

/-- Where no instance is addressed, there is nothing to put a name for. -/
theorem withNames_eq_self (hnone : ∀ h, ¬ e.Contains (.instanceAddress h)) : e.withNames = e := by
  induction e using of_items with
  | single e hsingle =>
    cases e with
    | multifield items => exact absurd rfl (hsingle items)
    | instanceAddress h => exact absurd (.self _) (hnone h)
    | _ => rfl
  | multifield items ih =>
    have hitems : items.map withNames = items.map id :=
      List.map_congr_left fun e he ↦ ih e he fun h hpart ↦ hnone h (.item he hpart)
    rw [withNames, withNamesEach_eq_map, hitems, List.map_id]

/-! ### Data -/

theorem eachData_iff : eachData es = true ↔ ∀ e ∈ es, e.isData = true := by
  induction es with
  | nil => simp [eachData]
  | cons e rest ih => rw [eachData, Bool.and_eq_true, ih, List.forall_mem_cons]

theorem isData_of_contains {part : EngineValue} (hdata : e.isData = true)
    (hpart : e.Contains part) :
    part.isData = true := by
  induction hpart with
  | self => exact hdata
  | item he _ ih => exact ih (eachData_iff.mp hdata _ he)

theorem not_isUnsendable_of_isData (hdata : e.isData = true) : ¬ e.IsUnsendable := by
  cases e with
  | factAddress h => cases hdata
  | bare => cases hdata
  | _ => exact id

/-- Data comes back from the binding as it was. -/
theorem exists_toNative_of_isData (hdata : e.isData = true) :
    ∃ v, e.toNative = .ok v ∧ ∀ (world : World) (s : State),
      v.toEngine.runIn world s = (.ok e, s) := by
  have hparts : ∀ part, e.Contains part → part.isData = true := fun part ↦ isData_of_contains hdata
  obtain ⟨v, hsent⟩ := e.exists_toNative_iff.mpr fun part hpart ↦
    not_isUnsendable_of_isData (hparts part hpart)
  have hsame : e.withNames = e := withNames_eq_self fun h hpart ↦ by cases hparts _ hpart
  exact ⟨v, hsent, fun world s ↦ (e.runIn_toEngine_of_toNative hsent).trans (by rw [hsame])⟩

/-- What is handed to the binding comes back as it was if it is data; addresses of instances come
back as the names of the instances. The binding has no form for a value exactly if an address of a
fact or a bare value is somewhere in it, and the refusal tells the kind of such a part. -/
theorem back_from_binding (world : World) (s : State) (e : EngineValue) :
    (e.isData = true → ∃ v, e.toNative = .ok v ∧ v.toEngine.runIn world s = (.ok e, s)) ∧
    ((∀ part, e.Contains part → ¬ part.IsUnsendable ∧ ¬ part.IsForeign) →
      ∃ v, e.toNative = .ok v ∧ v.toEngine.runIn world s = (.ok e.withNames, s)) ∧
    ((∃ cause, e.toNative = .error (.unsupported cause)) ↔ ∃ part,
      e.Contains part ∧ part.IsUnsendable) ∧
    ∀ raised, e.toNative = .error raised →
      ∃ part, e.Contains part ∧ part.IsUnsendable ∧
        raised = .unsupported (.notNative part.kind?) := by
  refine ⟨fun hdata ↦ ?_, fun hparts ↦ ?_, ⟨?_, ?_⟩, fun raised ↦ e.exists_unsendable_of_toNative⟩
  · obtain ⟨v, hsent, hback⟩ := exists_toNative_of_isData hdata
    exact ⟨v, hsent, hback world s⟩
  · obtain ⟨v, hsent⟩ := e.exists_toNative_iff.mpr fun part hpart ↦ (hparts part hpart).1
    exact ⟨v, hsent, e.runIn_toEngine_of_toNative hsent⟩
  · rintro ⟨cause, hrefused⟩
    obtain ⟨part, hpart, hunsendable, -⟩ := e.exists_unsendable_of_toNative hrefused
    exact ⟨part, hpart, hunsendable⟩
  · rintro ⟨part, hpart, hunsendable⟩
    cases hsent : e.toNative with
    | ok v => exact absurd hunsendable (e.exists_toNative_iff.mp ⟨v, hsent⟩ part hpart)
    | error raised =>
      obtain ⟨part, -, -, rfl⟩ := e.exists_unsendable_of_toNative hsent
      exact ⟨_, rfl⟩

/-- Data at several depths comes back as it was, and with the address of an instance beside it as
the name. With the address of a fact beside these nothing is sent. -/
theorem back_from_binding_nested :
    let inner : EngineValue :=
      .multifield [.string "nil", .symbol "nil", .float .nan, .multifield []]
    let data : EngineValue := .multifield [.instanceName "ada", inner, .ofBool true]
    let addressed : EngineValue := .multifield [data, .instanceAddress ⟨"ada", 0, 0⟩]
    let mixed : EngineValue := .multifield [addressed, .factAddress ⟨3, 0, 0⟩]
    let world : World :=
      { engine := fun _ _ ↦ {}, invoke := fun _ _ s ↦ (.ok .none, s),
        resolve := fun _ _ s ↦ (.ok .none, s) }
    (data.isData = true ∧ ∃ v, data.toNative = .ok v ∧ v.toEngine.runIn world {} = (.ok data, {})) ∧
    ((∀ part, addressed.Contains part → ¬ part.IsUnsendable ∧ ¬ part.IsForeign) ∧
      ∃ v, addressed.toNative = .ok v ∧
        v.toEngine.runIn world {} = (.ok (.multifield [data, .instanceName "ada"]), {})) ∧
    ∃ raised, mixed.toNative = .error raised ∧
      ∃ part, mixed.Contains part ∧ part.IsUnsendable ∧
        raised = .unsupported (.notNative part.kind?) := by
  intro inner data addressed mixed world
  have hdata : data.isData = true := rfl
  have hparts : ∀ part, addressed.Contains part → ¬ part.IsUnsendable ∧ ¬ part.IsForeign := by
    simp [addressed, data, inner, forall_contains_multifield_iff, contains_iff_of_single,
      IsUnsendable, IsForeign, ofBool]
  have hmixed : mixed.toNative = .error (.unsupported (.notNative (some .factAddress))) := rfl
  exact ⟨⟨hdata, (back_from_binding world {} data).1 hdata⟩,
    ⟨hparts, (back_from_binding world {} addressed).2.1 hparts⟩,
    _, hmixed, (back_from_binding world {} mixed).2.2.2 _ hmixed⟩

@[simp] theorem lexemes_symbols (names : List String) :
    (multifield (names.map symbol)).lexemes = names := by
  simp [lexemes, Function.comp_def, lexeme, content?]

end EngineValue

/-- Symbols that the binding hands over are a multifield of symbols. -/
theorem toEngine_symbols {world : World} (names : List String) (s : State) :
    (Native.list (names.map .symbol)).toEngine.runIn world s =
      (.ok (.multifield (names.map .symbol)), s) := by
  have heach : (nativesToEngine (names.map .symbol)).runIn world s =
      (.ok (names.map .symbol), s) := by
    induction names with
    | nil => rfl
    | cons name rest ih =>
      have hfirst : (Native.symbol name).toEngine.runIn world s = (.ok (.symbol name), s) := rfl
      rw [List.map_cons, nativesToEngine, runIn_bind_of_ok hfirst, runIn_bind_of_ok ih]
      rfl
  rw [Native.toEngine, runIn_bind_of_ok heach]
  rfl

end RuleMarshal
