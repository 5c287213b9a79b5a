import RuleMarshal.Proofs.Convert.Dynamic
import RuleMarshal.Proofs.Convert.Stability
/-!
What is read under a type. Without a resolver a value of the engine is read, if it is, as a value of
the declared type, at every depth: the items of a multifield as the members of a row, one for each
in order, a value under a union as under one of its members, and the absent value only where it is
optional or every value is let through (`Hint.Reads`). A multifield is read under a sequence type
exactly if each of its items is read under the item type, so one item that is not read refuses the
whole (`Hint.decode_sound`).
-/

set_option autoImplicit false
set_option relaxedAutoImplicit false

namespace RuleMarshal

open MonadExcept (ofExcept)

namespace Hint

/-- Whether a value of the host is of a type, and a value of the engine may be read as it. -/
inductive Reads : Hint → EngineValue → Value → Prop
  /-- Where every value is let through, a value goes by its kind. -/
  | dynamic {h : Hint} {e : EngineValue} {v : Value} (hdynamic : h.isDynamic = true)
      (hv : e.dynamic = .ok v) :
      Reads h e v
  | bool (e : EngineValue) (b : Bool) : Reads .bool e (.bool b)
  | int (e : EngineValue) {t : IntType} {n : Int} (hlow : t.low ≤ n) (hhigh : n ≤ t.high) :
      Reads (.int t) e (.int .unsized n)
  | float (e : EngineValue) (x : Binary64) : Reads .float e (.float x)
  | text (e : EngineValue) (s : String) : Reads .text e (.text s)
  | symbol (e : EngineValue) (s : String) : Reads .symbol e (.symbol s)
  | instanceName (e : EngineValue) (s : String) : Reads .instanceName e (.instanceName s)
  /-- Under a type of engine values these stay what they are. -/
  | engineValue {kind : Option ValueKind} {e : EngineValue}
      (hkind : kind = Option.none ∨ e.kind? = kind) :
      Reads (.engineValue kind) e (.engine e)
  | absent {spelling : UnionSpelling} {members : List Hint} {e : EngineValue}
      (hany : members.any isNoneType = true) (hnil : e.isNil = true) :
        Reads (.union spelling members) e .none
  | member {spelling : UnionSpelling} {members : List Hint} {m : Hint} {e : EngineValue} {v : Value}
      (hm : m ∈ members) (hv : Reads m e v) : Reads (.union spelling members) e v
  /-- A row has one member of the item type for each item, in order. -/
  | row {h k : Hint} {asTuple : Bool} {es : List EngineValue} {vs : List Value}
      (hitems : h.items = .each asTuple k)
      (hlength : vs.length = es.length) (hvs : ∀ p ∈ es.zip vs, Reads k p.1 p.2) :
      Reads h (.multifield es) (.row asTuple vs)

/-- No resolver: destinations without a rule of their own are refused. -/
def unresolved : Option (EngineValue → Hint → Except Error Value) := Option.none

variable {h k m : Hint} {e : EngineValue} {v : Value} {asTuple : Bool}

/-! ### Sequences -/

section

variable (resolve : Option (EngineValue → Hint → Except Error Value))

theorem ofExcept_eq {α : Type} (found : Except Error α) :
    (ofExcept found : Except Error α) = found := by
  cases found <;> rfl

theorem dynamicEach_eq_decode : dynamicEach = fun es ↦ es.mapM (any.decode resolve) := by
  have hany : any.decode resolve = EngineValue.dynamic := funext fun e ↦ ofExcept_eq e.dynamic
  rw [hany, funext dynamicEach_eq_mapM]

/-- Under every sequence type a multifield is read item by item. -/
theorem decode_row (hitems : h.items = .each asTuple k) (e : EngineValue) :
    h.decode resolve e = (do
      let es ← e.items h
      return .row asTuple (← es.mapM (k.decode resolve))) := by
  by_cases hany : k = .any
  · subst hany
    cases h with
    | atom a =>
      cases a <;> cases hitems
      all_goals
        simp only [decode, decodeAtom?, ofExcept_eq, dynamicEach_eq_decode resolve]
        rfl
    | listOf k | tupleOf k | sequenceOf k | mutableSequenceOf k =>
      obtain ⟨hpresent, rfl, rfl⟩ := eq_of_ofItem hitems
      simp only [decode, hpresent, Bool.false_eq_true, if_false, ofExcept_eq]
      rfl
    | fixedTuple ks =>
      cases ks with
      | nil =>
        cases hitems
        simp only [decode, ofExcept_eq, dynamicEach_eq_decode resolve]
        rfl
      | cons k rest =>
        rw [items] at hitems
        split at hitems
        · rename_i huniform
          obtain ⟨hpresent, rfl, rfl⟩ := eq_of_ofItem hitems
          simp only [decode, huniform, hpresent, Bool.false_eq_true, if_true, if_false, ofExcept_eq]
          rfl
        · cases hitems
    | generic origin ks =>
      cases origin with
      | list =>
        cases ks with
        | nil =>
          cases hitems
          simp only [decode, ofExcept_eq, dynamicEach_eq_decode resolve]
          rfl
        | cons k rest =>
          obtain ⟨hpresent, rfl, rfl⟩ := eq_of_ofItem hitems
          simp only [decode, hpresent, Bool.false_eq_true, if_false, ofExcept_eq]
          rfl
      | _ => cases hitems
    | _ => cases hitems
  · rw [decode_of_items hitems hany, ofExcept_eq]

/-- What is read under a sequence type is a row of what the items of a multifield are read as under
the item type. -/
theorem decode_row_eq_ok_iff (hitems : h.items = .each asTuple k) :
    h.decode resolve e = .ok v ↔
      ∃ es vs, e = .multifield es ∧ v = .row asTuple vs ∧
        List.Forall₂ (fun e v ↦ k.decode resolve e = .ok v) es vs := by
  rw [decode_row resolve hitems]
  constructor
  · intro hread
    obtain ⟨es, hes, hmore⟩ := Except.ok_of_bind hread
    obtain ⟨vs, hv, heach⟩ := Except.return_mapM_eq_ok_iff.mp hmore
    exact ⟨es, vs, multifield_of_items hes, hv, heach⟩
  · rintro ⟨es, vs, rfl, hv, heach⟩
    exact Except.return_mapM_eq_ok_iff.mpr ⟨vs, hv, heach⟩

/-- A multifield is read under a sequence type exactly if each of its items is read under the item
type. -/
theorem exists_decode_row_iff (hitems : h.items = .each asTuple k) (es : List EngineValue) :
    (∃ v, h.decode resolve (.multifield es) = .ok v) ↔ ∀ e ∈ es, ∃ w,
      k.decode resolve e = .ok w := by
  simp only [← Except.exists_mapM_iff, Except.mapM_eq_ok_iff, decode_row_eq_ok_iff resolve hitems]
  constructor
  · rintro ⟨v, items, vs, hes, -, heach⟩
    cases hes
    exact ⟨vs, heach⟩
  · rintro ⟨vs, heach⟩
    exact ⟨_, es, vs, rfl, rfl, heach⟩

end

theorem reads_of_decode_row (hitems : h.items = .each asTuple k)
    (hk : ∀ e w, k.decode unresolved e = .ok w → Reads k e w)
    (hdecode : h.decode unresolved e = .ok v) :
    Reads h e v := by
  obtain ⟨es, vs, rfl, rfl, heach⟩ := (decode_row_eq_ok_iff unresolved hitems).mp hdecode
  refine .row hitems heach.length_eq.symm fun p hp ↦ ?_
  exact hk _ _ (List.forall₂_zip heach hp)

/-! ### Types -/

theorem reads_of_isDynamic (hdynamic : h.isDynamic = true)
    (hdecode : h.decode unresolved e = .ok v) :
    Reads h e v := by
  rw [decode_of_isDynamic unresolved hdynamic, ofExcept_eq] at hdecode
  exact .dynamic hdynamic hdecode

theorem reads_of_gives (hm : m.isScalar = true) (hv : Gives m v) (e : EngineValue) :
    Reads m e v := by
  have hunion := isUnion_of_isScalar hm
  cases hv with
  | int hlow hhigh => exact .int e hlow hhigh
  | scalar hv hint =>
    cases hv with
    | bool b => exact .bool e b
    | int declared width n => exact absurd rfl (hint width n)
    | float x => exact .float e x
    | text s => exact .text e s
    | symbol s => exact .symbol e s
    | instanceName s => exact .instanceName e s
  | absent hunwrap =>
    rw [isUnion_of_unwrapOptional hunwrap] at hunion
    cases hunion
  | present hunwrap =>
    rw [isUnion_of_unwrapOptional hunwrap] at hunion
    cases hunion
  | row hitems =>
    rw [items_of_isScalar hm] at hitems
    cases hitems

theorem reads_of_decode_atom {a : HintAtom} (hdecode : (atom a).decode unresolved e = .ok v) :
    Reads (.atom a) e v := by
  cases a with
  | any | anyObject | none => exact reads_of_isDynamic rfl hdecode
  | bool | int | float | text | symbol | instanceName =>
    exact reads_of_gives rfl (gives_of_decode_scalar rfl hdecode).1 e
  | list | tuple => exact reads_of_decode_row rfl (fun _ _ ↦ reads_of_isDynamic rfl) hdecode
  | engineValue kind =>
    rw [decode, decodeAtom?] at hdecode
    split at hdecode
    · rename_i answer hanswer
      obtain rfl := Option.some.inj hanswer
      rw [ofExcept_eq] at hdecode
      split at hdecode
      · rename_i hkind
        cases hdecode
        exact .engineValue hkind
      · cases hdecode
    · cases hdecode
  | _ => cases hdecode

/-- What is read under a type of rows is a row of what its items are read as. -/
theorem reads_of_ofItem (hitems : h.items = .ofItem asTuple k)
    (hleave : k.isAbsence = true → h.decode unresolved e = leave unresolved h e)
    (hk : ∀ e w, k.decode unresolved e = .ok w → Reads k e w)
    (hdecode : h.decode unresolved e = .ok v) :
    Reads h e v := by
  by_cases habsence : k.isAbsence
  · rw [hleave habsence] at hdecode
    cases hdecode
  · rw [Items.ofItem, if_neg habsence] at hitems
    exact reads_of_decode_row hitems hk hdecode

mutual

theorem reads_of_decode : ∀ (h : Hint) (e : EngineValue) (v : Value),
    h.decode unresolved e = .ok v → Reads h e v
  | .atom a, e, v, hdecode => reads_of_decode_atom hdecode
  | .union spelling members, e, v, hdecode => by
    unfold decode at hdecode
    split at hdecode
    · rename_i hany
      split at hdecode
      · rename_i hnil
        cases hdecode
        exact .absent hany hnil
      · split at hdecode
        · obtain ⟨m, hm, hv⟩ := reads_of_decodeSole members e v hdecode
          exact .member hm hv
        · obtain ⟨m, hm, hv⟩ := reads_of_decodeMembers members e _ v hdecode
          exact .member hm hv
    · obtain ⟨m, hm, hv⟩ := reads_of_decodeMembers members e _ v hdecode
      exact .member hm hv
  | .listOf k, e, v, hdecode =>
    reads_of_ofItem rfl (fun habsence ↦ by rw [decode, if_pos habsence]) (reads_of_decode k) hdecode
  | .tupleOf k, e, v, hdecode =>
    reads_of_ofItem rfl (fun habsence ↦ by rw [decode, if_pos habsence]) (reads_of_decode k) hdecode
  | .sequenceOf k, e, v, hdecode =>
    reads_of_ofItem rfl (fun habsence ↦ by rw [decode, if_pos habsence]) (reads_of_decode k) hdecode
  | .mutableSequenceOf k, e, v, hdecode =>
    reads_of_ofItem rfl (fun habsence ↦ by rw [decode, if_pos habsence]) (reads_of_decode k) hdecode
  | .fixedTuple [], e, v, hdecode =>
    reads_of_decode_row rfl (fun _ _ ↦ reads_of_isDynamic rfl) hdecode
  | .fixedTuple (k :: rest), e, v, hdecode => by
    by_cases huniform : k.isUniform rest = true
    · refine reads_of_ofItem (by rw [items, if_pos huniform]) (fun habsence ↦ ?_)
        (reads_of_decode k) hdecode
      rw [decode, if_pos huniform, if_pos habsence]
    · rw [decode, if_neg huniform] at hdecode
      cases hdecode
  | @generic place origin args, e, v, hdecode => by
    by_cases horigin : origin = .list
    · subst horigin
      cases args with
      | nil => exact reads_of_decode_row rfl (fun _ _ ↦ reads_of_isDynamic rfl) hdecode
      | cons k rest =>
        exact reads_of_ofItem rfl (fun habsence ↦ by rw [decode, if_pos habsence])
          (reads_of_decode k) hdecode
    · have hrefused : (@generic place origin args).decode unresolved e =
          leave unresolved (@generic place origin args) e := by
        cases origin <;> first | exact absurd rfl horigin | rfl
      rw [hrefused] at hdecode
      cases hdecode
  | .setOf k, e, v, hdecode => by cases hdecode
  | .mappingOf place key value, e, v, hdecode => by cases hdecode

theorem reads_of_decodeSole : ∀ (members : List Hint) (e : EngineValue) (v : Value),
    decodeSole unresolved members e = .ok v → ∃ m ∈ members, Reads m e v
  | [], e, v, hdecode => by cases hdecode
  | m :: rest, e, v, hdecode => by
    rw [decodeSole] at hdecode
    split at hdecode
    · obtain ⟨k, hk, hv⟩ := reads_of_decodeSole rest e v hdecode
      exact ⟨k, List.mem_cons_of_mem m hk, hv⟩
    · exact ⟨m, List.mem_cons_self, reads_of_decode m e v hdecode⟩

theorem reads_of_decodeMembers :
    ∀ (members : List Hint) (e : EngineValue) (failure : Error) (v : Value),
    decodeMembers unresolved members e failure = .ok v → ∃ m ∈ members, Reads m e v
  | [], e, failure, v, hdecode => by cases hdecode
  | m :: rest, e, failure, v, hdecode => by
    rw [decodeMembers] at hdecode
    split at hdecode
    · obtain ⟨k, hk, hv⟩ := reads_of_decodeMembers rest e failure v hdecode
      exact ⟨k, List.mem_cons_of_mem m hk, hv⟩
    · cases hfirst : m.decode unresolved e with
      | ok w =>
        rw [hfirst] at hdecode
        cases hdecode
        exact ⟨m, List.mem_cons_self, reads_of_decode m e v hfirst⟩
      | error raised =>
        rw [hfirst] at hdecode
        change (if raised.isConversion then _ else _) = _ at hdecode
        split at hdecode
        · obtain ⟨k, hk, hv⟩ := reads_of_decodeMembers rest e failure v hdecode
          exact ⟨k, List.mem_cons_of_mem m hk, hv⟩
        · cases hdecode

end

/-- What is read without a resolver is of the declared type, item by item, and a multifield is read
under a sequence type exactly if each of its items is read under the item type. -/
theorem decode_sound (h : Hint) (e : EngineValue) :
    (∀ v, h.decode unresolved e = .ok v → h.Reads e v) ∧
      ∀ asTuple k es, h.items = .each asTuple k → e = .multifield es →
        ((∃ v, h.decode unresolved e = .ok v) ↔ ∀ item ∈ es, ∃ w,
          k.decode unresolved item = .ok w) := by
  refine ⟨reads_of_decode h e, fun asTuple k es hitems he ↦ ?_⟩
  subst he
  exact exists_decode_row_iff unresolved hitems es

/-- A list of small integers and texts that may be absent is read as such a list, but not with a
float in it. -/
theorem decode_sound_mixed :
    ∃ (h : Hint) (e mixed : EngineValue) (v : Value), h.decode unresolved e = .ok v ∧ h.Reads e v ∧
      ¬ ∃ w, h.decode unresolved mixed = .ok w := by
  let cell : Hint := .union .word [.int (.sized true .w8), .text, .noneType]
  let five : EngineValue := .integer 5 (by decide)
  let es : List EngineValue := [five, .nil, .string "a"]
  let mixed : List EngineValue := [five, .float .nan]
  have hread : (listOf cell).decode unresolved (.multifield es) =
      .ok (.list [.int .unsized 5, .none, .text "a"]) := rfl
  have hrefused : ∀ w, cell.decode unresolved (.float .nan) ≠ .ok w := by
    rintro w ⟨⟩
  refine ⟨listOf cell, .multifield es, .multifield mixed, _, hread,
    (decode_sound _ _).1 _ hread, fun hmixed ↦ ?_⟩
  obtain ⟨w, hw⟩ := ((decode_sound (listOf cell) _).2 false cell mixed rfl rfl).mp hmixed
    (.float .nan) (by simp [mixed])
  exact hrefused w hw

end Hint

end RuleMarshal
