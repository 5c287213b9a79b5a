import RuleMarshal.Proofs.Binary64.Rounding
import RuleMarshal.Proofs.Convert.Stability
/-!
What the writing of a value fails with. By its own type a value is refused for the type or the size
of something in it, and fails with nothing else (`Value.isRefusal_of_toEngine`). Under a declared
type two failures of the host program come through besides, at any depth of optional and sequence
types: that of an integer beyond the finite floats, where a float is declared, and that of a tuple
type with members that cannot be counted in a set (`Hint.Escapes`). Nothing else comes through
(`Hint.escapes_iff`), so values without such integers are written or refused under the types without
such members (`Hint.isRefusal_of_encode`).

An integer that is out of range is refused as such where an integer is declared or nothing is. Where
a float is, the failure is none of this library's (`Hint.float_of_vast_integer`).
-/

set_option autoImplicit false
set_option relaxedAutoImplicit false

namespace RuleMarshal

/-- Whether an error refuses a value, for its type or for its size. -/
def Error.IsRefusal (raised : Error) : Prop :=
  raised.class? = some .unsupported ∨ raised.class? = some .outOfRange

theorem Error.isRefusal_unsupported (cause : Unsupported) : (Error.unsupported cause).IsRefusal :=
  .inl rfl

theorem Error.isRefusal_outOfRange (cause : OutOfRange) : (Error.outOfRange cause).IsRefusal :=
  .inr rfl

/-! ### By their own types -/

theorem EngineValue.isRefusal_of_ofInt {n : Int} {raised : Error}
    (herror : ofInt n = .error raised) :
    raised.IsRefusal := by
  unfold ofInt at herror
  split at herror
  · cases herror
  · cases herror
    exact Error.isRefusal_outOfRange _

mutual

/-- By its own type a value is written, or refused. -/
theorem Value.isRefusal_of_toEngine (v : Value) (raised : Error)
    (herror : v.toEngine = .error raised) :
    raised.IsRefusal := by
  cases v with
  | list items | tuple items =>
    obtain hitems | ⟨es, -, hreturn⟩ := Except.cases_of_bind_error herror
    · exact isRefusal_of_toEngineEach items raised hitems
    · cases hreturn
  | int width n => exact EngineValue.isRefusal_of_ofInt herror
  | _ => cases herror <;> exact Error.isRefusal_unsupported _

theorem isRefusal_of_toEngineEach : ∀ (items : List Value) (raised : Error),
    toEngineEach items = .error raised → raised.IsRefusal
  | [], raised, herror => by cases herror
  | v :: rest, raised, herror => by
    obtain hfirst | ⟨e, -, hmore⟩ := Except.cases_of_bind_error herror
    · exact v.isRefusal_of_toEngine raised hfirst
    · obtain hrest | ⟨es, -, hreturn⟩ := Except.cases_of_bind_error hmore
      · exact isRefusal_of_toEngineEach rest raised hrest
      · cases hreturn

end

namespace Hint

variable {h k m : Hint} {v : Value} {raised : Error} {asTuple : Bool}

/-! ### Under declared types -/

/-- The failures of the host program that come through when a value is written under a type. -/
inductive Escapes : Hint → Value → Error → Prop
  /-- An integer beyond the finite floats cannot be converted to one. -/
  | beyondFloats {width : IntType} {n : Int} (hn : Binary64.ofInt? n = Option.none) :
      Escapes .float (.int width n) (.host .beyondFloats)
  /-- The members of a tuple type are put into a set to see whether they are all the same. -/
  | uncountable {first : Hint} {rest : List Hint} {v : Value} {name : String} (hv : v ≠ .none)
      (hmixed : first.isUniform rest = false)
      (hname : (fixedTuple (first :: rest)).uncountable? = some name) :
      Escapes (.fixedTuple (first :: rest)) v
        (.host (.typing ("unhashable type: '" ++ name ++ "'")))
  | optional {spelling : UnionSpelling} {members : List Hint} {m : Hint}
      {v : Value} {raised : Error}
      (hany : members.any isNoneType = true) (hsole : members.filter (fun k ↦ !k.isNoneType) = [m])
      (hv : v ≠ .none) (hm : Escapes m v raised) : Escapes (.union spelling members) v raised
  /-- The first item of a row that is not written decides. -/
  | item {h k : Hint} {asTuple asRow : Bool} {before after : List Value}
      {w : Value} {raised : Error}
      (hitems : h.items = .each asTuple k) (hbefore : ∀ b ∈ before, ∃ e, k.encode b = .ok e)
      (hw : Escapes k w raised) : Escapes h (.row asRow (before ++ w :: after)) raised

theorem Escapes.not_isRefusal (hescapes : Escapes h v raised) : ¬ raised.IsRefusal := by
  induction hescapes with
  | beyondFloats | uncountable => simp [Error.IsRefusal, Error.class?]
  | optional _ _ _ _ ih | item _ _ _ ih => exact ih

/-- Nothing on the way takes up such a failure. -/
theorem Escapes.encode_eq (hescapes : Escapes h v raised) : h.encode v = .error raised := by
  induction hescapes with
  | beyondFloats hn => simp [encode, encodeAtom, hn]
  | @uncountable first rest v name hv hmixed hname =>
    rw [encode, hmixed, if_neg Bool.false_ne_true, itemsRefused, hname]
    exact hv
  | optional hany hsole hv _ ih => rw [encode_of_sole hany hsole hv, ih]
  | item hitems hbefore _ ih =>
    rw [encode_of_items hitems, Except.mapM_eq_error_iff.mpr ⟨_, _, _, rfl, hbefore, ih⟩]
    rfl

theorem isRefusal_of_encodeUntyped (herror : encode.encodeUntyped h v = .error raised) :
    raised.IsRefusal := by
  unfold encode.encodeUntyped at herror
  split at herror
  · cases herror
    exact Error.isRefusal_unsupported _
  · exact v.isRefusal_of_toEngine raised herror

theorem isRefusal_or_escapes_of_items (hitems : h.items = .each asTuple k)
    (hk : ∀ w raised, k.encode w = .error raised → raised.IsRefusal ∨ k.Escapes w raised)
    (herror : h.encode v = .error raised) : raised.IsRefusal ∨ h.Escapes v raised := by
  by_cases hrow : ∃ asRow vs, v = .row asRow vs
  · obtain ⟨asRow, vs, rfl⟩ := hrow
    rw [encode_of_items hitems] at herror
    obtain hvs | ⟨es, -, hreturn⟩ := Except.cases_of_bind_error herror
    · obtain ⟨before, w, after, rfl, hbefore, hw⟩ := Except.mapM_eq_error_iff.mp hvs
      exact (hk w raised hw).imp_right (.item hitems hbefore)
    · cases hreturn
  · obtain ⟨cause, hrefused⟩ :=
      exists_unsupported_of_items hitems fun asRow vs hv ↦ hrow ⟨asRow, vs, hv⟩
    rw [hrefused] at herror
    cases herror
    exact .inl (Error.isRefusal_unsupported cause)

theorem isRefusal_or_escapes_of_ofItem (hitems : h.items = .ofItem asTuple k)
    (huntyped : k.isAbsence = true → h.encode v = encode.encodeUntyped h v)
    (hk : ∀ w raised, k.encode w = .error raised → raised.IsRefusal ∨ k.Escapes w raised)
    (herror : h.encode v = .error raised) : raised.IsRefusal ∨ h.Escapes v raised := by
  by_cases habsence : k.isAbsence
  · rw [huntyped habsence] at herror
    exact .inl (isRefusal_of_encodeUntyped herror)
  · rw [Items.ofItem, if_neg habsence] at hitems
    exact isRefusal_or_escapes_of_items hitems hk herror

theorem isRefusal_or_escapes_of_any (w : Value) (raised : Error)
    (herror : any.encode w = .error raised) :
    raised.IsRefusal ∨ any.Escapes w raised := by
  rw [encode_any] at herror
  exact .inl (w.isRefusal_of_toEngine raised herror)

theorem isRefusal_or_escapes_of_scalar {a : HintAtom} (hlist : a ≠ .list) (htuple : a ≠ .tuple)
    (herror : encodeAtom a v = .error raised) : raised.IsRefusal ∨ (atom a).Escapes v raised := by
  unfold encodeAtom at herror
  cases a with
  | list => exact absurd rfl hlist
  | tuple => exact absurd rfl htuple
  | int t =>
    dsimp only at herror
    split at herror
    · refine .inl ?_
      obtain hchecked | ⟨n, -, hinteger⟩ := Except.cases_of_bind_error herror
      · unfold IntType.checked at hchecked
        split at hchecked <;> cases hchecked
        exact Error.isRefusal_outOfRange _
      · exact EngineValue.isRefusal_of_ofInt hinteger
    · cases herror
      exact .inl (Error.isRefusal_unsupported _)
  | float =>
    dsimp only at herror
    split at herror
    · cases herror
    · split at herror <;> cases herror
      exact .inr (.beyondFloats ‹_›)
    · cases herror
      exact .inl (Error.isRefusal_unsupported _)
  | bool | symbol | instanceName | text =>
    dsimp only at herror
    split at herror <;> cases herror
    exact .inl (Error.isRefusal_unsupported _)
  | _ => exact .inl (v.isRefusal_of_toEngine raised herror)

theorem isRefusal_or_escapes_of_atom {a : HintAtom} (herror : (atom a).encode v = .error raised) :
    raised.IsRefusal ∨ (atom a).Escapes v raised := by
  by_cases hrow : a = .list ∨ a = .tuple
  · obtain rfl | rfl := hrow
    · exact isRefusal_or_escapes_of_items rfl isRefusal_or_escapes_of_any herror
    · exact isRefusal_or_escapes_of_items rfl isRefusal_or_escapes_of_any herror
  · rw [encode.eq_def] at herror
    dsimp only at herror
    split at herror
    · split at herror <;> cases herror
      exact .inl (Error.isRefusal_unsupported _)
    · exact isRefusal_or_escapes_of_scalar (fun ha ↦ hrow (.inl ha))
        (fun ha ↦ hrow (.inr ha)) herror

mutual

theorem isRefusal_or_escapes_of_encode : ∀ (h : Hint) (v : Value) (raised : Error),
    h.encode v = .error raised → raised.IsRefusal ∨ h.Escapes v raised
  | .atom a, v, raised, herror => isRefusal_or_escapes_of_atom herror
  | .union spelling members, v, raised, herror => by
    rw [encode.eq_def] at herror
    dsimp only at herror
    split at herror
    · cases herror
    · rename_i hany hv
      split at herror
      · rename_i hone
        obtain hrefusal | ⟨m, hm, hescapes⟩ :=
          isRefusal_or_escapes_of_encodeSole members _ raised herror
        · exact .inl hrefusal
        · have hsole : members.filter (fun k ↦ !k.isNoneType) = [m] := by
            obtain ⟨sole, hfilter⟩ := List.length_eq_one_iff.mp (of_decide_eq_true hone)
            rw [hfilter] at hm ⊢
            rw [List.mem_singleton.mp hm]
          exact .inr (.optional hany hsole hv hescapes)
      · exact .inl (Value.isRefusal_of_toEngine _ raised herror)
    · cases herror
      exact .inl (Error.isRefusal_unsupported _)
    · exact .inl (Value.isRefusal_of_toEngine _ raised herror)
  | .listOf k, v, raised, herror =>
    isRefusal_or_escapes_of_ofItem rfl (fun habsence ↦ by rw [encode, if_pos habsence])
      (isRefusal_or_escapes_of_encode k) herror
  | .tupleOf k, v, raised, herror =>
    isRefusal_or_escapes_of_ofItem rfl (fun habsence ↦ by rw [encode, if_pos habsence])
      (isRefusal_or_escapes_of_encode k) herror
  | .sequenceOf k, v, raised, herror =>
    isRefusal_or_escapes_of_ofItem rfl (fun habsence ↦ by rw [encode, if_pos habsence])
      (isRefusal_or_escapes_of_encode k) herror
  | .mutableSequenceOf k, v, raised, herror =>
    isRefusal_or_escapes_of_ofItem rfl (fun habsence ↦ by rw [encode, if_pos habsence])
      (isRefusal_or_escapes_of_encode k) herror
  | .fixedTuple [], v, raised, herror =>
    isRefusal_or_escapes_of_items rfl isRefusal_or_escapes_of_any herror
  | .fixedTuple (k :: rest), v, raised, herror => by
    by_cases huniform : k.isUniform rest = true
    · refine isRefusal_or_escapes_of_ofItem (by rw [items, if_pos huniform]) (fun habsence ↦ ?_)
        (isRefusal_or_escapes_of_encode k) herror
      cases v <;> simp [encode, encode.encodeUntyped, huniform, habsence]
    · rw [encode.eq_def] at herror
      dsimp only at herror
      split at herror
      · cases herror
        exact .inl (Error.isRefusal_unsupported _)
      · rename_i hv
        rw [if_neg huniform] at herror
        cases herror
        unfold itemsRefused
        split
        · exact .inl (Error.isRefusal_unsupported _)
        · exact .inr (.uncountable hv (by simpa using huniform) ‹_›)
  | @generic place origin args, v, raised, herror => by
    by_cases horigin : origin = .list
    · subst horigin
      cases args with
      | nil => exact isRefusal_or_escapes_of_items rfl isRefusal_or_escapes_of_any herror
      | cons k rest =>
        exact isRefusal_or_escapes_of_ofItem rfl (fun habsence ↦ by rw [encode, if_pos habsence])
          (isRefusal_or_escapes_of_encode k) herror
    · have huntyped : (@generic place origin args).encode v =
          encode.encodeUntyped (@generic place origin args) v := by
        cases origin <;> first | exact absurd rfl horigin | rfl
      rw [huntyped] at herror
      exact .inl (isRefusal_of_encodeUntyped herror)
  | .setOf k, v, raised, herror => .inl (isRefusal_of_encodeUntyped herror)
  | .mappingOf place key value, v, raised, herror => .inl (isRefusal_of_encodeUntyped herror)

theorem isRefusal_or_escapes_of_encodeSole : ∀ (members : List Hint) (v : Value) (raised : Error),
    encodeSole members v = .error raised →
      raised.IsRefusal ∨ ∃ m ∈ members.filter (fun k ↦ !k.isNoneType), m.Escapes v raised
  | [], v, raised, herror => .inl (v.isRefusal_of_toEngine raised herror)
  | m :: rest, v, raised, herror => by
    rw [encodeSole] at herror
    split at herror
    · rename_i hnone
      rw [List.filter_cons_of_neg (by simpa using hnone)]
      exact isRefusal_or_escapes_of_encodeSole rest v raised herror
    · rename_i hpresent
      rw [List.filter_cons_of_pos (by simpa using hpresent)]
      exact (isRefusal_or_escapes_of_encode m v raised herror).imp_right fun hm ↦
        ⟨m, List.mem_cons_self, hm⟩

end

/-- Exactly these failures come through that are no refusals. -/
theorem escapes_iff : h.Escapes v raised ↔ h.encode v = .error raised ∧ ¬ raised.IsRefusal := by
  constructor
  · intro hescapes
    exact ⟨hescapes.encode_eq, hescapes.not_isRefusal⟩
  · rintro ⟨herror, hrefusal⟩
    exact (isRefusal_or_escapes_of_encode h v raised herror).resolve_left hrefusal

/-! ### Values and types that nothing escapes from -/

theorem uncountable?_of_mem {members : List Hint}
    (hcountable : uncountableAmong? members = Option.none) (hm : m ∈ members) :
    m.uncountable? = Option.none := by
  induction members with
  | nil => cases hm
  | cons first rest ih =>
    rw [uncountableAmong?, Option.or_eq_none_iff] at hcountable
    obtain rfl | hm := List.mem_cons.mp hm
    · exact hcountable.1
    · exact ih hcountable.2 hm

theorem uncountable?_of_items (hcountable : h.uncountable? = Option.none)
    (hitems : h.items = .each asTuple k) :
    k.uncountable? = Option.none := by
  cases h with
  | atom a =>
    cases a <;> cases hitems
    all_goals rfl
  | listOf k | tupleOf k | sequenceOf k | mutableSequenceOf k =>
    obtain ⟨-, -, rfl⟩ := eq_of_ofItem hitems
    exact hcountable
  | fixedTuple ks =>
    cases ks with
    | nil =>
      cases hitems
      rfl
    | cons k rest =>
      rw [items] at hitems
      split at hitems
      · obtain ⟨-, -, rfl⟩ := eq_of_ofItem hitems
        exact uncountable?_of_mem hcountable List.mem_cons_self
      · cases hitems
  | generic origin ks =>
    cases origin with
    | list =>
      cases ks with
      | nil =>
        cases hitems
        rfl
      | cons k rest =>
        obtain ⟨-, -, rfl⟩ := eq_of_ofItem hitems
        exact uncountable?_of_mem hcountable List.mem_cons_self
    | _ => cases hitems
  | _ => cases hitems

/-- Values whose integers are all near to finite floats are written or refused under types that can
be counted in a set. -/
theorem isRefusal_of_encode (hcountable : h.uncountable? = Option.none)
    (hnear : ∀ width n, .int width n ∈ v.leaves → n.natAbs < 2 ^ 1024 - 2 ^ 970)
    (herror : h.encode v = .error raised) : raised.IsRefusal := by
  refine (isRefusal_or_escapes_of_encode h v raised herror).resolve_right fun hescapes ↦ ?_
  clear herror
  induction hescapes with
  | beyondFloats hn =>
    have hbeyond := (Binary64.ofInt?_eq_none_iff _).mp hn
    exact absurd (hnear _ _ List.mem_cons_self) hbeyond.not_gt
  | uncountable _ _ hname =>
    rw [hcountable] at hname
    cases hname
  | @optional spelling members m v raised _ hsole _ _ ih =>
    have hm : m ∈ members.filter fun k ↦ !k.isNoneType := by
      rw [hsole]
      exact List.mem_singleton.mpr rfl
    exact ih (uncountable?_of_mem hcountable (List.mem_filter.mp hm).1) hnear
  | item hitems _ _ ih =>
    refine ih (uncountable?_of_items hcountable hitems) fun width n hn ↦ hnear width n ?_
    exact Value.mem_leaves_row.mpr ⟨_, List.mem_append_right _ List.mem_cons_self, hn⟩

/-- An integer beyond the finite floats fails under the type of floats with no error of this
library, where its own type refuses it as out of range. -/
theorem float_of_vast_integer :
    let vast : Value := .int .unsized (10 ^ 309)
    float.encode vast = .error (.host .beyondFloats) ∧
      (Error.host .beyondFloats).class? = Option.none ∧
      ∃ cause, (int .unsized).encode vast = .error (.outOfRange cause) := by
  intro vast
  have hbeyond : Binary64.ofInt? (10 ^ 309) = Option.none := by
    rw [Binary64.ofInt?_eq_none_iff, Int.natAbs_pow]
    decide +kernel
  have hchecked : IntType.unsized.checked (10 ^ 309) =
      .error (.outOfRange (.type (10 ^ 309) .unsized)) :=
    if_neg (by decide +kernel)
  refine ⟨(Escapes.beyondFloats hbeyond).encode_eq, rfl, .type (10 ^ 309) .unsized, ?_⟩
  change (IntType.unsized.checked (10 ^ 309) >>= EngineValue.ofInt) = _
  rw [hchecked]
  rfl

end Hint

end RuleMarshal
