import RuleMarshal.Function.Convention
import RuleMarshal.Proofs.Function.Signature
import RuleMarshal.Proofs.Host.Shown
/-!
What a function answers with by what it returned. A result is the values in what was returned, each
of them once and in order under its declared type, gathered into one engine value (`result_ok_iff`);
an expected error signal has to be there, and absent, and is none of them. An exception that was
returned, an error signal that is missing and one that is present are never a result. They are
reported as failures of the function, but an error signal that cannot be written fails on its own
account: an object that lacks an attribute gives an error that is none of this library's
(`reported_or_lacking`, `signal_unreported`).

Where nothing is declared, values that can be converted at all are a result (`result_of_any`). That
holds of the bare tuple type too, unless one value was returned: the type of the tuple is then taken
for the type of the value, and only a list or a tuple passes (`result_of_sole`,
`sole_value_refused`).
-/

set_option autoImplicit false
set_option relaxedAutoImplicit false

namespace RuleMarshal

/-- Several values as one: the absent value for none, a value that is alone, or the values in a
row. -/
def EngineValue.gathered : List EngineValue → EngineValue
  | [] => .nil
  | [v] => v
  | vs => .multifield vs

namespace Hint

/-- A value that is neither a list nor a tuple is refused where a tuple is declared. -/
theorem refused_encode_tuple {v : Value} (hlist : ∀ items, v ≠ .list items)
    (htuple : ∀ items, v ≠ .tuple items) :
    ∃ problem, Hint.tuple.encode v = .error (.unsupported problem) := by
  cases v with
  | list items => exact absurd rfl (hlist items)
  | tuple items => exact absurd rfl (htuple items)
  | none => exact ⟨_, rfl⟩
  | _ => exact ⟨_, rfl⟩

end Hint

namespace Signature

variable {s : Signature} {table : TypeTable} {heap : Heap} {returned v : Value}
variable {values : List Value}
variable {vs : List EngineValue} {e : EngineValue}

/-! ### The values that were returned -/

/-- What was returned hands over some values: a tuple its items, without the error signal if one is
expected. -/
inductive HandsOver (s : Signature) : Value → List Value → Prop where
  | nothing : HandsOver s .none []
  | items {values : List Value} (hsignal : s.errorTerminal = false) :
      HandsOver s (.tuple values) values
  | cleared {values : List Value} (hsignal : s.errorTerminal = true) :
      HandsOver s (.tuple (values ++ [.none])) values
  | alone {v : Value} (hnone : v ≠ .none) (htuple : ∀ items, v ≠ .tuple items)
      (hexception : ∀ kind text, v ≠ .exception kind text) : HandsOver s v [v]

theorem not_ok_of_failed (values : List Value) :
    returnedValues.failed s table heap v ≠ .ok values := by
  intro hfailed
  obtain ⟨text, -, hthrown⟩ := Except.ok_of_bind hfailed
  cases hthrown

theorem returnedValues_ok_iff :
    s.returnedValues table heap returned = .ok values ↔ s.HandsOver returned values := by
  constructor
  · intro hvalues
    unfold returnedValues at hvalues
    split at hvalues
    · exact absurd hvalues (not_ok_of_failed _)
    · cases hvalues
      exact .nothing
    · rename_i items
      split at hvalues
      · rename_i hsignal
        split at hvalues
        · cases hvalues
        · rename_i hlast
          cases hvalues
          obtain ⟨front, rfl⟩ := List.getLast?_eq_some_iff.mp hlast
          rw [List.dropLast_concat]
          exact .cleared hsignal
        · exact absurd hvalues (not_ok_of_failed _)
      · rename_i hsignal
        cases hvalues
        exact .items (Bool.eq_false_iff.mpr hsignal)
    · rename_i hexception hnone htuple
      cases hvalues
      exact .alone hnone htuple hexception
  · intro hhands
    cases hhands with
    | nothing => rfl
    | items hsignal => rw [returnedValues, if_neg (by rw [hsignal]; nofun)]
    | cleared hsignal =>
      rw [returnedValues, if_pos hsignal, List.getLast?_concat]
      dsimp only
      rw [List.dropLast_concat]
    | alone hnone htuple hexception =>
      cases returned with
      | none => exact absurd rfl hnone
      | tuple items => exact absurd rfl (htuple items)
      | exception kind text => exact absurd rfl (hexception kind text)
      | _ => rfl

/-! ### The values that are converted -/

/-- Some values are engine values under their declared types, place by place. -/
structure Encodes (s : Signature) (heap : Heap) (values : List Value) (vs : List EngineValue) :
    Prop where
  length_eq : vs.length = values.length
  encoded : ∀ i (hi : i < values.length) (hv : i < vs.length), ∃ h, s.ReturnsAs values.length i h ∧
    h.encode (heap.content values[i]) = .ok vs[i]

/-- However many values there are, they are converted one by one and then gathered. -/
theorem encodeReturned_eq (values : List Value) : s.encodeReturned heap values = do
    let vs ← (values.zip (s.returnHints values.length)).mapM fun p ↦ p.2.encode (heap.content p.1)
    return .gathered vs := by
  match values with
  | [] => rfl
  | [v] =>
    obtain ⟨h, hhints⟩ := List.length_eq_one_iff.mp (s.length_returnHints 1)
    rw [encodeReturned, List.length_singleton, hhints]
    show h.encode (heap.content v) = _
    rw [List.zip_cons_cons, List.zip_nil_left, List.mapM_cons]
    cases h.encode (heap.content v) <;> rfl
  | v :: w :: rest =>
    unfold encodeReturned
    dsimp only
    cases hmade : ((v :: w :: rest).zip (s.returnHints (v :: w :: rest).length)).mapM
        fun p ↦ p.2.encode (heap.content p.1) with
    | error e => rfl
    | ok vs =>
      have hlength := (Except.mapM_eq_ok_iff.mp hmade).length_eq
      rw [List.length_zip, length_returnHints, Nat.min_self] at hlength
      match vs, hlength with
      | _ :: _ :: _, _ => rfl

/-- Converting the values with their types one by one is converting them under their declared
types. -/
theorem mapM_encode_ok_iff :
    (values.zip (s.returnHints values.length)).mapM (fun p ↦ p.2.encode (heap.content p.1)) =
      .ok vs ↔ s.Encodes heap values vs := by
  have hhints := s.length_returnHints values.length
  have hzip : (values.zip (s.returnHints values.length)).length = values.length := by
    rw [List.length_zip, hhints, Nat.min_self]
  rw [Except.mapM_eq_ok_iff, List.forall₂_iff_get]
  constructor
  · rintro ⟨hlength, hencoded⟩
    refine ⟨hlength.symm.trans hzip, fun i hi hv ↦ ?_⟩
    have hhint : i < (s.returnHints values.length).length := by rwa [hhints]
    refine ⟨_, (getElem?_returnHints_iff hi).mp (List.getElem?_eq_getElem hhint), ?_⟩
    simpa using hencoded i (by rwa [hzip]) hv
  · rintro ⟨hlength, hencoded⟩
    refine ⟨hzip.trans hlength.symm, fun i hi hv ↦ ?_⟩
    rw [hzip] at hi
    obtain ⟨h, hreturnsAs, hencode⟩ := hencoded i hi hv
    obtain ⟨_, hget⟩ := List.getElem?_eq_some_iff.mp (hreturnsAs.getElem?_returnHints hi)
    simpa [hget] using hencode

theorem encodeReturned_ok_iff :
    s.encodeReturned heap values = .ok e ↔ ∃ vs, s.Encodes heap values vs ∧ e = .gathered vs := by
  rw [encodeReturned_eq]
  constructor
  · intro hanswer
    obtain ⟨vs, hvs, hreturn⟩ := Except.ok_of_bind hanswer
    cases hreturn
    exact ⟨vs, mapM_encode_ok_iff.mp hvs, rfl⟩
  · rintro ⟨vs, hvs, rfl⟩
    rw [mapM_encode_ok_iff.mpr hvs]
    rfl

/-! ### Results -/

/-- A result is the values that were handed over, under their declared types, gathered into one. -/
theorem result_ok_iff : s.result table heap returned = .ok e ↔
    ∃ values vs, s.HandsOver returned values ∧ s.Encodes heap values vs ∧ e = .gathered vs := by
  constructor
  · intro hresult
    obtain ⟨values, hvalues, hencoded⟩ := Except.ok_of_bind hresult
    split at hencoded
    · rename_i hanswer
      cases hencoded
      obtain ⟨vs, hvs, he⟩ := encodeReturned_ok_iff.mp hanswer
      exact ⟨values, vs, returnedValues_ok_iff.mp hvalues, hvs, he⟩
    · split at hencoded <;> cases hencoded
  · rintro ⟨values, vs, hhands, hencodes, he⟩
    unfold result
    rw [returnedValues_ok_iff.mpr hhands]
    dsimp only [bind, Except.bind]
    rw [encodeReturned_ok_iff.mpr ⟨vs, hencodes, he⟩]
    rfl

/-- A returned exception is reported as the failure of the function. -/
theorem result_of_exception (kind : ExceptionClass) (text : String) :
    s.result table heap (.exception kind text) =
      .error (.call (.reported s.name (HostFault.raised kind text).message) (some s.name)) := by
  unfold result returnedValues returnedValues.failed Value.written
  rw [show heap.content (.exception kind text) =
    .exception kind text by simp [Heap.content, Value.settledWithin]]
  rfl

/-- An empty tuple has no room for the error signal that is expected. -/
theorem result_of_missing_signal (hsignal : s.errorTerminal = true) :
    s.result table heap (.tuple []) = .error (.call (.noErrorSlot s.name) (some s.name)) := by
  have hvalues : s.returnedValues table heap (.tuple []) =
      .error (.call (.noErrorSlot s.name) (some s.name)) := by
    rw [returnedValues, if_pos hsignal]
    rfl
  unfold result
  rw [hvalues]
  rfl

/-- An error signal that is present is reported as it is written, if it can be written. -/
theorem result_of_signal (hsignal : s.errorTerminal = true) (hv : v ≠ .none) :
    s.result table heap (.tuple (values ++ [v])) =
      (v.written table heap).bind fun text ↦
        .error (.call (.reported s.name text) (some s.name)) := by
  have hvalues : s.returnedValues table heap (.tuple (values ++ [v])) =
      returnedValues.failed s table heap v := by
    rw [returnedValues, if_pos hsignal, List.getLast?_concat]
    cases v with
    | none => exact absurd rfl hv
    | _ => rfl
  unfold result
  rw [hvalues]
  unfold returnedValues.failed
  cases v.written table heap <;> rfl

/-- An error signal that is present is reported, or an object in it lacks an attribute that it would
show. -/
theorem reported_or_lacking (hsignal : s.errorTerminal = true) (hv : v ≠ .none) :
    (∃ text, s.result table heap (.tuple (values ++ [v])) =
        .error (.call (.reported s.name text) (some s.name))) ∨
      ∃ lacking, s.result table heap (.tuple (values ++ [v])) =
        .error (.host (.noAttribute lacking)) := by
  rw [result_of_signal hsignal hv]
  cases hwritten : v.written table heap with
  | ok text => exact .inl ⟨text, rfl⟩
  | error e =>
    obtain ⟨lacking, rfl⟩ := v.lacks_written table heap e hwritten
    exact .inr ⟨lacking, rfl⟩

/-- Objects with a code. -/
def problemTypes : TypeTable where
  types :=
    [{ name := "Problem", kind := .annotated,
       fields := [{ attr := "code", hint := .int .unsized }] }]

/-- A function of nothing with a declared return type. -/
def returning (h : Hint) : FunctionLiteral :=
  .mk (some "fun") [] (some h) true (.mk none [] false (.value .none))

/-- A function is declared to return an integer and an error signal. It returns an object as the
signal whose code was never set: no failure of the function is reported. -/
theorem signal_unreported :
    ∃ s, ofFunction problemTypes (.plain "fun")
        (returning (.fixedTuple [.int .unsized, .union .word [.exception .value, .noneType]])) =
          .ok s ∧
      s.errorTerminal = true ∧
      s.result problemTypes ⟨#[.object []]⟩ (.tuple [.int .unsized 1, .object "Problem" 0]) =
        .error (.host (.noAttribute "'Problem' object has no attribute 'code'")) := by
  have hv : Value.object "Problem" 0 ≠ .none := nofun
  refine ⟨_, rfl, rfl, ?_⟩
  rw [show [Value.int .unsized 1, .object "Problem" 0] = [.int .unsized 1] ++ [.object "Problem" 0]
    from rfl, result_of_signal rfl hv, Value.written_of_lacking problemTypes _ rfl]
  rfl

/-! ### Results without declared types -/

/-- Where every value may be anything, values that can be converted are a result. -/
theorem result_of_dynamic (hsignal : s.errorTerminal = false)
    (hany : ∀ i < values.length, s.ReturnsAs values.length i .any)
    (hvs : values.mapM (fun v ↦ (heap.content v).toEngine) = .ok vs) :
    s.result table heap (.tuple values) = .ok (.gathered vs) := by
  obtain ⟨hlength, hconverted⟩ := List.forall₂_iff_get.mp (Except.mapM_eq_ok_iff.mp hvs)
  refine result_ok_iff.mpr ⟨values, vs, .items hsignal, ⟨hlength.symm, fun i hi hv ↦ ?_⟩, rfl⟩
  refine ⟨.any, hany i hi, ?_⟩
  rw [Hint.encode_any]
  exact hconverted i hi hv

section

variable (hfits : s.errorTerminal = s.returns.hasErrorTerminal)

include hfits

/-- Without a declared return type, values that can be converted are a result. -/
theorem result_of_any (hreturns : s.returns = .any)
    (hvs : values.mapM (fun v ↦ (heap.content v).toEngine) = .ok vs) :
    s.result table heap (.tuple values) = .ok (.gathered vs) := by
  refine result_of_dynamic (by rw [hfits, hreturns]; rfl) (fun i hi ↦ ?_) hvs
  have helements : s.returns.tupleElements = .undeclared := by rw [hreturns]; rfl
  by_cases hcount : values.length = 1
  · rw [← hreturns]
    exact .alone helements hcount
  · exact .together helements hcount

/-- So they are where a bare tuple is declared, if there is not exactly one. -/
theorem result_of_tuple (hreturns : s.returns = .tuple) (hcount : values.length ≠ 1)
    (hvs : values.mapM (fun v ↦ (heap.content v).toEngine) = .ok vs) :
    s.result table heap (.tuple values) = .ok (.gathered vs) :=
  result_of_dynamic (by rw [hfits, hreturns]; rfl)
    (fun _ _ ↦ .together (by rw [hreturns]; rfl) hcount) hvs

/-- A single value is taken for the tuple that is declared. -/
theorem result_of_sole (hreturns : s.returns = .tuple) (v : Value) :
    s.result table heap (.tuple [v]) =
      match Hint.tuple.encode (heap.content v) with
      | .ok e => .ok e
      | .error e => if e.isOwn then .error (.call (.result s.name e) (some s.name))
          else .error e := by
  have hsignal : s.errorTerminal = false := by rw [hfits, hreturns]; rfl
  have hhints : s.returnHints 1 = [.tuple] := by
    rw [returnHints_of_undeclared (by rw [hreturns]; rfl), if_pos rfl, hreturns]
    rfl
  have hencoded : s.encodeReturned heap [v] = Hint.tuple.encode (heap.content v) := by
    rw [encodeReturned, hhints]
    rfl
  unfold result
  rw [returnedValues_ok_iff.mpr (.items hsignal)]
  dsimp only [bind, Except.bind]
  rw [hencoded]
  cases Hint.tuple.encode (heap.content v) with
  | ok e => rfl
  | error e => cases e.isOwn <;> rfl

/-- A single list or tuple is a result all the same. -/
theorem result_of_sole_row (hreturns : s.returns = .tuple) {items : List Value}
    (hv : heap.content v = .list items ∨ heap.content v = .tuple items)
    (he : (heap.content v).toEngine = .ok e) :
    s.result table heap (.tuple [v]) = .ok e := by
  have hencode : Hint.tuple.encode (heap.content v) = .ok e := by
    obtain hlist | htuple := hv
    · rw [hlist] at he ⊢
      exact he
    · rw [htuple] at he ⊢
      exact he
  rw [result_of_sole hfits hreturns, hencode]

/-- A single value that is neither is reported as none that the function can return. -/
theorem result_of_sole_other (hreturns : s.returns = .tuple)
    (hlist : ∀ items, heap.content v ≠ .list items)
    (htuple : ∀ items, heap.content v ≠ .tuple items) :
    ∃ problem, s.result table heap (.tuple [v]) =
      .error (.call (.result s.name (.unsupported problem)) (some s.name)) := by
  obtain ⟨problem, hrefused⟩ := Hint.refused_encode_tuple hlist htuple
  refine ⟨problem, ?_⟩
  rw [result_of_sole hfits hreturns, hrefused]
  rfl

end

/-- A function that is declared to return a tuple returns one with a single integer, which the
engine could take: it is no result. -/
theorem sole_value_refused :
    ∃ s, ofFunction {} (.plain "fun") (returning .tuple) = .ok s ∧
      (Value.int .unsized 5).toEngine = .ok (.integer 5 (by decide)) ∧
      s.result {} {} (.tuple [.int .unsized 5]) =
        .error (.call (.result "fun" (.unsupported (.sequenceExpected .tuple "int")))
          (some "fun")) := by
  refine ⟨_, rfl, rfl, ?_⟩
  rw [result_of_sole rfl rfl]
  simp only [Heap.content, Value.settledWithin]
  rfl

end Signature

end RuleMarshal
