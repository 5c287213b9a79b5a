import RuleMarshal.Function.Signature
import RuleMarshal.Proofs.Computation.Result
/-!
What a signature says. However a callable was looked at, its signature is made up by `ofParameters`
(`exists_ofParameters_of_inspect`), so it carries the name that it was read under. For every number
of returned values it gives one type for each of them (`length_returnHints`): the element type of a
tuple of any length, the member at the position of a fixed tuple with as many values, and anything
where nothing is declared (`getElem?_returnHints_iff`).
-/

set_option autoImplicit false
set_option relaxedAutoImplicit false

namespace RuleMarshal

/-! ### The elements of a tuple type -/

namespace Hint

variable {h item : Hint} {members : List Hint}

theorem tupleElements_eq_anyNumber_iff : h.tupleElements = .anyNumber item ↔ h = .tupleOf item := by
  constructor
  · intro helements
    unfold tupleElements at helements
    split at helements <;> cases helements
    rfl
  · rintro rfl
    rfl

theorem tupleElements_eq_exactly_iff :
    h.tupleElements = .exactly members ↔ h = .fixedTuple members := by
  constructor
  · intro helements
    unfold tupleElements at helements
    split at helements <;> cases helements
    rfl
  · rintro rfl
    rfl

end Hint

namespace Signature

/-! ### How signatures are made -/

section

variable {table : TypeTable} {text : HostText} {sig : Signature}

/-- The signature of a function is made up of its parameters with their declared types. -/
theorem exists_types_of_ofFunction {f : FunctionLiteral}
    (hsig : ofFunction table text f = .ok sig) :
    ∃ hints returns, List.Forall₂
      (fun p h ↦ declaredType table p.name p.hint = .ok h) f.params hints ∧
      ofParameters text (f.params.zip hints) returns = .ok sig := by
  unfold ofFunction at hsig
  split at hsig
  · cases hsig
  · obtain ⟨hints, hhints, hmore⟩ := Except.ok_of_bind hsig
    obtain ⟨returns, -, hparams⟩ := Except.ok_of_bind hmore
    exact ⟨hints, returns, Except.mapM_eq_ok_iff.mp (Except.ok_of_mapError hhints), hparams⟩

theorem exists_ofParameters_of_ofFunction {f : FunctionLiteral}
    (hsig : ofFunction table text f = .ok sig) :
    ∃ params returns, ofParameters text params returns = .ok sig := by
  obtain ⟨hints, returns, -, hparams⟩ := exists_types_of_ofFunction hsig
  exact ⟨_, _, hparams⟩

theorem exists_ofParameters_of_ofType {h : Hint} (hsig : ofType table text h = .ok sig) :
    ∃ params returns, ofParameters text params returns = .ok sig := by
  have hplain : ∀ params : List Parameter, (do
      let hints ← (params.mapM fun p ↦ declaredType table p.name p.hint).mapError
        (HostFault.inDeclaration text.content)
      ofParameters text (params.zip hints) .any : Except Error Signature) = .ok sig →
        ∃ params returns, ofParameters text params returns = .ok sig := by
    intro params hparams
    obtain ⟨hints, -, hmade⟩ := Except.ok_of_bind hparams
    exact ⟨_, _, hmade⟩
  unfold ofType at hsig
  dsimp only at hsig
  split at hsig
  · cases hsig
  · cases hsig
  · obtain ⟨params, -, hmade⟩ := Except.ok_of_bind hsig
    exact hplain params hmade
  · split at hsig
    · cases hsig
    · obtain ⟨_, -, hmade⟩ := Except.ok_of_bind hsig
      exact ⟨_, _, hmade⟩
  · split at hsig
    · exact hplain _ hsig
    · cases hsig
    · cases hsig

/-- Every signature is made up of parameters and a return type. -/
theorem exists_ofParameters_of_inspect {f : Callable} (hsig : inspect table text f = .ok sig) :
    ∃ params returns, ofParameters text params returns = .ok sig := by
  cases f with
  | other => cases hsig
  | function f => exact exists_ofParameters_of_ofFunction hsig
  | type h => exact exists_ofParameters_of_ofType hsig

/-- A signature carries the name that it was read under. -/
theorem text_of_inspect {f : Callable} (hsig : inspect table text f = .ok sig) :
    sig.text = text := by
  obtain ⟨params, returns, hmade⟩ := exists_ofParameters_of_inspect hsig
  obtain ⟨r, -, hreturn⟩ := Except.ok_of_bind hmade
  cases hreturn
  rfl

end

/-! ### The types of returned values -/

variable {s : Signature} {count i : Nat} {h : Hint}

/-- The members of a fixed tuple that stand for values: all of them, or all but the error signal. -/
def valueMembers (s : Signature) (members : List Hint) : List Hint :=
  if s.errorTerminal then members.dropLast else members

/-- The declared type of the value at a position among a number of returned values. -/
inductive ReturnsAs (s : Signature) (count : Nat) : Nat → Hint → Prop where
  /-- All elements of a tuple of any length are of one type. -/
  | element {i : Nat} {item : Hint} (hreturns : s.returns = .tupleOf item) :
      ReturnsAs s count i item
  /-- A fixed tuple declares a type for each of as many values. -/
  | member {i : Nat} {members : List Hint} {h : Hint} (hreturns : s.returns = .fixedTuple members)
      (hcount : (s.valueMembers members).length = count)
      (hmember : (s.valueMembers members)[i]? = some h) :
      ReturnsAs s count i h
  /-- Of fewer or more values a fixed tuple says nothing. -/
  | beyond {i : Nat} {members : List Hint} (hreturns : s.returns = .fixedTuple members)
      (hcount : (s.valueMembers members).length ≠ count) : ReturnsAs s count i .any
  /-- A type that declares no elements is the type of a value that is alone. -/
  | alone {i : Nat} (hreturns : s.returns.tupleElements = .undeclared) (hcount : count = 1) :
      ReturnsAs s count i s.returns
  /-- A type that declares no elements says nothing of several values. -/
  | together {i : Nat} (hreturns : s.returns.tupleElements = .undeclared) (hcount : count ≠ 1) :
      ReturnsAs s count i .any

theorem returnHints_of_undeclared (hreturns : s.returns.tupleElements = .undeclared) :
    s.returnHints count = List.replicate count (if count = 1 then s.returns else .any) := by
  rw [returnHints, hreturns]

theorem returnHints_of_tupleOf {item : Hint} (hreturns : s.returns = .tupleOf item) :
    s.returnHints count = List.replicate count item := by
  rw [returnHints, hreturns]
  rfl

theorem returnHints_of_fixedTuple {members : List Hint}
    (hreturns : s.returns = .fixedTuple members) :
    s.returnHints count =
      if (s.valueMembers members).length = count then s.valueMembers members
        else List.replicate count .any := by
  rw [returnHints, hreturns]
  rfl

/-- There is one type for each of the returned values. -/
theorem length_returnHints (s : Signature) (count : Nat) :
    (s.returnHints count).length = count := by
  cases helements : s.returns.tupleElements with
  | undeclared => rw [returnHints_of_undeclared helements, List.length_replicate]
  | anyNumber item =>
    rw [returnHints_of_tupleOf (Hint.tupleElements_eq_anyNumber_iff.mp helements),
      List.length_replicate]
  | exactly members =>
    rw [returnHints_of_fixedTuple (Hint.tupleElements_eq_exactly_iff.mp helements)]
    split
    · assumption
    · exact List.length_replicate

theorem ReturnsAs.getElem?_returnHints (hreturnsAs : s.ReturnsAs count i h) (hi : i < count) :
    (s.returnHints count)[i]? = some h := by
  cases hreturnsAs with
  | element hreturns => rw [returnHints_of_tupleOf hreturns, List.getElem?_replicate_of_lt hi]
  | member hreturns hcount hmember => rwa [returnHints_of_fixedTuple hreturns, if_pos hcount]
  | beyond hreturns hcount =>
    rw [returnHints_of_fixedTuple hreturns, if_neg hcount, List.getElem?_replicate_of_lt hi]
  | alone hreturns hcount =>
    rw [returnHints_of_undeclared hreturns, if_pos hcount, List.getElem?_replicate_of_lt hi]
  | together hreturns hcount =>
    rw [returnHints_of_undeclared hreturns, if_neg hcount, List.getElem?_replicate_of_lt hi]

theorem exists_returnsAs (s : Signature) (hi : i < count) : ∃ h, s.ReturnsAs count i h := by
  cases helements : s.returns.tupleElements with
  | undeclared =>
    by_cases hcount : count = 1
    · exact ⟨_, .alone helements hcount⟩
    · exact ⟨_, .together helements hcount⟩
  | anyNumber item => exact ⟨_, .element (Hint.tupleElements_eq_anyNumber_iff.mp helements)⟩
  | exactly members =>
    have hreturns := Hint.tupleElements_eq_exactly_iff.mp helements
    by_cases hcount : (s.valueMembers members).length = count
    · exact ⟨_, .member hreturns hcount (List.getElem?_eq_getElem (by rwa [hcount]))⟩
    · exact ⟨_, .beyond hreturns hcount⟩

/-- The types for a number of returned values are the declared ones, position by position. -/
theorem getElem?_returnHints_iff (hi : i < count) :
    (s.returnHints count)[i]? = some h ↔ s.ReturnsAs count i h := by
  constructor
  · intro hfound
    obtain ⟨g, hg⟩ := s.exists_returnsAs hi
    rw [hg.getElem?_returnHints hi] at hfound
    cases hfound
    exact hg
  · exact fun hreturnsAs ↦ hreturnsAs.getElem?_returnHints hi

end Signature

end RuleMarshal
