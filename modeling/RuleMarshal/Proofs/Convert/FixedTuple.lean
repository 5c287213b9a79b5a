import RuleMarshal.Proofs.Convert.Reading
/-!
Tuple types with a type for each member. If all members are the same, such a type reads and writes
rows of any length, item by item, like the tuple type whose items all have that type, and one
without members like the tuple type whose items are not declared: how many members it names makes no
difference (`Hint.fixedTuple_rows`). So a pair of integers takes three of them
(`Hint.pair_takes_any_number`). If the members are not all the same, nothing is read or written
under it.
-/

set_option autoImplicit false
set_option relaxedAutoImplicit false

namespace RuleMarshal

namespace Hint

/-- The type that all members of a tuple type have, any where it has no members. -/
def commonMember? : List Hint → Option Hint
  | [] => some .any
  | first :: rest => if first.isUniform rest then some first else Option.none

variable {first k : Hint} {rest hs : List Hint}

theorem commonMember?_of_isUniform (huniform : first.isUniform rest = true) :
    commonMember? (first :: rest) = some first := if_pos huniform

theorem items_fixedTuple (hcommon : commonMember? hs = some k) :
    (fixedTuple hs).items = .ofItem true k := by
  cases hs with
  | nil =>
    cases hcommon
    rfl
  | cons first rest =>
    rw [commonMember?] at hcommon
    split at hcommon
    · rename_i huniform
      cases hcommon
      rw [items, if_pos huniform]
    · cases hcommon

/-- Only the absent value is no type of the members of a row. -/
theorem items_fixedTuple_of_present (hcommon : commonMember? hs = some k)
    (hpresent : k.isAbsence = false) :
    (fixedTuple hs).items = .each true k := by
  rw [items_fixedTuple hcommon, Items.ofItem, hpresent, if_neg Bool.false_ne_true]

theorem exists_uniform_of_isAbsence (hcommon : commonMember? hs = some k)
    (habsence : k.isAbsence = true) :
    ∃ rest, hs = k :: rest ∧ k.isUniform rest = true := by
  cases hs with
  | nil =>
    cases hcommon
    cases habsence
  | cons first rest =>
    rw [commonMember?] at hcommon
    split at hcommon
    · rename_i huniform
      cases hcommon
      exact ⟨rest, rfl, huniform⟩
    · cases hcommon

/-- Under a type that is the absent value, values are written by their own types. -/
theorem encode_of_isAbsence (habsence : k.isAbsence = true) : k.encode = Value.toEngine := by
  unfold isAbsence at habsence
  split at habsence
  · funext v
    cases v <;> rfl
  · cases habsence

/-- A row is written item by item under a tuple type whose members are all the same. -/
theorem encode_fixedTuple (hcommon : commonMember? hs = some k) (asTuple : Bool) (vs : List Value) :
    (fixedTuple hs).encode (.row asTuple vs) =
      (do return .multifield (← vs.mapM k.encode) : Except Error EngineValue) := by
  cases hpresent : k.isAbsence with
  | false => exact encode_of_items (items_fixedTuple_of_present hcommon hpresent) asTuple vs
  | true =>
    obtain ⟨rest, rfl, huniform⟩ := exists_uniform_of_isAbsence hcommon hpresent
    have hwritten : (fixedTuple (k :: rest)).encode (.row asTuple vs) =
        (Value.row asTuple vs).toEngine := by
      cases asTuple <;> simp [encode, Value.row, huniform, hpresent]
    rw [hwritten, encode_of_isAbsence hpresent, ← funext toEngineEach_eq_mapM]
    cases asTuple <;> rfl

theorem exists_error_of_mixed (hmixed : commonMember? hs = Option.none)
    (resolve : Option (EngineValue → Hint → Except Error Value)) :
    (∀ e, ∃ raised, (fixedTuple hs).decode resolve e = .error raised) ∧
      ∀ v, ∃ raised, (fixedTuple hs).encode v = .error raised := by
  cases hs with
  | nil => cases hmixed
  | cons first rest =>
    have huniform : ¬ first.isUniform rest = true := fun huniform ↦ by
      rw [commonMember?_of_isUniform huniform] at hmixed
      cases hmixed
    constructor
    · intro e
      rw [decode, if_neg huniform]
      exact ⟨_, rfl⟩
    · intro v
      rw [encode.eq_def]
      dsimp only
      split
      · exact ⟨_, rfl⟩
      · rw [if_neg huniform]
        exact ⟨_, rfl⟩

/-- A tuple type whose members are all the same reads a multifield as a tuple with one member for
each item, and writes a row as a multifield with one item for each member, whatever the number of
members that it names; only where these are the absent value is reading left to the resolver. A
tuple type whose members are not all the same reads and writes nothing. -/
theorem fixedTuple_rows (resolve : Option (EngineValue → Hint → Except Error Value))
    (hs : List Hint) :
    (∀ k, commonMember? hs = some k →
      (k.isAbsence = false → ∀ e v, (fixedTuple hs).decode resolve e = .ok v ↔
        ∃ es vs, e = .multifield es ∧ v = .tuple vs ∧
          List.Forall₂ (fun e v ↦ k.decode resolve e = .ok v) es vs) ∧
      (k.isAbsence = true → ∀ e,
        (fixedTuple hs).decode resolve e = leave resolve (.fixedTuple hs) e) ∧
      ∀ asTuple vs e, (fixedTuple hs).encode (.row asTuple vs) = .ok e ↔
        ∃ es, e = .multifield es ∧ List.Forall₂ (fun v e ↦ k.encode v = .ok e) vs es) ∧
    (commonMember? hs = Option.none →
      (∀ e, ∃ raised, (fixedTuple hs).decode resolve e = .error raised) ∧
        ∀ v, ∃ raised, (fixedTuple hs).encode v = .error raised) := by
  refine ⟨fun k hcommon ↦ ⟨fun hpresent e v ↦ ?_, fun habsence e ↦ ?_, fun asTuple vs e ↦ ?_⟩,
    fun hmixed ↦ exists_error_of_mixed hmixed resolve⟩
  · exact decode_row_eq_ok_iff resolve (items_fixedTuple_of_present hcommon hpresent)
  · obtain ⟨rest, rfl, huniform⟩ := exists_uniform_of_isAbsence hcommon habsence
    rw [decode, if_pos huniform, if_pos habsence]
  · rw [encode_fixedTuple hcommon]
    exact Except.return_mapM_eq_ok_iff

theorem commonMember?_pair : commonMember? [.int .unsized, .int .unsized] = some (.int .unsized) :=
  commonMember?_of_isUniform (by simp [isUniform, uncountable?, atom_same])

/-- Two integers are read under the type of two, and nothing under the type of an integer and a
text. -/
theorem fixedTuple_rows_pair :
    (fixedTuple [.int .unsized, .int .unsized]).decode unresolved
        (.multifield [.integer 1 (by decide), .integer 2 (by decide)]) =
      .ok (.tuple [.int .unsized 1, .int .unsized 2]) ∧
    ∀ e, ∃ raised, (fixedTuple [.int .unsized, .text]).decode unresolved e = .error raised := by
  have hmixed : commonMember? [.int .unsized, .text] = Option.none := by
    simp [commonMember?, isUniform, uncountable?, same]
  constructor
  · refine (((fixedTuple_rows unresolved _).1 _ commonMember?_pair).1 rfl _ _).mpr ?_
    exact ⟨_, _, rfl, rfl, .cons rfl (.cons rfl .nil)⟩
  · exact ((fixedTuple_rows unresolved _).2 hmixed).1

/-- A type of two integers reads three, and writes one. -/
theorem pair_takes_any_number :
    let pair : List Hint := [.int .unsized, .int .unsized]
    let three : List EngineValue :=
      [.integer 1 (by decide), .integer 2 (by decide), .integer 3 (by decide)]
    (∃ vs, (fixedTuple pair).decode unresolved (.multifield three) = .ok (.tuple vs) ∧
      vs.length ≠ pair.length) ∧
      ∃ es, (fixedTuple pair).encode (.tuple [.int .unsized 1]) = .ok (.multifield es) ∧
        es.length ≠ pair.length := by
  intro pair three
  refine ⟨⟨[.int .unsized 1, .int .unsized 2, .int .unsized 3], ?_, by decide⟩,
    [.integer 1 (by decide)], ?_, by decide⟩
  · exact decode_row unresolved (items_fixedTuple_of_present commonMember?_pair rfl)
      (.multifield three)
  · exact encode_fixedTuple commonMember?_pair true [.int .unsized 1]

end Hint

end RuleMarshal
