import RuleMarshal.Proofs.Convert.Narrowing
import RuleMarshal.Proofs.Convert.Reading
/-!
What is read under a union. A scalar type accepts some values of the engine and refuses the others
with an error that lets a union go on (`Hint.decode_scalar`), so a value is read under a union of
scalar types exactly if one of them accepts it. What is written under such a union goes by the type
of the value, and the members have no say in it. A value of the type of a member is read back;
another one is if some member accepts what it became, and else it is the reading that fails, not the
writing (`Hint.union_read_back`).
-/

set_option autoImplicit false
set_option relaxedAutoImplicit false

namespace RuleMarshal.Hint

/-- Whether a value of the engine is read under a scalar type. -/
inductive Accepts : Hint → EngineValue → Prop
  | bool (b : Bool) : Accepts .bool (.ofBool b)
  | int {t : IntType} {e : EngineValue} {n : Int} (he : e.IsWhole n) (hn : t.Admits n) :
      Accepts (.int t) e
  | float (x : Binary64) : Accepts .float (.float x)
  /-- Every integer of the engine is near to a float. -/
  | rounded (n : Int) (fits : FitsEngine n) : Accepts .float (.integer n fits)
  | symbol (s : String) : Accepts .symbol (.symbol s)
  | instanceName (s : String) : Accepts .instanceName (.instanceName s)
  | symbolAsInstance (s : String) : Accepts .instanceName (.symbol s)
  | instanceAddress (handle : InstanceHandle) : Accepts .instanceName (.instanceAddress handle)
  | text (s : String) : Accepts .text (.string s)
  | symbolAsText (s : String) : Accepts .text (.symbol s)
  | instanceNameAsText (s : String) : Accepts .text (.instanceName s)

/-- Whether a value of the host is of a scalar type, an integer within its bounds. -/
inductive Fits : Hint → Value → Prop
  | int {t : IntType} (width : IntType) {n : Int} (hn : t.Admits n) : Fits (.int t) (.int width n)
  | other {m : Hint} {v : Value} (hv : ScalarOf m v) (hint : ∀ width n, v ≠ .int width n) : Fits m v

section

variable {m : Hint} {members : List Hint} {e : EngineValue} {v : Value} {raised failure : Error}
variable (resolve : Option (EngineValue → Hint → Except Error Value))

theorem exists_ofInt_of_fits {n : Int} (fits : FitsEngine n) : ∃ x, Binary64.ofInt? n = some x := by
  refine Option.ne_none_iff_exists'.mp fun hnone ↦ ?_
  have hvast := (Binary64.ofInt?_eq_none_iff n).mp hnone
  have hsmall : n.natAbs ≤ 2 ^ 63 := by
    obtain ⟨hlow, hhigh⟩ := fits
    simp only [IntType.engineLow, IntType.engineHigh] at hlow hhigh
    omega
  have hgap : (2 : Nat) ^ 63 < 2 ^ 1024 - 2 ^ 970 := by decide +kernel
  omega

theorem exists_decode_of_accepts (haccepts : m.Accepts e) : ∃ v, m.decode resolve e = .ok v := by
  cases haccepts with
  | int he hn => exact ⟨_, by rw [decode_int, EngineValue.toInt_eq_ok_iff.mpr ⟨he, hn⟩]; rfl⟩
  | rounded n fits =>
    obtain ⟨x, hx⟩ := exists_ofInt_of_fits fits
    refine ⟨.float x, ?_⟩
    rw [decode]
    simp only [decodeAtom?, hx]
    rfl
  | bool b => cases b <;> exact ⟨_, rfl⟩
  | _ => exact ⟨_, rfl⟩

theorem isConversion_of_refusedAs {t : IntType} (hrefused : e.RefusedAs t raised) :
    raised.isConversion = true := by
  cases hrefused <;> rfl

/-- A scalar type reads a value if it accepts it, and refuses it with an error of conversion if
not. -/
theorem decode_scalar (hm : m.isScalar = true) (e : EngineValue) :
    (m.Accepts e ∧ ∃ v, m.decode resolve e = .ok v) ∨
      ¬ m.Accepts e ∧ ∃ raised,
        m.decode resolve e = .error raised ∧ raised.isConversion = true := by
  by_cases haccepts : m.Accepts e
  · exact .inl ⟨haccepts, exists_decode_of_accepts resolve haccepts⟩
  refine .inr ⟨haccepts, ?_⟩
  obtain ⟨a, rfl⟩ := atom_of_isScalar hm
  cases a with
  | int t =>
    cases hread : e.toInt t with
    | ok n =>
      obtain ⟨he, hn⟩ := EngineValue.toInt_eq_ok_iff.mp hread
      exact absurd (.int he hn) haccepts
    | error raised =>
      refine ⟨raised, by rw [decode_int, hread]; rfl, ?_⟩
      exact isConversion_of_refusedAs (EngineValue.toInt_eq_error_iff.mp hread)
  | bool =>
    rw [decode]
    simp only [decodeAtom?]
    split
    · exact absurd (.bool true) haccepts
    · exact absurd (.bool false) haccepts
    · exact ⟨_, rfl, rfl⟩
  | float =>
    cases e with
    | float x => exact absurd (.float x) haccepts
    | integer n fits => exact absurd (.rounded n fits) haccepts
    | _ => exact ⟨_, rfl, rfl⟩
  | symbol =>
    cases e with
    | symbol s => exact absurd (.symbol s) haccepts
    | _ => exact ⟨_, rfl, rfl⟩
  | instanceName =>
    cases e with
    | instanceName s => exact absurd (.instanceName s) haccepts
    | symbol s => exact absurd (.symbolAsInstance s) haccepts
    | instanceAddress handle => exact absurd (.instanceAddress handle) haccepts
    | _ => exact ⟨_, rfl, rfl⟩
  | text =>
    cases e with
    | string s => exact absurd (.text s) haccepts
    | symbol s => exact absurd (.symbolAsText s) haccepts
    | instanceName s => exact absurd (.instanceNameAsText s) haccepts
    | _ => exact ⟨_, rfl, rfl⟩
  | _ => cases hm

/-! ### Unions -/

theorem isNoneType_of_isScalar (hm : m.isScalar = true) : m.isNoneType = false := by
  unfold isScalar at hm
  split at hm <;> first | rfl | cases hm

/-- The members are tried in order: the first one that accepts the value reads it, and if none does,
the failure of the union stands for theirs. -/
theorem decodeMembers_scalar (hscalar : ∀ m ∈ members, m.isScalar = true) (e : EngineValue)
    (failure : Error) :
    (∃ m ∈ members, m.Accepts e ∧ ∃ v, m.decode resolve e = .ok v ∧
      decodeMembers resolve members e failure = .ok v) ∨
      (∀ m ∈ members, ¬ m.Accepts e) ∧
        decodeMembers resolve members e failure = .error failure := by
  induction members with
  | nil => exact .inr ⟨nofun, rfl⟩
  | cons m rest ih =>
    obtain ⟨hm, hrest⟩ := List.forall_mem_cons.mp hscalar
    have hstep : decodeMembers resolve (m :: rest) e failure =
        tryCatch (m.decode resolve e) fun raised ↦
        if raised.isConversion then decodeMembers resolve rest e failure else throw raised := by
      rw [decodeMembers, if_neg (by rw [isNoneType_of_isScalar hm]; exact Bool.false_ne_true)]
    rw [hstep]
    obtain ⟨haccepts, v, hv⟩ | ⟨hnot, raised, hraised, hconversion⟩ := decode_scalar resolve hm e
    · exact .inl ⟨m, List.mem_cons_self, haccepts, v, hv, by rw [hv]; rfl⟩
    · have hnext : (tryCatch (m.decode resolve e) fun raised ↦
          if raised.isConversion then decodeMembers resolve rest e failure else throw raised) =
          decodeMembers resolve rest e failure := by
        rw [hraised]
        exact if_pos hconversion
      rw [hnext]
      obtain ⟨k, hk, hread⟩ | ⟨hnone, hfailure⟩ := ih hrest
      · exact .inl ⟨k, List.mem_cons_of_mem m hk, hread⟩
      · exact .inr ⟨List.forall_mem_cons.mpr ⟨hnot, hnone⟩, hfailure⟩

/-- What a value of a scalar type becomes by itself is accepted by the type. -/
theorem Fits.accepts (hv : m.Fits v) (hwritten : v.toEngine = .ok e) : m.Accepts e := by
  cases hv with
  | int width hn =>
    obtain ⟨fits, rfl⟩ := EngineValue.ofInt_eq_ok_iff.mp hwritten
    exact .int (.integer _ fits) hn
  | other hv hint =>
    cases hv with
    | int declared width n => exact absurd rfl (hint width n)
    | bool b => cases hwritten; exact .bool b
    | float x => cases hwritten; exact .float x
    | text s => cases hwritten; exact .text s
    | symbol s => cases hwritten; exact .symbol s
    | instanceName s => cases hwritten; exact .instanceName s

end

/-- Under a union of scalar types without the absent value, a value is written by its own type. What
it becomes is read under the union exactly if a member accepts it, which a member does that the
value is of; otherwise the reading fails for want of a conversion. -/
theorem union_read_back {members : List Hint} {v : Value} (spelling : UnionSpelling)
    (resolve : Option (EngineValue → Hint → Except Error Value))
    (hscalar : ∀ m ∈ members, m.isScalar = true) (hv : v ≠ .none) :
    (union spelling members).encode v = v.toEngine ∧
      ∀ e, v.toEngine = .ok e →
        ((∃ w, (union spelling members).decode resolve e = .ok w) ↔ ∃ m ∈ members, m.Accepts e) ∧
          ((∀ m ∈ members, ¬ m.Accepts e) → (union spelling members).decode resolve e =
            .error (.unsupported (.noConversion e.kind? (union spelling members).shortName))) ∧
          ∀ m ∈ members, m.Fits v → m.Accepts e := by
  have hpresent : members.any isNoneType = false := by
    rw [List.any_eq_false]
    exact fun m hm ↦ by rw [isNoneType_of_isScalar (hscalar m hm)]; exact Bool.false_ne_true
  refine ⟨?_, fun e hwritten ↦ ?_⟩
  · rw [encode.eq_def]
    dsimp only
    rw [hpresent]
    cases v with
    | none => exact absurd rfl hv
    | _ => rfl
  · rw [decode, if_neg (by rw [hpresent]; exact Bool.false_ne_true)]
    refine ⟨?_, fun hnone ↦ ?_, fun m _ hfits ↦ hfits.accepts hwritten⟩
    · obtain ⟨m, hm, haccepts, w, -, hread⟩ | ⟨hnone, hfailure⟩ :=
        decodeMembers_scalar resolve hscalar e
        (.unsupported (.noConversion e.kind? (union spelling members).shortName))
      · exact iff_of_true ⟨w, hread⟩ ⟨m, hm, haccepts⟩
      · rw [hfailure]
        refine iff_of_false ?_ ?_
        · rintro ⟨w, hread⟩
          cases hread
        · rintro ⟨m, hm, haccepts⟩
          exact hnone m hm haccepts
    · obtain ⟨m, hm, haccepts, -⟩ | ⟨-, hfailure⟩ := decodeMembers_scalar resolve hscalar e
        (.unsupported (.noConversion e.kind? (union spelling members).shortName))
      · exact absurd haccepts (hnone m hm)
      · exact hfailure

/-- A small integer is read back under a union that has it, and a symbol as a text. -/
theorem union_read_back_mixed :
    ∃ members : List Hint, (∀ m ∈ members, m.isScalar = true) ∧
      (∃ w, (union .word members).decode unresolved (.integer 5 (by decide)) = .ok w) ∧
      ∃ w, (union .word members).decode unresolved (.symbol "red") = .ok w := by
  let members : List Hint := [.int (.sized true .w8), .text]
  have hscalar : ∀ m ∈ members, m.isScalar = true := by decide
  have hint := (union_read_back (v := .int .unsized 5) .word unresolved hscalar nofun).2 _ rfl
  have htext := (union_read_back (v := .symbol "red") .word unresolved hscalar nofun).2 _ rfl
  refine ⟨members, hscalar, hint.1.mpr ?_,
    htext.1.mpr ⟨.text, by simp [members], .symbolAsText "red"⟩⟩
  have hmember : .int (.sized true .w8) ∈ members := by simp [members]
  exact ⟨_, hmember, hint.2.2 _ hmember (.int .unsized (by decide))⟩

/-- The float `1.5` is of no member of a union of integers and texts. It is written under it
nevertheless, and what it became is not read under it. -/
theorem union_writes_unreadable :
    ∃ (members : List Hint) (v : Value) (e : EngineValue),
      2 ≤ members.length ∧ (∀ m ∈ members, m.isScalar = true) ∧ v ≠ .none ∧
        (union .word members).encode v = .ok e ∧ ¬ ∃ w,
          (union .word members).decode unresolved e = .ok w := by
  let x : Binary64 := .finite false 1023 2251799813685248
  refine ⟨[.int .unsized, .text], .float x, .float x, by decide, by decide, nofun, rfl, ?_⟩
  rintro ⟨w, ⟨⟩⟩

end RuleMarshal.Hint
