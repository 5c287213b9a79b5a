import RuleMarshal.Proofs.Insertion.Fit
import RuleMarshal.Proofs.Insertion.Order
/-!
What a slot tells apart. A slot that refers to no objects is given what the value of its field is
encoded as. Two values that are written alike are equal (`alike_of_slotValue`), numbers as numbers
and texts as texts, but for what the engine has one form for: under an optional type the absent
value and the symbol of that spelling, for a field of many values the absent value and an empty row
(`absent_written_alike`). Where a value goes by its own type, because its declared type lets every
value through or is a union of several, the truth values and the absent value share their forms with
symbols too, and an engine value goes as it is.
-/

set_option autoImplicit false
set_option relaxedAutoImplicit false

namespace RuleMarshal

/-! ### Values by their own types -/

/-- What engine value a value goes as by its own type. -/
inductive Value.GoesAs : Value → EngineValue → Prop
  | engine (e : EngineValue) : GoesAs (.engine e) e
  | absent : GoesAs .none .nil
  | bool (b : Bool) : GoesAs (.bool b) (.ofBool b)
  | int (width : IntType) (n : Int) (fits : FitsEngine n) : GoesAs (.int width n) (.integer n fits)
  | float (x : Binary64) : GoesAs (.float x) (.float x)
  | text (s : String) : GoesAs (.text s) (.string s)
  | symbol (s : String) : GoesAs (.symbol s) (.symbol s)
  | instanceName (s : String) : GoesAs (.instanceName s) (.instanceName s)
  | instanceHandle (h : InstanceHandle) : GoesAs (.instanceHandle h) (.instanceAddress h)
  | factHandle (h : FactHandle) : GoesAs (.factHandle h) (.factAddress h)
  | row (asTuple : Bool) {vs : List Value} {es : List EngineValue}
      (hitems : vs.mapM Value.toEngine = .ok es) :
      GoesAs (.row asTuple vs) (.multifield es)

/-- Whether two values may be written alike where each goes by its own type: they are equal scalars,
rows of such values, a truth value or the absent value and the symbol that it goes as, or one of
them is the engine value that the other goes as. -/
inductive Value.AlikeByType : Value → Value → Prop
  | equal {v w : Value} (hequal : v.scalarEq w = true) : AlikeByType v w
  | row {vs ws : List Value} (asTuple otherTuple : Bool) (hitems : List.Forall₂ AlikeByType vs ws) :
      AlikeByType (.row asTuple vs) (.row otherTuple ws)
  | absent : AlikeByType .none (.symbol "nil")
  | absentRight : AlikeByType (.symbol "nil") .none
  | truth (b : Bool) : AlikeByType (.bool b) (.symbol (if b then "TRUE" else "FALSE"))
  | truthRight (b : Bool) : AlikeByType (.symbol (if b then "TRUE" else "FALSE")) (.bool b)
  | engine {e other : EngineValue} {v : Value} (hv : v.GoesAs other) (hsame : e.same other = true) :
      AlikeByType (.engine e) v
  | engineRight {e other : EngineValue} {v : Value} (hv : v.GoesAs other)
      (hsame : other.same e = true) :
      AlikeByType v (.engine e)

section

variable {v w : Value} {e other : EngineValue}

theorem Value.goesAs_of_toEngine (hv : v.toEngine = .ok e) : v.GoesAs e := by
  cases v with
  | int width n =>
    unfold toEngine EngineValue.ofInt at hv
    split at hv
    · cases hv
      exact .int width n _
    · cases hv
  | list vs =>
    rw [toEngine, toEngineEach_eq_mapM] at hv
    obtain ⟨es, hes, hreturn⟩ := Except.ok_of_bind hv
    cases hreturn
    exact .row false hes
  | tuple vs =>
    rw [toEngine, toEngineEach_eq_mapM] at hv
    obtain ⟨es, hes, hreturn⟩ := Except.ok_of_bind hv
    cases hreturn
    exact .row true hes
  | none | bool | float | text | symbol | instanceName | engine | instanceHandle | factHandle =>
    cases hv
    constructor
  | _ => cases hv

/-- Rows whose items are converted to what is the same item by item are related as items are that
come to the same. -/
theorem forall₂_of_sameEach {f : Value → Except Error EngineValue} {R : Value → Value → Prop}
    {vs ws : List Value} {es others : List EngineValue} (hvs : vs.mapM f = .ok es)
    (hws : ws.mapM f = .ok others) (hsame : EngineValue.sameEach es others = true)
    (hitem : ∀ v w e other, e ∈ es → f v = .ok e → f w = .ok other → e.same other = true → R v w) :
    List.Forall₂ R vs ws := by
  rw [Except.mapM_eq_ok_iff] at hvs hws
  induction hvs generalizing ws others with
  | nil =>
    cases hws with
    | nil => exact .nil
    | cons => cases hsame
  | cons hfirst _ ih =>
    cases hws with
    | nil => cases hsame
    | cons hother hrest =>
      rw [EngineValue.sameEach, Bool.and_eq_true] at hsame
      refine .cons (hitem _ _ _ _ List.mem_cons_self hfirst hother hsame.1) (ih hrest hsame.2 ?_)
      exact fun v w e other he ↦ hitem v w e other (List.mem_cons_of_mem _ he)

theorem Value.GoesAs.eq_of_engine (he : (Value.engine e).GoesAs other) : other = e := by
  generalize hv : Value.engine e = v at he
  cases he with
  | engine =>
    cases hv
    rfl
  | row asTuple => cases asTuple <;> cases hv
  | _ => cases hv

/-- What goes as a symbol is that symbol, the absent value or a truth value. -/
theorem Value.GoesAs.of_symbol {s : String} (hw : w.GoesAs other)
    (hsame : (EngineValue.symbol s).same other = true) (hengine : ∀ e, w ≠ .engine e) :
    w = .symbol s ∨ (w = .none ∧ s = "nil") ∨ ∃ b,
      w = .bool b ∧ s = if b then "TRUE" else "FALSE" := by
  cases hw with
  | engine => exact absurd rfl (hengine _)
  | absent => exact .inr (.inl ⟨rfl, of_decide_eq_true hsame⟩)
  | bool b => exact .inr (.inr ⟨b, rfl, of_decide_eq_true hsame⟩)
  | symbol t =>
    obtain rfl : s = t := of_decide_eq_true hsame
    exact .inl rfl
  | _ => cases hsame

/-- Values that go as the same by their own types are alike. -/
theorem Value.alikeByType_of_same (hv : v.GoesAs e) (hw : w.GoesAs other)
    (hsame : e.same other = true) :
    AlikeByType v w := by
  induction hsize : sizeOf e using Nat.strong_induction_on generalizing e other v w with
  | _ size ih =>
    by_cases hengine : ∃ e, w = .engine e
    · obtain ⟨e, rfl⟩ := hengine
      obtain rfl := hw.eq_of_engine
      exact .engineRight hv hsame
    have hother : ∀ e, w ≠ .engine e := fun e he ↦ hengine ⟨e, he⟩
    cases hv with
    | engine => exact .engine hw hsame
    | absent =>
      obtain rfl | ⟨rfl, -⟩ | ⟨b, rfl, hb⟩ := hw.of_symbol hsame hother
      · exact .absent
      · exact .equal rfl
      · cases b <;> simp at hb
    | bool b =>
      obtain rfl | ⟨rfl, hb⟩ | ⟨c, rfl, hb⟩ := hw.of_symbol hsame hother
      · exact .truth b
      · cases b <;> simp at hb
      · cases b <;> cases c <;> first | exact .equal rfl | simp at hb
    | symbol t =>
      obtain rfl | ⟨rfl, rfl⟩ | ⟨b, rfl, rfl⟩ := hw.of_symbol hsame hother
      · exact .equal (by simp [scalarEq, text?])
      · exact .absentRight
      · exact .truthRight b
    | row asTuple hvs =>
      cases hw with
      | engine => exact absurd rfl (hother _)
      | row otherTuple hws =>
        refine .row asTuple otherTuple
          (forall₂_of_sameEach hvs hws hsame fun v w e other he hv hw hsame ↦ ?_)
        subst hsize
        refine ih _ ?_ (goesAs_of_toEngine hv) (goesAs_of_toEngine hw) hsame rfl
        have hless := List.sizeOf_lt_of_mem he
        simp only [EngineValue.multifield.sizeOf_spec]
        omega
      | _ => cases hsame
    | _ =>
      cases hw with
      | engine => exact absurd rfl (hother _)
      | _ => first | exact .equal hsame | cases hsame

end

/-! ### How types take their values -/

namespace Hint

variable {h m item : Hint} {v w : Value} {e other : EngineValue} {asTuple : Bool}

/-- Whether a type lets every value that is there go by its own type. -/
def GoesByType (h : Hint) : Prop := ∀ v, v ≠ .none → h.encode v = v.toEngine

/-- How a type takes its values: it is a scalar type, a sequence, or a type with one other member
that lets its values be absent, it lets values go by their own types, or it takes none. -/
inductive Taking : Hint → Prop
  | scalar {h : Hint} (hscalar : h.isScalar = true) : Taking h
  | row {h item : Hint} {asTuple : Bool} (hitems : h.items = .each asTuple item)
      (hitem : Taking item) : Taking h
  | optional {h m : Hint} (hunwrap : h.unwrapOptional = (m, true))
      (habsent : h.encode .none = .ok .nil)
      (hencode : ∀ v, v ≠ .none → h.encode v = m.encode v) (hm : Taking m) : Taking h
  | byType {h : Hint} (habsent : ∀ e, h.encode .none = .ok e → e = .nil) (hown : h.GoesByType) :
      Taking h
  | never {h : Hint} (hrefused : ∀ v e, h.encode v ≠ .ok e) : Taking h

theorem taking_of_encodeUntyped (hencode : ∀ v, h.encode v = encode.encodeUntyped h v) :
    Taking h := by
  refine .byType (fun e he ↦ ?_) fun v hv ↦ ?_
  · rw [hencode] at he
    cases he
  · rw [hencode]
    cases v <;> first | rfl | exact absurd rfl hv

theorem taking_any : Taking .any :=
  .byType (fun e he ↦ by cases he; rfl) fun v _ ↦ encode_any v

theorem taking_atom (a : HintAtom) : Taking (.atom a) := by
  cases a with
  | bool | int | float | symbol | instanceName | text => exact .scalar rfl
  | list | tuple => exact .row rfl taking_any
  | any | anyObject | none =>
    exact .byType (fun e he ↦ by cases he; rfl) fun v hv ↦ by cases v <;> rfl
  | _ =>
    exact .byType (fun e he ↦ by cases he) fun v hv ↦ by
      cases v <;> first | rfl | exact absurd rfl hv

theorem taking_ofItem {k : Hint} (hk : Taking k) (hitems : h.items = Items.ofItem asTuple k)
    (huntyped : k.isAbsence = true → ∀ v, h.encode v = encode.encodeUntyped h v) : Taking h := by
  unfold Items.ofItem at hitems
  split at hitems
  · rename_i habsence
    exact taking_of_encodeUntyped (huntyped habsence)
  · exact .row hitems hk

theorem taking_union {spelling : UnionSpelling} {members : List Hint}
    (hmembers : ∀ m ∈ members, Taking m) :
    Taking (.union spelling members) := by
  cases hany : members.any isNoneType with
  | false =>
    refine .byType (fun e he ↦ ?_) fun v hv ↦ ?_
    · rw [encode.eq_def] at he
      dsimp only at he
      rw [hany] at he
      cases he
    · rw [encode.eq_def]
      dsimp only
      rw [hany]
      cases v <;> first | rfl | exact absurd rfl hv
  | true =>
    have habsent : (union spelling members).encode .none = .ok .nil := by
      rw [encode.eq_def]
      dsimp only
      rw [hany]
    have hpresent : ∀ v, v ≠ .none → (union spelling members).encode v =
        if hasSoleMember members then encodeSole members v else v.toEngine := by
      intro v hv
      rw [encode.eq_def]
      dsimp only
      rw [hany]
      cases v <;> first | rfl | exact absurd rfl hv
    by_cases hsole : hasSoleMember members = true
    · obtain ⟨m, hm⟩ := List.length_eq_one_iff.mp (of_decide_eq_true hsole)
      have hmem : m ∈ members.filter fun k ↦ !k.isNoneType := hm ▸ List.mem_singleton_self m
      refine .optional (m := m) ?_ habsent (fun v hv ↦ ?_) (hmembers m (List.mem_filter.mp hmem).1)
      · rw [unwrapOptional, if_pos hany, hm]
      · rw [hpresent v hv, if_pos hsole, encodeSole_of_filter v hm]
    · refine .byType (fun e he ↦ ?_) fun v hv ↦ ?_
      · rw [habsent] at he
        cases he
        rfl
      · rw [hpresent v hv, if_neg hsole]

theorem taking_fixedTuple {k : Hint} (rest : List Hint) (hk : Taking k) :
    Taking (.fixedTuple (k :: rest)) := by
  by_cases huniform : k.isUniform rest = true
  · refine taking_ofItem hk (if_pos huniform) fun habsence v ↦ ?_
    cases v <;> simp [encode, huniform, habsence, encode.encodeUntyped]
  · refine .never fun v e ↦ ?_
    cases v <;> simp [encode, huniform]

theorem taking_generic (place : Place) (origin : HintAtom) {args : List Hint}
    (hargs : ∀ k ∈ args, Taking k) : Taking (@generic place origin args) := by
  cases origin with
  | list =>
    cases args with
    | nil => exact .row rfl taking_any
    | cons k rest =>
      exact taking_ofItem (hargs k List.mem_cons_self) rfl fun habsence _ ↦ by
        rw [encode, if_pos habsence]
  | _ => exact taking_of_encodeUntyped fun _ ↦ rfl

mutual

/-- Every type takes its values in one of these ways. -/
theorem taking : ∀ h : Hint, Taking h
  | .atom a => taking_atom a
  | .union _ members => taking_union (takingEach members)
  | .listOf k => taking_ofItem (taking k) rfl fun habsence _ ↦ by rw [encode, if_pos habsence]
  | .tupleOf k => taking_ofItem (taking k) rfl fun habsence _ ↦ by rw [encode, if_pos habsence]
  | .sequenceOf k => taking_ofItem (taking k) rfl fun habsence _ ↦ by rw [encode, if_pos habsence]
  | .mutableSequenceOf k => taking_ofItem (taking k) rfl fun habsence _ ↦ by
      rw [encode, if_pos habsence]
  | .setOf _ => taking_of_encodeUntyped fun _ ↦ rfl
  | .mappingOf .. => taking_of_encodeUntyped fun _ ↦ rfl
  | .fixedTuple [] => .row rfl taking_any
  | .fixedTuple (k :: rest) => taking_fixedTuple rest (taking k)
  | @generic place origin args => taking_generic place origin (takingEach args)

theorem takingEach : ∀ (hs : List Hint), ∀ m ∈ hs, Taking m
  | [] => List.forall_mem_nil _
  | h :: rest => List.forall_mem_cons.mpr ⟨taking h, takingEach rest⟩

end

end Hint

/-! ### Values of declared types -/

/-- Whether a value is spelled as the engine's absence. -/
inductive Value.SpelledAbsent : Value → Prop
  | text {v : Value} (hv : v.text? = some "nil") : SpelledAbsent v
  | engine : SpelledAbsent (.engine .nil)

/-- Whether two values of a type may be written alike: they are equal scalars, count as equal
floats, are rows of such values or such values of the other member of an optional type, or go by
their own types and are alike by these. Where an optional type takes symbols, the absent value is
written as what is spelled so. -/
inductive Hint.Alike : Hint → Value → Value → Prop
  | equal {h : Hint} {v w : Value} (hequal : v.scalarEq w = true) : Alike h v w
  | float {v w : Value} {x y : Binary64} (hv : v.CountsAs x) (hw : w.CountsAs y)
      (hequal : x.numericEq y = true) :
      Alike .float v w
  | row {h item : Hint} {asTuple : Bool} {vs ws : List Value}
      (hitems : h.items = .each asTuple item)
      (first second : Bool) (hlength : vs.length = ws.length)
      (halike : ∀ v w, (v, w) ∈ vs.zip ws → Alike item v w) :
      Alike h (.row first vs) (.row second ws)
  | optional {h m : Hint} {v w : Value} (hunwrap : h.unwrapOptional = (m, true))
      (halike : Alike m v w) : Alike h v w
  | absent {h m : Hint} {v : Value} (hunwrap : h.unwrapOptional = (m, true))
      (hm : m.encode (.symbol "nil") = .ok .nil)
      (hv : v.SpelledAbsent) : Alike h .none v
  | absentRight {h m : Hint} {v : Value} (hunwrap : h.unwrapOptional = (m, true))
      (hm : m.encode (.symbol "nil") = .ok .nil) (hv : v.SpelledAbsent) : Alike h v .none
  | byType {h : Hint} {v w : Value} (hown : h.GoesByType) (halike : v.AlikeByType w) : Alike h v w

namespace Hint

variable {h m item : Hint} {v w : Value} {e other : EngineValue} {asTuple : Bool}

theorem scalarEq_of_text {s : String} (hv : v.text? = some s) (hw : w.text? = some s) :
    v.scalarEq w = true := by
  cases v <;> cases hv <;> cases w <;> cases hw <;> simp [Value.scalarEq, Value.text?]

/-- Values that a scalar type writes alike are equal, or count as equal floats. -/
theorem ScalarWritten.alike (hv : ScalarWritten h v e) (hw : ScalarWritten h w other)
    (hsame : e.same other = true) :
    h.Alike v w := by
  cases hv with
  | bool b =>
    cases hw with
    | bool c =>
      have hspelled := of_decide_eq_true hsame
      cases b <;> cases c <;> first | exact .equal rfl | simp at hspelled
  | int => cases hw with | int => exact .equal hsame
  | float hv => cases hw with | float hw => exact .float hv hw hsame
  | symbol hv =>
    cases hw with
    | symbol hw =>
      obtain rfl := of_decide_eq_true hsame
      exact .equal (scalarEq_of_text hv hw)
  | instanceName hv =>
    cases hw with
    | instanceName hw =>
      obtain rfl := of_decide_eq_true hsame
      exact .equal (scalarEq_of_text hv hw)
  | text hv =>
    cases hw with
    | text hw =>
      obtain rfl := of_decide_eq_true hsame
      exact .equal (scalarEq_of_text hv hw)

theorem eq_nil_of_same (hsame : e.same .nil = true) : e = .nil := by
  cases e with
  | symbol s => exact congrArg EngineValue.symbol (of_decide_eq_true hsame)
  | _ => cases hsame

theorem eq_nil_of_nil_same (hsame : EngineValue.nil.same e = true) : e = .nil := by
  cases e with
  | symbol s => exact congrArg EngineValue.symbol (of_decide_eq_true hsame).symm
  | _ => cases hsame

theorem eq_symbol_of_encode_nil (hscalar : m.isScalar = true) (hencode : m.encode w = .ok .nil) :
    m = .symbol ∧ w.text? = some "nil" := by
  generalize he : EngineValue.nil = e at hencode
  cases scalarWritten_of_encode hscalar hencode with
  | symbol htext =>
    cases he
    exact ⟨rfl, htext⟩
  | bool b => cases b <;> simp [EngineValue.nil, EngineValue.ofBool] at he
  | _ => cases he

/-- A value that is there is written as the absent one only under types that take symbols, and is
spelled so. -/
theorem spelledAbsent_of_encode (htaking : Taking m) (hw : w ≠ .none)
    (hencode : m.encode w = .ok .nil) :
    m.encode (.symbol "nil") = .ok .nil ∧ w.SpelledAbsent := by
  induction htaking with
  | scalar hscalar =>
    obtain ⟨rfl, htext⟩ := eq_symbol_of_encode_nil hscalar hencode
    exact ⟨rfl, .text htext⟩
  | row hitems =>
    obtain ⟨_, _, _, -, -, habsurd⟩ := encodedEach_of_encode hitems hencode
    cases habsurd
  | optional _ _ hpresent _ ih =>
    rw [hpresent _ hw] at hencode
    rw [hpresent (.symbol "nil") nofun]
    exact ih hencode
  | byType _ hown =>
    refine ⟨hown (.symbol "nil") nofun, ?_⟩
    rw [hown _ hw] at hencode
    by_cases hengine : ∃ e, w = .engine e
    · obtain ⟨e, rfl⟩ := hengine
      cases hencode
      exact .engine
    · have hgoes := Value.goesAs_of_toEngine hencode
      obtain rfl | ⟨rfl, -⟩ | ⟨b, rfl, hb⟩ :=
        hgoes.of_symbol (s := "nil") rfl fun e he ↦ hengine ⟨e, he⟩
      · exact .text rfl
      · exact absurd rfl hw
      · cases b <;> simp at hb
  | never hrefused => exact absurd hencode (hrefused _ _)

theorem GoesByType.goesAs (hown : h.GoesByType) (habsent : ∀ e, h.encode .none = .ok e → e = .nil)
    (hencode : h.encode v = .ok e) : v.GoesAs e := by
  by_cases hv : v = .none
  · subst hv
    rw [habsent _ hencode]
    exact .absent
  · exact Value.goesAs_of_toEngine ((hown v hv).symm.trans hencode)

/-- Values that a type writes alike are alike. -/
theorem alike_of_encode (htaking : Taking h) (hv : h.encode v = .ok e) (hw : h.encode w = .ok other)
    (hsame : e.same other = true) : h.Alike v w := by
  induction htaking generalizing v w e other with
  | scalar hscalar =>
    exact (scalarWritten_of_encode hscalar hv).alike (scalarWritten_of_encode hscalar hw) hsame
  | row hitems _ ih =>
    obtain ⟨first, vs, es, rfl, hvs, rfl⟩ := encodedEach_of_encode hitems hv
    obtain ⟨second, ws, others, rfl, hws, rfl⟩ := encodedEach_of_encode hitems hw
    have halike := forall₂_of_sameEach hvs hws hsame fun _ _ _ _ _ hv hw ↦ ih hv hw
    exact .row hitems first second halike.length_eq fun v w hmem ↦
      (List.forall₂_iff_zip.mp halike).2 hmem
  | optional hunwrap habsent hpresent hm ih =>
    by_cases hnone : v = .none
    · subst hnone
      obtain rfl : EngineValue.nil = e := Except.ok.inj (habsent.symm.trans hv)
      by_cases hother : w = .none
      · subst hother
        exact .equal rfl
      · rw [hpresent _ hother, eq_nil_of_nil_same hsame] at hw
        obtain ⟨htakes, hspelled⟩ := spelledAbsent_of_encode hm hother hw
        exact .absent hunwrap htakes hspelled
    · by_cases hother : w = .none
      · subst hother
        obtain rfl : EngineValue.nil = other := Except.ok.inj (habsent.symm.trans hw)
        rw [hpresent _ hnone, eq_nil_of_same hsame] at hv
        obtain ⟨htakes, hspelled⟩ := spelledAbsent_of_encode hm hnone hv
        exact .absentRight hunwrap htakes hspelled
      · rw [hpresent _ hnone] at hv
        rw [hpresent _ hother] at hw
        exact .optional hunwrap (ih hv hw hsame)
  | byType habsent hown =>
    exact .byType hown
      (Value.alikeByType_of_same (hown.goesAs habsent hv) (hown.goesAs habsent hw) hsame)
  | never hrefused => exact absurd hv (hrefused _ _)

end Hint

/-! ### Slots -/

/-- Whether two values of a field may be written alike in its slot: they are alike, or the slot
holds many values, and one of the two is absent and the other is an empty row. -/
inductive Hint.AlikeInSlot (h : Hint) : Value → Value → Prop
  | alike {v w : Value} (halike : h.Alike v w) : AlikeInSlot h v w
  | emptied {m : Hint} (hshape : SlotShape h true m) (asRow : Bool) :
      AlikeInSlot h .none (.row asRow [])
  | emptiedRight {m : Hint} (hshape : SlotShape h true m) (asRow : Bool) :
      AlikeInSlot h (.row asRow []) .none

section

variable {h m : Hint} {optional : Bool} {v w : Value}

theorem not_goesByType_of_isScalar (hunwrap : h.unwrapOptional = (m, optional))
    (hscalar : m.isScalar = true) :
    ¬ h.GoesByType := by
  intro hown
  obtain ⟨a, rfl⟩ := Hint.atom_of_isScalar hscalar
  have hbare : h.encode (.engine .bare) = .ok .bare := hown (.engine .bare) nofun
  rw [Hint.encode_of_unwrapOptional hunwrap rfl (by nofun)] at hbare
  cases Hint.scalarWritten_of_encode hscalar hbare

theorem eq_none_of_scalarEq (hequal : Value.none.scalarEq w = true) : w = .none := by
  cases w <;> first | rfl | cases hequal

/-- Nothing is alike to the absent value under a type of scalars, nor under the optional type but
for symbols. -/
theorem eq_none_of_alike (hunwrap : h.unwrapOptional = (m, optional)) (hscalar : m.isScalar = true)
    (hsymbol : m ≠ .symbol) (halike : h.Alike v w) (hv : v = .none) : w = .none := by
  induction halike generalizing optional with
  | equal hequal =>
    subst hv
    exact eq_none_of_scalarEq hequal
  | float hcounts =>
    subst hv
    cases hcounts
  | row _ first => cases first <;> cases hv
  | optional hsole _ ih =>
    obtain ⟨rfl, rfl⟩ := Prod.mk.inj (hunwrap.symm.trans hsole)
    obtain ⟨a, rfl⟩ := Hint.atom_of_isScalar hscalar
    exact ih rfl hv
  | absent hsole hm =>
    obtain ⟨rfl, rfl⟩ := Prod.mk.inj (hunwrap.symm.trans hsole)
    exact absurd (Hint.eq_symbol_of_encode_nil hscalar hm).1 hsymbol
  | absentRight => rfl
  | byType hown => exact absurd hown (not_goesByType_of_isScalar hunwrap hscalar)

/-- In a slot for a single scalar other than a symbol, which may be absent, nothing is written as
the absent value is but that itself. -/
theorem eq_none_of_alikeInSlot (hunwrap : h.unwrapOptional = (m, optional))
    (hscalar : m.isScalar = true) (hsymbol : m ≠ .symbol) (halike : h.AlikeInSlot .none w) :
    w = .none := by
  suffices hall : ∀ v, h.AlikeInSlot v w → v = .none → w = .none from hall _ halike rfl
  intro v halike hv
  cases halike with
  | alike halike => exact eq_none_of_alike hunwrap hscalar hsymbol halike hv
  | emptiedRight => rfl
  | emptied hshape => cases (hshape.eq_of_single hunwrap (Hint.items_of_isScalar hscalar)).1

end

section

variable {table : TypeTable} {owner : String} {f : Field} {slot : SlotSchema}
variable {insertNested otherNested : Value → Inserting String} {world otherWorld : World}
variable {i j i' j' : Insertion} {s t s' t' : State} {h m : Hint} {optional : Bool}
variable {v w : Value} {e other : EngineValue}

theorem eq_empty_of_same (hsame : e.same (.multifield []) = true) : e = .multifield [] := by
  cases e with
  | multifield es => cases es <;> first | rfl | cases hsame
  | _ => cases hsame

theorem eq_empty_of_empty_same (hsame : (EngineValue.multifield []).same e = true) :
    e = .multifield [] := by
  cases e with
  | multifield es => cases es <;> first | rfl | cases hsame
  | _ => cases hsame

theorem exists_empty_of_encode (hshape : SlotShape h true m) (hv : v ≠ .none)
    (hencode : h.encode v = .ok (.multifield [])) : ∃ asRow, v = .row asRow [] := by
  cases hshape with
  | @row row item _ wide optional asTuple hrow hitems =>
    have hunion : row.isUnion = false := by cases row <;> first | rfl | cases hitems
    rw [Hint.encode_of_unwrapOptional hrow hunion hv] at hencode
    obtain ⟨asRow, vs, es, rfl, hes, hempty⟩ := Hint.encodedEach_of_encode hitems hencode
    cases hempty
    cases Except.mapM_eq_ok_iff.mp hes
    exact ⟨asRow, rfl⟩

theorem reference_eq_none_of_kind (hslot : reflectField table owner f = .ok slot)
    (hclass : slot.kind ≠ .classReference) : slot.reference = none := by
  obtain ⟨-, m, optional, multi, -, hholding⟩ := exists_slotHolding_of_reflectField hslot
  obtain ⟨kind, referred, reference, hkind, hreference, rfl⟩ := eq_of_slotHolding hholding
  obtain rfl : referred = none := by
    unfold slotKind? at hkind
    split at hkind
    case h_10 =>
      split_ifs at hkind
      · cases hkind
        exact absurd rfl hclass
      · cases hkind
        rfl
    all_goals
      cases hkind
      rfl
  exact Option.not_isSome_iff_eq_none.mp (by simp [hreference])

/-- What a slot is given tells the values of its field apart, but for those that are alike. -/
theorem alikeInSlot_of_given (hhint : slot.hint = h)
    (hreading : SlotReading h slot.multi m optional) (hv : slot.given v = .ok e)
    (hw : slot.given w = .ok other) (hsame : e.same other = true) : h.AlikeInSlot v w := by
  subst hhint
  unfold SlotSchema.given at hv hw
  split at hv
  · rename_i hmulti
    cases hv
    split at hw
    · exact .alike (.equal rfl)
    · rename_i hthere
      rw [hmulti] at hreading
      rw [eq_empty_of_empty_same hsame] at hw
      obtain ⟨asRow, rfl⟩ := exists_empty_of_encode hreading.shape (hthere hmulti) hw
      exact .emptied hreading.shape asRow
  · rename_i hthere
    split at hw
    · rename_i hmulti
      cases hw
      rw [hmulti] at hreading
      rw [eq_empty_of_same hsame] at hv
      obtain ⟨asRow, rfl⟩ := exists_empty_of_encode hreading.shape (hthere hmulti) hv
      exact .emptiedRight hreading.shape asRow
    · exact .alike (Hint.alike_of_encode slot.hint.taking hv hw hsame)

/-- Two values that a slot is given alike on insertions are alike, if the slot refers to no
objects. -/
theorem alike_of_slotValue (hslot : reflectField table owner f = .ok slot)
    (hclass : slot.kind ≠ .classReference)
    (hrun : Carrying.runIn (slotValue insertNested slot v) world i s = (.ok (e, j), t))
    (hother : Carrying.runIn (slotValue otherNested slot w) otherWorld i' s' =
      (.ok (other, j'), t'))
    (hsame : e.same other = true) : f.hint.AlikeInSlot (s.heap.content v) (s'.heap.content w) := by
  have hreference := reference_eq_none_of_kind hslot hclass
  obtain ⟨-, m, optional, multi, hreading, hholding⟩ := exists_slotHolding_of_reflectField hslot
  obtain ⟨kind, referred, reference, -, -, rfl⟩ := eq_of_slotHolding hholding
  exact alikeInSlot_of_given rfl hreading (given_of_slotValue hreference hrun)
    (given_of_slotValue hreference hother) hsame

end

/-- A field of floats in a row, of which some may be absent. -/
def depthsField : Field := { attr := "depths", hint := .listOf (.union .word [.float, .noneType]) }

/-- Its slot. -/
def depthsSlot : SlotSchema :=
  { name := "depths", attr := "depths", kind := .float, multi := true, optional := true,
    hint := depthsField.hint, reference := none }

/-- One, as a float. -/
def floatOne : Binary64 := .finite false ⟨1023, by decide⟩ ⟨0, by decide⟩

/-- A row of the integer one and the absent value is written as that of the float and the absent
value. -/
theorem alike_of_slotValue_depths :
    reflectField {} "Sounding" depthsField = .ok depthsSlot ∧
      (∀ v ∈ [Value.int .unsized 1, .float floatOne],
        Carrying.runIn (slotValue (fun _ ↦ pure "") depthsSlot (.list [v, .none])) idleWorld {} {} =
          (.ok (.multifield [.float floatOne, .nil], {}), {})) ∧
      depthsField.hint.AlikeInSlot (.list [.int .unsized 1, .none])
        (.list [.float floatOne, .none]) := by
  have hslot : reflectField {} "Sounding" depthsField = .ok depthsSlot := rfl
  have hcontent : ∀ v ∈ [Value.int .unsized 1, .float floatOne],
      ({} : Heap).content (.list [v, .none]) = .list [v, .none] := by
    simp [Heap.content, Value.settledWithin, settledEach]
  have hrun : ∀ v ∈ [Value.int .unsized 1, .float floatOne],
      Carrying.runIn (slotValue (fun _ ↦ pure "") depthsSlot (.list [v, .none])) idleWorld {} {} =
        (.ok (.multifield [.float floatOne, .nil], {}), {}) := by
    intro v hv
    rw [runIn_slotValue rfl, hcontent v hv]
    obtain rfl | rfl : v = .int .unsized 1 ∨ v = .float floatOne := by simpa using hv
    · rfl
    · rfl
  have halike := alike_of_slotValue hslot (by decide) (hrun (.int .unsized 1) (by simp))
    (hrun (.float floatOne) (by simp)) rfl
  rw [hcontent _ (by simp), hcontent _ (by simp)] at halike
  exact ⟨hslot, hrun, halike⟩

/-- A field of integers in a row, which may be absent. -/
def marksField : Field :=
  { attr := "marks", hint := .union .word [.listOf (.int .unsized), .noneType] }

/-- Its slot. -/
def marksSlot : SlotSchema :=
  { name := "marks", attr := "marks", kind := .integer, multi := true, optional := false,
    hint := marksField.hint, reference := none }

/-- A field of a symbol, which may be absent. -/
def labelField : Field := { attr := "label", hint := .union .word [.symbol, .noneType] }

/-- Its slot. -/
def labelSlot : SlotSchema :=
  { name := "label", attr := "label", kind := .symbol, multi := false, optional := true,
    hint := labelField.hint, reference := none }

/-- The absent value is written as an empty row in one slot and as a symbol in another. -/
theorem absent_written_alike :
    reflectField {} "Note" marksField = .ok marksSlot ∧
      reflectField {} "Note" labelField = .ok labelSlot ∧
      (∀ v ∈ [Value.none, .list []],
        Carrying.runIn (slotValue (fun _ ↦ pure "") marksSlot v) idleWorld {} {} =
        (.ok (.multifield [], {}), {})) ∧
      (∀ v ∈ [Value.none, .symbol "nil"],
        Carrying.runIn (slotValue (fun _ ↦ pure "") labelSlot v) idleWorld {} {} =
        (.ok (.symbol "nil", {}), {})) ∧
      Value.none.scalarEq (.list []) = false ∧ Value.none.scalarEq (.symbol "nil") = false := by
  refine ⟨rfl, rfl, fun v hv ↦ ?_, fun v hv ↦ ?_, rfl, rfl⟩
  · have hcontent : ({} : Heap).content v = v := by
      obtain rfl | rfl : v = .none ∨ v = .list [] := by simpa using hv
      all_goals simp [Heap.content, Value.settledWithin, settledEach]
    rw [runIn_slotValue rfl, hcontent]
    obtain rfl | rfl : v = .none ∨ v = .list [] := by simpa using hv
    all_goals rfl
  · have hcontent : ({} : Heap).content v = v := by
      obtain rfl | rfl : v = .none ∨ v = .symbol "nil" := by simpa using hv
      all_goals simp [Heap.content, Value.settledWithin]
    rw [runIn_slotValue rfl, hcontent]
    obtain rfl | rfl : v = .none ∨ v = .symbol "nil" := by simpa using hv
    all_goals rfl

end RuleMarshal
