import RuleMarshal.Engine.Render
import RuleMarshal.Proofs.Binary64.Text
import RuleMarshal.Proofs.Engine.Form
import RuleMarshal.Proofs.Text.SafeSymbol
/-!
Engine values as text. The text of a value is that of a form (`exists_form?_of_render`), a proper
one, so that the text is one closed expression and the form can be told from it. The value can be
told from the form, but for the handle behind an address, of which only the name is written
(`read?_of_form?`). Hence values with one text are the same value up to the handles of their
addresses (`render_closed_injective`).
-/

set_option autoImplicit false
set_option relaxedAutoImplicit false

namespace RuleMarshal

/-! ### Values without a text -/

namespace EngineValue

/-- Whether a value is another or holds it at some depth. -/
inductive Contains : EngineValue → EngineValue → Prop
  | self (v : EngineValue) : Contains v v
  | item {items : List EngineValue} {v u : EngineValue} (hv : v ∈ items) (h : Contains v u) :
      Contains (.multifield items) u

/-- The values that have no text themselves: floats that are not finite, addresses of facts and of
foreign data, and the bare value. -/
def IsUnwritable : EngineValue → Prop
  | .float x => x.isFinite = false
  | .factAddress _ | .externalAddress _ | .bare => True
  | _ => False

theorem contains_iff_of_single {v u : EngineValue} (hv : ∀ items, v ≠ .multifield items) :
    v.Contains u ↔ u = v := by
  constructor
  · intro h
    cases h with
    | self => rfl
    | item hv' hu => exact absurd rfl (hv _)
  · rintro rfl
    exact .self _

/-- Something holds of all that a multifield holds if it does of the multifield and of all that its
items hold. -/
theorem forall_contains_multifield_iff {P : EngineValue → Prop} {items : List EngineValue} :
    (∀ u, (multifield items).Contains u → P u) ↔
      P (multifield items) ∧ ∀ v ∈ items, ∀ u, v.Contains u → P u := by
  constructor
  · intro h
    exact ⟨h _ (.self _), fun v hv u hu ↦ h u (.item hv hu)⟩
  · rintro ⟨hself, hitems⟩ u (_ | ⟨hv, hu⟩)
    · exact hself
    · exact hitems _ hv u hu

theorem exists_render_iff_of_single {v : EngineValue} (hv : ∀ items, v ≠ .multifield items) :
    (∃ text, v.render = .ok text) ↔ ¬ v.IsUnwritable := by
  cases v with
  | multifield items => exact absurd rfl (hv items)
  | float x => cases hx : x.isFinite <;> simp [render, IsUnwritable, hx]
  | _ => simp [render, IsUnwritable]

/-- What holds of single values, and of a multifield if of its items, holds of every value. -/
@[elab_as_elim]
theorem of_items {motive : EngineValue → Prop}
    (single : ∀ v, (∀ items, v ≠ .multifield items) → motive v)
    (multifield : ∀ items, (∀ v ∈ items, motive v) → motive (.multifield items)) :
    ∀ v, motive v := by
  intro v
  induction v using EngineValue.rec with
  | multifield items ih => exact multifield items ih
  | nil => simp
  | cons v rest hv hrest => exact List.forall_mem_cons.mpr ⟨hv, hrest⟩
  | _ => exact single _ fun items h ↦ by cases h

theorem exists_renderEach_iff {items : List EngineValue} :
    (∃ texts, renderEach items = .ok texts) ↔ ∀ v ∈ items, ∃ text, v.render = .ok text := by
  induction items with
  | nil => simp [renderEach]
  | cons v rest ih =>
    rw [List.forall_mem_cons, ← ih, renderEach]
    constructor
    · rintro ⟨texts, h⟩
      obtain ⟨text, htext, hrest⟩ := Except.ok_of_bind h
      obtain ⟨others, hothers, -⟩ := Except.ok_of_bind hrest
      exact ⟨⟨text, htext⟩, others, hothers⟩
    · rintro ⟨⟨text, htext⟩, others, hothers⟩
      rw [htext, hothers]
      exact ⟨_, rfl⟩

/-- A value has a text exactly if nothing that it holds has none. -/
theorem exists_render_iff (v : EngineValue) :
    (∃ text, v.render = .ok text) ↔ ∀ u, v.Contains u → ¬ u.IsUnwritable := by
  induction v using of_items with
  | single v hv => simp [exists_render_iff_of_single hv, contains_iff_of_single hv]
  | multifield items ih =>
    have hitems : (∃ text, (multifield items).render = .ok text) ↔
        ∃ texts, renderEach items = .ok texts := by
      rw [render]
      constructor
      · rintro ⟨text, h⟩
        obtain ⟨texts, htexts, -⟩ := Except.ok_of_bind h
        exact ⟨texts, htexts⟩
      · rintro ⟨texts, htexts⟩
        rw [htexts]
        exact ⟨_, rfl⟩
    rw [hitems, exists_renderEach_iff, forall_contains_multifield_iff]
    exact (forall₂_congr ih).trans (and_iff_right id).symm

end EngineValue

theorem EngineValue.value_of_term {v : EngineValue} {t : Term} (hterm : v.term = .ok t) :
    t.value = v := by
  unfold term at hterm
  split at hterm
  · cases hterm
    rfl
  · cases hterm

/-! ### The form of a value -/

/-- The form of a symbol. -/
def symbolForm (name : String) : Form :=
  if Text.SafeSymbol.accepts name then .word name.toList
  else .call "sym-cat".toList [.literal name.toList]

/-- The form of an instance name. -/
def instanceNameForm (name : String) : Form :=
  if Text.SafeSymbol.accepts name then .word ('[' :: (name.toList ++ [']']))
  else .call "symbol-to-instance-name".toList [.call "sym-cat".toList [.literal name.toList]]

theorem toList_quote (text : String) :
    (Text.EngineString.quote text).toList = (Form.literal text.toList).spell := by
  simp [Text.EngineString.quote, Form.spell]

theorem toList_renderSymbol (name : String) :
    (renderSymbol name).toList = (symbolForm name).spell := by
  unfold renderSymbol symbolForm
  split
  · rfl
  · simp [toList_quote, Form.spell, Form.spellEach]

theorem toList_renderInstanceName (name : String) :
    (renderInstanceName name).toList = (instanceNameForm name).spell := by
  unfold renderInstanceName instanceNameForm
  split
  · simp [Form.spell]
  · simp [toList_quote, Form.spell, Form.spellEach]

namespace EngineValue

mutual

/-- The form that a value is written in, if it has a text. -/
def form? : EngineValue → Option Form
  | .integer n _ => some (.word (toString n).toList)
  | .float x => if x.isFinite then some (.word x.text.toList) else none
  | .string text => some (.literal text.toList)
  | .symbol name => some (symbolForm name)
  | .instanceName name => some (instanceNameForm name)
  | .multifield items => (formEach? items).map (.call "create$".toList)
  | .instanceAddress h => some (.call "instance-address".toList [instanceNameForm h.name])
  | _ => none

/-- The forms that values are written in, if each has a text. -/
def formEach? : List EngineValue → Option (List Form)
  | [] => some []
  | v :: rest => (form? v).bind fun f ↦ (formEach? rest).map (f :: ·)

end

theorem exists_formEach?_of_renderEach {items : List EngineValue} {texts : List String}
    (hitems : ∀ v ∈ items, ∀ text, v.render = .ok text → ∃ f,
      v.form? = some f ∧ text.toList = f.spell)
    (h : renderEach items = .ok texts) :
    ∃ fs, formEach? items = some fs ∧ texts.flatMap String.toList = Form.spellEach fs := by
  induction items generalizing texts with
  | nil => exact ⟨[], rfl, by rw [← Except.ok.inj h]; rfl⟩
  | cons v rest ih =>
    obtain ⟨hv, hrest⟩ := List.forall_mem_cons.mp hitems
    rw [renderEach] at h
    obtain ⟨text, htext, hothers⟩ := Except.ok_of_bind h
    obtain ⟨others, hothers, hcons⟩ := Except.ok_of_bind hothers
    obtain ⟨f, hf, hspell⟩ := hv text htext
    obtain ⟨fs, hfs, hspells⟩ := ih hrest hothers
    refine ⟨f :: fs, by rw [formEach?, hf, hfs]; rfl, ?_⟩
    rw [← Except.ok.inj hcons]
    simp [Form.spellEach, hspell, hspells]

/-- The text of a value is that of a form. -/
theorem exists_form?_of_render {v : EngineValue} {text : String} (h : v.render = .ok text) :
    ∃ f, v.form? = some f ∧ text.toList = f.spell := by
  induction v using of_items generalizing text with
  | multifield items ih =>
    rw [render] at h
    obtain ⟨texts, htexts, hjoin⟩ := Except.ok_of_bind h
    obtain ⟨fs, hfs, hspell⟩ := exists_formEach?_of_renderEach (fun v hv text ↦ ih v hv) htexts
    refine ⟨.call "create$".toList fs, by rw [form?, hfs]; rfl, ?_⟩
    rw [← Except.ok.inj hjoin]
    simp [Form.spell, ← hspell, String.toList_join]
  | single v hv =>
    cases v with
    | multifield items => exact absurd rfl (hv items)
    | float x =>
      rw [render] at h
      split_ifs at h with hx
      rw [← Except.ok.inj h]
      exact ⟨.word x.text.toList, by simp [form?, hx], rfl⟩
    | integer n fits => exact ⟨_, rfl, by rw [← Except.ok.inj h]; rfl⟩
    | string s => exact ⟨_, rfl, by rw [← Except.ok.inj h, toList_quote]⟩
    | symbol name => exact ⟨_, rfl, by rw [← Except.ok.inj h, toList_renderSymbol]⟩
    | instanceName name => exact ⟨_, rfl, by rw [← Except.ok.inj h, toList_renderInstanceName]⟩
    | instanceAddress handle =>
      refine ⟨_, rfl, ?_⟩
      rw [← Except.ok.inj h]
      simp [toList_renderInstanceName, Form.spell, Form.spellEach]
    | _ => simp [render] at h

end EngineValue

/-! ### A value from its form -/

/-- The value that a word stands for: a name in brackets, a symbol, a float or an integer. -/
def readWord? : List Char → Option EngineValue
  | [] => none
  | c :: rest =>
    if c = '[' then some (.instanceName (String.ofList rest.dropLast))
    else if Text.SafeSymbol.isHead c then some (.symbol (String.ofList (c :: rest)))
    else if '.' ∈ c :: rest ∨ 'e' ∈ c :: rest then
      (Binary64.ofText? (String.ofList (c :: rest))).map .float
    else
      let n : Int := if c = '-' then -(Nat.ofDigitChars 10 rest 0 : Nat)
        else Nat.ofDigitChars 10 (c :: rest) 0
      if h : FitsEngine n then some (.integer n h) else none

/-- The value that a call of one of the functions that make values stands for. -/
def makeValue? (function : List Char) (args : List EngineValue) : Option EngineValue :=
  if function = "create$".toList then some (.multifield args)
  else
    match args with
    | [.string text] => if function = "sym-cat".toList then some (.symbol text) else none
    | [.symbol name] =>
      if function = "symbol-to-instance-name".toList then some (.instanceName name) else none
    | [.instanceName name] =>
      if function = "instance-address".toList then some (.instanceAddress ⟨name, 0, 0⟩) else none
    | _ => none

namespace Form

mutual

/-- The value that a form stands for. -/
def read? : Form → Option EngineValue
  | .word cs => readWord? cs
  | .literal cs => some (.string (String.ofList cs))
  | .call function args => (readEach? args).bind (makeValue? function)

/-- The values that forms stand for, if each stands for one. -/
def readEach? : List Form → Option (List EngineValue)
  | [] => some []
  | f :: rest => (read? f).bind fun v ↦ (readEach? rest).map (v :: ·)

end

end Form

namespace EngineValue

mutual

/-- A value without the epochs of the handles in it: of an address, only the name of the instance is
left. -/
def byName : EngineValue → EngineValue
  | .multifield items => .multifield (byNameEach items)
  | .instanceAddress h => .instanceAddress ⟨h.name, 0, 0⟩
  | v => v

/-- Values without the epochs of the handles in them. -/
def byNameEach : List EngineValue → List EngineValue
  | [] => []
  | v :: rest => byName v :: byNameEach rest

end

end EngineValue

/-! ### Words -/

section

variable {name : String} {c : Char} {cs : List Char}

theorem notMem_of_isTail (h : Text.SafeSymbol.isTail c = true) : c ∉ [' ', '(', ')', '"'] := by
  intro hc
  have hdelimiters : ∀ d ∈ [' ', '(', ')', '"'], d ∈ Text.SafeSymbol.delimiters := by
    simp [Text.SafeSymbol.delimiters]
  rw [Text.SafeSymbol.not_isTail_of_mem_delimiters c (hdelimiters c hc)] at h
  cases h

theorem notMem_of_accepts (h : Text.SafeSymbol.accepts name = true) :
    ∀ c ∈ name.toList, c ∉ [' ', '(', ')', '"'] := by
  intro c hc
  rcases Text.SafeSymbol.accepts_iff.mp h with hword | ⟨word, hword, htext⟩
  · exact notMem_of_isTail (hword.all c hc)
  · rw [htext] at hc
    rcases List.mem_append.mp hc with hc | hc
    · exact notMem_of_isTail (hword.all c hc)
    · rw [List.mem_singleton.mp hc]
      decide

theorem exists_head_of_accepts (h : Text.SafeSymbol.accepts name = true) :
    ∃ c rest, name.toList = c :: rest ∧ Text.SafeSymbol.isHead c = true := by
  unfold Text.SafeSymbol.accepts at h
  rcases hname : name.toList with _ | ⟨c, rest⟩
  · rw [hname] at h
    cases h
  · rw [hname] at h
    exact ⟨c, rest, rfl, (Bool.and_eq_true_iff.mp h).1⟩

theorem isWord_of_accepts (h : Text.SafeSymbol.accepts name = true) : Form.IsWord name.toList := by
  obtain ⟨c, rest, hname, -⟩ := exists_head_of_accepts h
  exact ⟨by simp [hname], notMem_of_accepts h⟩

theorem proper_symbolForm (name : String) : (symbolForm name).Proper := by
  unfold symbolForm
  split_ifs with h
  · exact isWord_of_accepts h
  · exact ⟨⟨by simp, by simp⟩, trivial, trivial⟩

theorem proper_instanceNameForm (name : String) : (instanceNameForm name).Proper := by
  unfold instanceNameForm
  split_ifs with h
  · refine ⟨by simp, List.forall_mem_cons.mpr ⟨by simp, List.forall_mem_append.mpr ⟨?_, by simp⟩⟩⟩
    exact notMem_of_accepts h
  · exact ⟨⟨by simp, by simp⟩, ⟨⟨by simp, by simp⟩, trivial, trivial⟩, trivial⟩

theorem read?_symbolForm (name : String) : (symbolForm name).read? = some (.symbol name) := by
  unfold symbolForm
  split_ifs with h
  · obtain ⟨c, rest, hname, hhead⟩ := exists_head_of_accepts h
    have hbracket : c ≠ '[' := by
      rintro rfl
      exact absurd hhead (by decide)
    rw [Form.read?, hname, readWord?, if_neg hbracket, if_pos hhead, ← hname, String.ofList_toList]
  · simp [Form.read?, Form.readEach?, makeValue?]

theorem read?_instanceNameForm (name : String) :
    (instanceNameForm name).read? = some (.instanceName name) := by
  unfold instanceNameForm
  split_ifs with h
  · simp [Form.read?, readWord?]
  · simp [Form.read?, Form.readEach?, makeValue?]

theorem not_isHead_of_isDigit (h : c.isDigit = true) : Text.SafeSymbol.isHead c = false := by
  have hdigit := Char.isDigit_iff_toNat.mp h
  by_contra hhead
  have hletter : c.isAlpha = (decide (c.val ≥ 'A'.val ∧ c.val ≤ 'Z'.val) ||
    decide (c.val ≥ 'a'.val) && decide (c.val ≤ 'z'.val)) := rfl
  simp only [Text.SafeSymbol.isHead, hletter, Bool.not_eq_false, Bool.or_eq_true, Bool.and_eq_true,
    decide_eq_true_eq, UInt32.le_iff_toNat_le, ge_iff_le] at hhead
  rcases hhead with hhead | rfl
  · have htoNat : c.toNat = c.val.toNat := rfl
    have hupper : 'A'.val.toNat = 65 := rfl
    have hlower : 'a'.val.toNat = 97 := rfl
    have hnine : '9'.toNat = 57 := rfl
    omega
  · exact absurd h (by decide)

/-- What starts with a digit or a minus sign is read as a number. -/
theorem readWord?_of_number (hc : c.isDigit = true ∨ c = '-') (rest : List Char) :
    readWord? (c :: rest) =
      if '.' ∈ c :: rest ∨ 'e' ∈ c :: rest then
        (Binary64.ofText? (String.ofList (c :: rest))).map .float
      else
        let n : Int :=
          if c = '-' then -(Nat.ofDigitChars 10 rest 0 : Nat) else Nat.ofDigitChars 10 (c :: rest) 0
        if h : FitsEngine n then some (.integer n h) else none := by
  have hbracket : c ≠ '[' := by
    rintro rfl
    exact absurd hc (by decide)
  have hhead : Text.SafeSymbol.isHead c = false := by
    rcases hc with hc | rfl
    · exact not_isHead_of_isDigit hc
    · decide
  rw [readWord?, if_neg hbracket, if_neg (by rw [hhead]; decide)]

/-- An integer is written with digits, behind a minus sign if it is negative. -/
theorem toList_toString (n : Int) :
    (toString n).toList =
      if n < 0 then '-' :: Nat.toDigits 10 n.natAbs else Nat.toDigits 10 n.natAbs := by
  rw [Int.toString_eq_repr, Int.repr_eq_if]
  by_cases hn : n < 0
  · have hsize : (-n).toNat = n.natAbs := by omega
    rw [if_neg (not_le.mpr hn), if_pos hn, hsize]
    simp
  · have hsize : n.toNat = n.natAbs := by omega
    rw [if_pos (not_lt.mp hn), if_neg hn, hsize, Nat.repr_eq_ofList_toDigits, String.toList_ofList]

theorem notMem_of_isDigit (h : c.isDigit = true) : c ∉ [' ', '(', ')', '"', '.', 'e', '-'] := by
  intro hmem
  have hnone : ∀ d ∈ [' ', '(', ')', '"', '.', 'e', '-'], d.isDigit = false := by simp
  rw [hnone c hmem] at h
  cases h

/-- An integer is a word that starts as a number does, and has no point and no exponent. -/
theorem notMem_of_mem_toString (n : Int) :
    ∀ c ∈ (toString n).toList, c ∉ [' ', '(', ')', '"', '.', 'e'] := by
  have hdigits : ∀ c ∈ Nat.toDigits 10 n.natAbs, c ∉ [' ', '(', ')', '"', '.', 'e'] := by
    intro c hc hmem
    exact notMem_of_isDigit (Binary64.isDigit_of_mem_toDigits hc) (List.mem_append_left ['-'] hmem)
  intro c hc
  rw [toList_toString] at hc
  split_ifs at hc
  · rcases List.mem_cons.mp hc with rfl | hc
    · decide
    · exact hdigits c hc
  · exact hdigits c hc

theorem isWord_toString (n : Int) : Form.IsWord (toString n).toList := by
  refine ⟨?_, fun c hc hmem ↦ notMem_of_mem_toString n c hc (List.mem_append_left ['.', 'e'] hmem)⟩
  rw [toList_toString]
  split_ifs
  · exact List.cons_ne_nil _ _
  · exact Nat.toDigits_ne_nil

theorem readWord?_toString (n : Int) (fits : FitsEngine n) :
    readWord? (toString n).toList = some (.integer n fits) := by
  have hmarks : ¬ ('.' ∈ (toString n).toList ∨ 'e' ∈ (toString n).toList) := by
    rintro (hmem | hmem)
    · exact notMem_of_mem_toString n _ hmem (by decide)
    · exact notMem_of_mem_toString n _ hmem (by decide)
  rw [toList_toString] at hmarks ⊢
  by_cases hn : n < 0
  · rw [if_pos hn] at hmarks ⊢
    have hvalue : -(n.natAbs : Int) = n := by omega
    rw [readWord?_of_number (Or.inr rfl), if_neg hmarks]
    simp only [↓reduceIte, Nat.ofDigitChars_ten_toDigits, hvalue]
    exact dif_pos fits
  · rw [if_neg hn] at hmarks ⊢
    have hvalue : (n.natAbs : Int) = n := by omega
    obtain ⟨c, rest, hcs⟩ :=
      List.exists_cons_of_ne_nil (Nat.toDigits_ne_nil (b := 10) (n := n.natAbs))
    have hc : c.isDigit = true := Binary64.isDigit_of_mem_toDigits (hcs ▸ List.mem_cons_self)
    have hminus : c ≠ '-' := by
      rintro rfl
      exact absurd hc (by decide)
    rw [hcs] at hmarks ⊢
    rw [readWord?_of_number (Or.inl hc), if_neg hmarks, ← hcs]
    simp only [if_neg hminus, Nat.ofDigitChars_ten_toDigits, hvalue]
    exact dif_pos fits

theorem isWord_text {x : Binary64} (hx : x.isFinite = true) : Form.IsWord x.text.toList := by
  obtain ⟨cs, hcs, htext⟩ := Binary64.exists_isUnsigned_text hx
  obtain ⟨first, rest, rfl, -⟩ := hcs.head
  have hnumeral : ∀ d, Binary64.IsNumeral d → d ∉ [' ', '(', ')', '"'] := by
    intro d hd hmem
    have hnone : ∀ b ∈ [' ', '(', ')', '"'],
        ¬ (b.isDigit = true ∨ b ∈ ['-', '+', '.', 'e']) := by simp
    exact hnone d hmem hd
  rcases htext with htext | htext
  · rw [htext]
    exact ⟨by simp, fun d hd ↦ hnumeral d (hcs.all d hd)⟩
  · rw [htext]
    exact ⟨by simp, List.forall_mem_cons.mpr ⟨by simp, fun d hd ↦ hnumeral d (hcs.all d hd)⟩⟩

theorem readWord?_text {x : Binary64} (hx : x.isFinite = true) :
    readWord? x.text.toList = some (.float x) := by
  obtain ⟨cs, hcs, htext⟩ := Binary64.exists_isUnsigned_text hx
  obtain ⟨first, rest, rfl, hfirst⟩ := hcs.head
  have hmarks : '.' ∈ x.text.toList ∨ 'e' ∈ x.text.toList := by
    rcases htext with htext | htext
    · rw [htext]
      exact hcs.marked
    · rw [htext]
      exact hcs.marked.imp (List.mem_cons_of_mem _) (List.mem_cons_of_mem _)
  have hstart : ∃ c others, x.text.toList = c :: others ∧ (c.isDigit = true ∨ c = '-') := by
    rcases htext with htext | htext
    · exact ⟨first, rest, htext, Or.inl hfirst⟩
    · exact ⟨'-', first :: rest, htext, Or.inr rfl⟩
  obtain ⟨c, others, hothers, hc⟩ := hstart
  rw [hothers] at hmarks ⊢
  rw [readWord?_of_number hc, if_pos hmarks, ← hothers, String.ofList_toList,
    Binary64.ofText?_text hx]
  rfl

end

/-! ### Values and texts -/

namespace EngineValue

variable {v w : EngineValue} {text : String}

theorem formEach?_spec {items : List EngineValue} {fs : List Form}
    (hitems : ∀ v ∈ items, ∀ f, v.form? = some f → f.Proper ∧ f.read? = some v.byName)
    (h : formEach? items = some fs) :
    Form.ProperEach fs ∧ Form.readEach? fs = some (byNameEach items) := by
  induction items generalizing fs with
  | nil =>
    rw [← Option.some.inj h]
    exact ⟨trivial, rfl⟩
  | cons v rest ih =>
    obtain ⟨hv, hrest⟩ := List.forall_mem_cons.mp hitems
    rw [formEach?] at h
    obtain ⟨f, hf, hmap⟩ := Option.bind_eq_some_iff.mp h
    obtain ⟨gs, hgs, rfl⟩ := Option.map_eq_some_iff.mp hmap
    obtain ⟨hproper, hread⟩ := hv f hf
    obtain ⟨hpropers, hreads⟩ := ih hrest hgs
    exact ⟨⟨hproper, hpropers⟩, by rw [Form.readEach?, hread, hreads]; rfl⟩

/-- The form of a value is proper, and stands for the value up to the handles of its addresses. -/
theorem read?_of_form? {f : Form} (h : v.form? = some f) : f.Proper ∧ f.read? = some v.byName := by
  induction v using of_items generalizing f with
  | multifield items ih =>
    rw [form?] at h
    obtain ⟨fs, hfs, rfl⟩ := Option.map_eq_some_iff.mp h
    obtain ⟨hpropers, hreads⟩ := formEach?_spec (fun v hv f ↦ ih v hv) hfs
    refine ⟨⟨⟨by simp, by simp⟩, hpropers⟩, ?_⟩
    rw [Form.read?, hreads, Option.bind_some]
    unfold makeValue?
    exact if_pos rfl
  | single v hv =>
    cases v with
    | multifield items => exact absurd rfl (hv items)
    | float x =>
      rw [form?] at h
      split_ifs at h with hx
      rw [← Option.some.inj h]
      exact ⟨isWord_text hx, readWord?_text hx⟩
    | integer n fits =>
      rw [← Option.some.inj h]
      exact ⟨isWord_toString n, readWord?_toString n fits⟩
    | string s =>
      rw [← Option.some.inj h]
      exact ⟨trivial, by rw [Form.read?, String.ofList_toList]; rfl⟩
    | symbol name =>
      rw [← Option.some.inj h]
      exact ⟨proper_symbolForm name, read?_symbolForm name⟩
    | instanceName name =>
      rw [← Option.some.inj h]
      exact ⟨proper_instanceNameForm name, read?_instanceNameForm name⟩
    | instanceAddress handle =>
      rw [← Option.some.inj h]
      refine ⟨⟨⟨by simp, by simp⟩, proper_instanceNameForm handle.name, trivial⟩, ?_⟩
      simp [Form.read?, Form.readEach?, read?_instanceNameForm, makeValue?]
      rfl
    | _ => simp [form?] at h

theorem sameEach_byNameEach {items : List EngineValue}
    (hitems : ∀ v ∈ items, ∀ text, v.render = .ok text → v.byName.same v.byName = true)
    (h : ∃ texts, renderEach items = .ok texts) :
    sameEach (byNameEach items) (byNameEach items) = true := by
  induction items with
  | nil => rfl
  | cons v rest ih =>
    obtain ⟨hv, hrest⟩ := List.forall_mem_cons.mp hitems
    obtain ⟨⟨text, htext⟩, hothers⟩ := List.forall_mem_cons.mp (exists_renderEach_iff.mp h)
    rw [byNameEach, sameEach, hv text htext, ih hrest (exists_renderEach_iff.mpr hothers)]
    rfl

/-- A value with a text equals itself: no float in it is not a number. -/
theorem same_byName (h : v.render = .ok text) : v.byName.same v.byName = true := by
  induction v using of_items generalizing text with
  | multifield items ih =>
    rw [render] at h
    obtain ⟨texts, htexts, -⟩ := Except.ok_of_bind h
    exact sameEach_byNameEach (fun v hv text ↦ ih v hv) ⟨texts, htexts⟩
  | single v hv =>
    cases v with
    | multifield items => exact absurd rfl (hv items)
    | float x =>
      match x with
      | .finite negative biased fraction => simp [byName, same, Binary64.numericEq]
      | .nan => simp [render, Binary64.isFinite] at h
      | .infinite negative => simp [render, Binary64.isFinite] at h
    | factAddress handle => simp [render] at h
    | externalAddress label => simp [render] at h
    | bare => simp [render] at h
    | instanceAddress handle => simp [byName, same, InstanceHandle.same]
    | _ => simp [byName, same]

/-- Values with one text are one value, up to the handles of the addresses in them. -/
theorem byName_eq_of_render (hv : v.render = .ok text) (hw : w.render = .ok text) :
    v.byName = w.byName := by
  obtain ⟨f, hf, hfspell⟩ := exists_form?_of_render hv
  obtain ⟨g, hg, hgspell⟩ := exists_form?_of_render hw
  obtain ⟨hfproper, hfread⟩ := read?_of_form? hf
  obtain ⟨hgproper, hgread⟩ := read?_of_form? hg
  have hforms : f = g := Form.eq_of_spell hfproper hgproper (hfspell.symm.trans hgspell)
  rw [hforms, hgread] at hfread
  exact (Option.some.inj hfread).symm

end EngineValue

/-- A value has a text exactly if it holds, at no depth, a float that is not finite, an address of a
fact or of foreign data, or the bare value. Its text is one closed expression, and it is the text of
no other value, up to the handles of the addresses of instances. -/
theorem render_closed_injective :
    (∀ v : EngineValue, (∃ text, v.render = .ok text) ↔ ∀ u, v.Contains u → ¬ u.IsUnwritable) ∧
    (∀ (v : EngineValue) (text : String), v.render = .ok text → Closed text.toList) ∧
    (∀ (v w : EngineValue) (text : String), v.render = .ok text → w.render = .ok text →
      v.byName = w.byName ∧ v.byName.same w.byName = true) := by
  refine ⟨EngineValue.exists_render_iff, ?_, ?_⟩
  · intro v text hv
    obtain ⟨f, hf, hspell⟩ := EngineValue.exists_form?_of_render hv
    rw [hspell]
    exact Form.closed (EngineValue.read?_of_form? hf).1
  · intro v w text hv hw
    have heq := EngineValue.byName_eq_of_render hv hw
    exact ⟨heq, heq ▸ EngineValue.same_byName hv⟩

/-- A row of a text with marks in it, a symbol that is no word, a float and an address: its text is
closed, and with a handle of another epoch it has the same text. -/
theorem render_closed_injective_row :
    ∃ (row : InstanceHandle → EngineValue) (text : String),
      (row ⟨"p", 1, 4⟩).render = .ok text ∧ (row ⟨"p", 2, 7⟩).render = .ok text ∧
        row ⟨"p", 1, 4⟩ ≠ row ⟨"p", 2, 7⟩ ∧ Closed text.toList ∧
          (row ⟨"p", 1, 4⟩).byName = (row ⟨"p", 2, 7⟩).byName := by
  let row (handle : InstanceHandle) : EngineValue :=
    .multifield [.string "a \"b\" \\ (c", .symbol "two words",
      .float (.finite false 1023 2251799813685248), .instanceAddress handle]
  have hv : (row ⟨"p", 1, 4⟩).render = .ok
      "(create$ \"a \\\"b\\\" \\\\ (c\" (sym-cat \"two words\") 1.5 (instance-address [p]))" := rfl
  have hw : (row ⟨"p", 2, 7⟩).render = .ok
      "(create$ \"a \\\"b\\\" \\\\ (c\" (sym-cat \"two words\") 1.5 (instance-address [p]))" := rfl
  refine ⟨row, _, hv, hw, ?_, render_closed_injective.2.1 _ _ hv,
    (render_closed_injective.2.2 _ _ _ hv hw).1⟩
  simp [row]

end RuleMarshal
