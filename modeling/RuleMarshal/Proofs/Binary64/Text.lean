import RuleMarshal.Binary64.Text
import RuleMarshal.Proofs.Binary64.Rounding
import Mathlib.Data.List.TakeWhile
/-!
The decimal text of a finite number reads back to the number (`ofText?_text`), so that different
numbers have different texts. The digits that are found stand for the number (`ofDecimal_shortest`),
and every notation of digits and a power of ten is read as these (`Spelling.readUnsigned?`). A text
starts with a digit or a minus sign, has a point or an exponent, and holds no other characters than
these need (`exists_isUnsigned_text`).
-/

set_option autoImplicit false
set_option relaxedAutoImplicit false

namespace RuleMarshal.Binary64

/-! ### The digits of a number -/

section

variable {x : Binary64} {negative : Bool} {num den digits steps : Nat} {power last : Int}

theorem ofDecimal_of_onGrid? (h : onGrid? x negative num den power = some digits) :
    ofDecimal negative digits power = x := by
  unfold onGrid? at h
  generalize inUnits num den power = units at h
  obtain ⟨low, rest, unit⟩ := units
  simp only [Bool.and_eq_true, decide_eq_true_eq] at h
  split_ifs at h with hboth hnear hlow hhigh
  · exact Option.some.inj h ▸ hboth.2
  · exact Option.some.inj h ▸ hboth.1
  · exact Option.some.inj h ▸ hlow
  · exact Option.some.inj h ▸ hhigh

theorem ofDecimal_of_search (h : search x negative num den steps power = some (digits, last)) :
    ofDecimal negative digits last = x := by
  induction steps generalizing power with
  | zero => cases h
  | succ steps ih =>
    unfold search at h
    split at h
    · rename_i found hfound
      cases h
      exact ofDecimal_of_onGrid? hfound
    · exact ih h

/-- The digits of a finite number stand for it: those that a search finds by the test that each must
pass, those of the exact expansion because the number is a ratio with a power of two below. -/
theorem ofDecimal_shortest (negative : Bool) (biased : Fin 2047) (fraction : Fin 4503599627370496) :
    ofDecimal negative (shortest negative biased fraction).1 (shortest negative biased fraction).2 =
      .finite negative biased fraction := by
  unfold shortest
  by_cases hs : significand biased fraction = 0
  · obtain ⟨rfl, rfl⟩ := eq_zero_of_significand hs
    rw [if_pos hs, ofDecimal_zero]
    rfl
  rw [if_neg hs]
  dsimp only
  match hfound : search (.finite negative biased fraction) negative (ratio biased fraction).1
      (ratio biased fraction).2 17
        (leadingPower (ratio biased fraction).1 (ratio biased fraction).2) with
  | some (digits, last) => exact ofDecimal_of_search hfound
  | none =>
    obtain ⟨k, hk⟩ := exists_ratio_den_eq biased fraction
    rw [← ofRatio_ratio, Option.getD_none]
    refine ofDecimal_eq_ofRatio (ratio_den_pos biased fraction) ?_
    have hten : (10 : ℚ) ^ k = 2 ^ k * 5 ^ k := by rw [← mul_pow]; norm_num
    rw [hk, Nat.log2_two_pow, zpow_neg, zpow_natCast, hten]
    simp only [Nat.pow_eq, Nat.cast_mul, Nat.cast_pow, Nat.cast_ofNat]
    field_simp

end

/-! ### Reading digits -/

section

variable {ds rest : List Char}

theorem takeDigits_append (value count : Nat) (hds : ∀ c ∈ ds, c.isDigit = true)
    (hrest : ∀ c ∈ rest.head?, c.isDigit = false) :
    takeDigits (ds ++ rest) value count =
      (Nat.ofDigitChars 10 ds value, count + ds.length, rest) := by
  induction ds generalizing value count with
  | nil =>
    rcases rest with _ | ⟨c, rest⟩
    · rfl
    · simp [takeDigits, hrest c rfl]
  | cons c ds ih =>
    obtain ⟨hc, hds⟩ := List.forall_mem_cons.mp hds
    rw [List.cons_append, takeDigits, if_pos hc, ih _ _ hds, Nat.ofDigitChars_cons,
      Nat.mul_comm value 10, List.length_cons, Nat.add_right_comm, Nat.add_assoc]

theorem takeDigits_all (value count : Nat) (hds : ∀ c ∈ ds, c.isDigit = true) :
    takeDigits ds value count = (Nat.ofDigitChars 10 ds value, count + ds.length, []) := by
  have hread := takeDigits_append value count hds
    (by simp : ∀ c ∈ ([] : List Char).head?, c.isDigit = false)
  rwa [List.append_nil] at hread

theorem isDigit_of_mem_replicate_zero {c : Char} {k : Nat} (hc : c ∈ List.replicate k '0') :
    c.isDigit = true := by
  rw [List.eq_of_mem_replicate hc]
  rfl

theorem isDigit_of_mem_toDigits {c : Char} {k : Nat} (hc : c ∈ Nat.toDigits 10 k) :
    c.isDigit = true :=
  Nat.isDigit_of_mem_toDigits (by norm_num) (by norm_num) hc

theorem readExponent?_exponentText (style : Layout) (e : Int) :
    readExponent? ('e' :: exponentText style e) = some e := by
  have hdigits : ∀ c ∈ List.replicate
      (style.exponentDigits - (Nat.toDigits 10 e.natAbs).length) '0' ++
      Nat.toDigits 10 e.natAbs, c.isDigit = true := by
    intro c hc
    rcases List.mem_append.mp hc with hc | hc
    · exact isDigit_of_mem_replicate_zero hc
    · exact isDigit_of_mem_toDigits hc
  have hread := takeDigits_all 0 0 hdigits
  have hlength : 0 < (Nat.toDigits 10 e.natAbs).length := Nat.length_toDigits_pos
  obtain ⟨more, hmore⟩ := Nat.exists_eq_succ_of_ne_zero hlength.ne'
  rw [Nat.ofDigitChars_append, Nat.ofDigitChars_replicate_zero, Nat.mul_zero,
    Nat.ofDigitChars_ten_toDigits, List.length_append, Nat.zero_add, hmore, Nat.succ_eq_add_one,
    ← Nat.add_assoc] at hread
  unfold exponentText
  by_cases hneg : e < 0
  · simp [readExponent?, hneg, hread, hmore, abs_of_neg hneg]
  · simp [readExponent?, hneg, hread, hmore, abs_of_nonneg (not_lt.mp hneg)]

/-! ### Notations -/

/-- Whether a character can stand in a number: a digit, a sign, a point or the mark of an
exponent. -/
def IsNumeral (c : Char) : Prop := c.isDigit = true ∨ c ∈ ['-', '+', '.', 'e']

theorem isNumeral_exponentText (style : Layout) (e : Int) :
    ∀ c ∈ exponentText style e, IsNumeral c := by
  intro c hc
  rcases List.mem_cons.mp hc with rfl | hc
  · by_cases hneg : e < 0 <;> simp [IsNumeral, hneg]
  · rcases List.mem_append.mp hc with hc | hc
    · exact Or.inl (isDigit_of_mem_replicate_zero hc)
    · exact Or.inl (isDigit_of_mem_toDigits hc)

/-- What stands behind the digits of a number: nothing, or an exponent. -/
inductive ExponentPart : List Char → Int → Prop
  | absent : ExponentPart [] 0
  | marked (style : Layout) (e : Int) : ExponentPart ('e' :: exponentText style e) e

/-- How digits, of which the last stands for a power of ten, are written: with a point and perhaps
an exponent, or as one digit with an exponent. -/
inductive Spelling : List Char → List Char → Int → Prop
  | point (whole places : List Char) {rest : List Char} {e : Int} (hne : whole ≠ [])
      (hwhole : ∀ c ∈ whole, c.isDigit = true) (hplaces : ∀ c ∈ places, c.isDigit = true)
      (hrest : ExponentPart rest e) :
      Spelling (whole ++ '.' :: (places ++ rest)) (whole ++ places) (e - places.length)
  | digit {c : Char} (hc : c.isDigit = true) (style : Layout) (e : Int) :
      Spelling (c :: 'e' :: exponentText style e) [c] e

/-- Whether characters start with a digit, have a point or an exponent, and are all of a number. -/
structure IsUnsigned (cs : List Char) : Prop where
  head : ∃ first rest, cs = first :: rest ∧ first.isDigit = true
  all : ∀ c ∈ cs, IsNumeral c
  marked : '.' ∈ cs ∨ 'e' ∈ cs

variable {c : Char} {cs : List Char} {e power : Int}

theorem ExponentPart.readExponent? (h : ExponentPart rest e) :
    Binary64.readExponent? rest = some e := by
  cases h with
  | absent => rfl
  | marked style e => exact readExponent?_exponentText style e

theorem ExponentPart.not_isDigit (h : ExponentPart rest e) :
    ∀ c ∈ rest.head?, c.isDigit = false := by
  intro c hc
  cases h with
  | absent => cases hc
  | marked style e =>
    obtain rfl : 'e' = c := Option.some.inj hc
    rfl

theorem ExponentPart.isNumeral (h : ExponentPart rest e) : ∀ c ∈ rest, IsNumeral c := by
  cases h with
  | absent => simp
  | marked style e =>
    exact List.forall_mem_cons.mpr ⟨Or.inr (by simp), isNumeral_exponentText style e⟩

theorem Spelling.isUnsigned (h : Spelling cs ds power) : IsUnsigned cs := by
  cases h with
  | @point whole places rest e hne hwhole hplaces hrest =>
    obtain ⟨first, others, rfl⟩ := List.exists_cons_of_ne_nil hne
    refine ⟨⟨first, _, rfl, hwhole first List.mem_cons_self⟩, ?_, Or.inl (by simp)⟩
    refine List.forall_mem_append.mpr ⟨fun c hc ↦ Or.inl (hwhole c hc), ?_⟩
    refine List.forall_mem_cons.mpr ⟨Or.inr (by simp), ?_⟩
    exact List.forall_mem_append.mpr ⟨fun c hc ↦ Or.inl (hplaces c hc), hrest.isNumeral⟩
  | @digit c hc style =>
    refine ⟨⟨c, _, rfl, hc⟩, ?_, Or.inr (by simp)⟩
    exact List.forall_mem_cons.mpr ⟨Or.inl hc, (ExponentPart.marked style power).isNumeral⟩

theorem ne_word_of_isDigit (hc : c.isDigit = true) (cs : List Char) :
    c :: cs ≠ ['i', 'n', 'f'] ∧ c :: cs ≠ ['n', 'a', 'n'] := by
  constructor
  · intro h
    obtain ⟨rfl, -⟩ := List.cons_eq_cons.mp h
    exact absurd hc (by decide)
  · intro h
    obtain ⟨rfl, -⟩ := List.cons_eq_cons.mp h
    exact absurd hc (by decide)

/-- What is written is read as the number nearest to it. -/
theorem Spelling.readUnsigned? (negative : Bool) (h : Spelling cs ds power) :
    Binary64.readUnsigned? negative cs =
      some (ofDecimal negative (Nat.ofDigitChars 10 ds 0) power) := by
  obtain ⟨first, others, hcs, hfirst⟩ := h.isUnsigned.head
  obtain ⟨hinf, hnan⟩ := ne_word_of_isDigit hfirst others
  rw [← hcs] at hinf hnan
  simp only [Binary64.readUnsigned?, if_neg hinf, if_neg hnan]
  cases h with
  | @point whole places rest e hne hwhole hplaces hrest =>
    have hstop : ∀ c ∈ ('.' :: (places ++ rest)).head?, c.isDigit = false := by
      intro c hc
      obtain rfl : '.' = c := Option.some.inj hc
      rfl
    simp only [takeDigits_append _ _ hwhole hstop, takeDigits_append _ _ hplaces hrest.not_isDigit,
      hrest.readExponent?, Nat.ofDigitChars_append]
    simp [hne]
  | @digit c hc style =>
    have htake := takeDigits_append 0 0 (by simpa using hc : ∀ d ∈ [c], d.isDigit = true)
      (ExponentPart.marked style power).not_isDigit
    rw [List.singleton_append] at htake
    simp only [htake]
    simp [(ExponentPart.marked style power).readExponent?]

/-- The text of digits and a power of ten spells the same digits and power, or others that stand for
the same. -/
theorem exists_spelling_layout (style : Layout) (hne : ds ≠ []) (hds : ∀ c ∈ ds, c.isDigit = true)
    (power : Int) :
    ∃ spelled last, Spelling (layout style ds power) spelled last ∧ ∀ negative,
      ofDecimal negative (Nat.ofDigitChars 10 spelled 0) last =
        ofDecimal negative (Nat.ofDigitChars 10 ds 0) power := by
  have hlength : 0 < ds.length := List.length_pos_iff.mpr hne
  unfold layout
  dsimp only
  split_ifs with hpositional hpower hleading
  · -- Zeros up to the point, and one behind it.
    obtain ⟨p, rfl⟩ := Int.eq_ofNat_of_zero_le hpower
    rw [Int.toNat_natCast]
    refine ⟨_, _, .point (ds ++ List.replicate p '0') ['0'] (by simp [hne])
      (List.forall_mem_append.mpr ⟨hds, fun c ↦ isDigit_of_mem_replicate_zero⟩)
      (by simp) .absent, ?_⟩
    intro negative
    have hvalue : Nat.ofDigitChars 10 (ds ++ List.replicate p '0' ++ ['0']) 0 =
        Nat.ofDigitChars 10 ds 0 * 10 ^ (p + 1) := by
      rw [List.append_assoc, ← List.replicate_succ', Nat.ofDigitChars_append,
        Nat.ofDigitChars_replicate_zero, Nat.mul_comm]
    rw [hvalue, ofDecimal_mul_pow]
    congr 1
    simp
  · -- Zeros behind the point.
    have hspelling :=
      Spelling.point ['0'] (List.replicate (-(power + ds.length - 1) - 1).toNat '0' ++ ds) (by simp)
      (by simp) (List.forall_mem_append.mpr ⟨fun c ↦ isDigit_of_mem_replicate_zero, hds⟩) .absent
    rw [List.append_nil] at hspelling
    refine ⟨_, _, hspelling, fun negative ↦ ?_⟩
    congr 1
    · rw [Nat.ofDigitChars_append, Nat.ofDigitChars_append, Nat.ofDigitChars_replicate_zero]
      simp [Nat.ofDigitChars_cons]
    · rw [List.length_append, List.length_replicate]
      omega
  · -- The point stands among the digits.
    have hspelling := Spelling.point (ds.take ((power + ds.length - 1).toNat + 1))
      (ds.drop ((power + ds.length - 1).toNat + 1)) (by simp [hne])
      (fun c hc ↦ hds c (List.mem_of_mem_take hc))
      (fun c hc ↦ hds c (List.mem_of_mem_drop hc)) .absent
    rw [List.append_nil] at hspelling
    refine ⟨_, _, hspelling, fun negative ↦ ?_⟩
    rw [List.take_append_drop, List.length_drop]
    congr 1
    omega
  · -- One digit in front of the point, and an exponent.
    obtain ⟨first, others, rfl⟩ := List.exists_cons_of_ne_nil hne
    obtain ⟨hfirst, hothers⟩ := List.forall_mem_cons.mp hds
    rcases others with _ | ⟨second, others⟩
    · refine ⟨_, _, .digit hfirst style _, fun negative ↦ ?_⟩
      congr 1
      simp
    · refine ⟨_, _, .point [first] (second :: others) (by simp) (by simpa using hfirst) hothers
        (.marked style _), ?_⟩
      intro negative
      congr 1
      simp
      omega

/-! ### Texts -/

/-- Digits are those that are kept and zeros, whose number goes to the power of ten. -/
theorem exists_zeros_of_trimZeros (ds : List Char) (power : Int) :
    ∃ zeros, ds = (trimZeros ds.reverse power).1 ++ List.replicate zeros '0' ∧
      (trimZeros ds.reverse power).2 = power + zeros := by
  unfold trimZeros
  dsimp only
  have hzeros : ds.reverse.takeWhile (· = '0') =
      List.replicate (ds.reverse.takeWhile (· = '0')).length '0' :=
    List.eq_replicate_length.mpr fun c hc ↦ by simpa using List.mem_takeWhile_imp hc
  have hsplit := List.takeWhile_append_dropWhile (p := fun c ↦ decide (c = '0')) (l := ds.reverse)
  generalize ds.reverse.takeWhile (· = '0') = trimmed at hzeros hsplit
  generalize ds.reverse.dropWhile (· = '0') = kept at hsplit ⊢
  refine ⟨trimmed.length, ?_, ?_⟩
  · rw [← List.reverse_reverse ds, ← hsplit, List.reverse_append]
    congr 1
    rw [hzeros]
    simp
  · have hlength := congrArg List.length hsplit
    rw [List.length_append] at hlength
    omega

/-- The text of a number but for its sign. -/
def body (negative : Bool) (biased : Fin 2047) (fraction : Fin 4503599627370496) : List Char :=
  let (digits, power) := shortest negative biased fraction
  if digits = 0 then ['0', '.', '0']
  else
    let (kept, last) := trimZeros (Nat.toDigits 10 digits).reverse power
    layout decimalLayout kept last

theorem toList_text (negative : Bool) (biased : Fin 2047) (fraction : Fin 4503599627370496) :
    (text (.finite negative biased fraction)).toList =
      if negative then '-' :: body negative biased fraction else body negative biased fraction := by
  simp [text, body]

theorem exists_spelling_body (negative : Bool) (biased : Fin 2047)
    (fraction : Fin 4503599627370496) :
    ∃ spelled last, Spelling (body negative biased fraction) spelled last ∧
      ofDecimal negative (Nat.ofDigitChars 10 spelled 0) last =
        .finite negative biased fraction := by
  have hshortest := ofDecimal_shortest negative biased fraction
  unfold body
  generalize shortest negative biased fraction = found at hshortest ⊢
  obtain ⟨digits, power⟩ := found
  dsimp only at hshortest ⊢
  by_cases hdigits : digits = 0
  · rw [hdigits, ofDecimal_zero] at hshortest
    rw [if_pos hdigits]
    refine ⟨_, _, .point ['0'] ['0'] (by simp) (by simp) (by simp) .absent, ?_⟩
    rw [← hshortest]
    exact ofDecimal_zero negative _
  rw [if_neg hdigits]
  obtain ⟨zeros, hds, hpower⟩ := exists_zeros_of_trimZeros (Nat.toDigits 10 digits) power
  have hvalue := congrArg (Nat.ofDigitChars 10 · 0) hds
  generalize trimZeros (Nat.toDigits 10 digits).reverse power = trimmed at hds hpower hvalue ⊢
  rw [Nat.ofDigitChars_ten_toDigits, Nat.ofDigitChars_append, Nat.ofDigitChars_replicate_zero,
    Nat.mul_comm] at hvalue
  have hne : trimmed.1 ≠ [] := by
    intro h
    rw [h, Nat.ofDigitChars_nil, Nat.zero_mul] at hvalue
    exact hdigits hvalue
  have hisDigit : ∀ c ∈ trimmed.1, c.isDigit = true := fun c hc ↦
    isDigit_of_mem_toDigits (hds ▸ List.mem_append_left _ hc)
  obtain ⟨spelled, last, hspelling, hsame⟩ :=
    exists_spelling_layout decimalLayout hne hisDigit trimmed.2
  refine ⟨spelled, last, hspelling, ?_⟩
  rw [hsame, hpower, ← ofDecimal_mul_pow, ← hvalue, hshortest]

/-- The text of a finite number: perhaps a minus sign, and then what starts with a digit and has a
point or an exponent. -/
theorem exists_isUnsigned_text {x : Binary64} (hx : x.isFinite = true) :
    ∃ cs, IsUnsigned cs ∧ (x.text.toList = cs ∨ x.text.toList = '-' :: cs) := by
  match x with
  | .finite negative biased fraction =>
    obtain ⟨spelled, last, hspelling, -⟩ := exists_spelling_body negative biased fraction
    refine ⟨_, hspelling.isUnsigned, ?_⟩
    rw [toList_text]
    cases negative with
    | false => exact Or.inl rfl
    | true => exact Or.inr rfl

/-- The text of a finite number reads back to the number. -/
theorem ofText?_text {x : Binary64} (hx : x.isFinite = true) : ofText? x.text = some x := by
  match x with
  | .finite negative biased fraction =>
    obtain ⟨spelled, last, hspelling, hvalue⟩ := exists_spelling_body negative biased fraction
    have hread := hspelling.readUnsigned? negative
    rw [hvalue] at hread
    unfold ofText?
    rw [toList_text]
    cases negative with
    | true => exact hread
    | false =>
      obtain ⟨first, others, hbody, hfirst⟩ := hspelling.isUnsigned.head
      rw [if_neg (by decide), hbody]
      rw [hbody] at hread
      split
      · rename_i rest heq
        obtain ⟨rfl, -⟩ := List.cons_eq_cons.mp heq
        exact absurd hfirst (by decide)
      · exact hread

/-- Different finite numbers have different texts. -/
theorem text_injective {x y : Binary64} (hx : x.isFinite = true) (hy : y.isFinite = true)
    (h : x.text = y.text) : x = y := by
  have hread := ofText?_text hx
  rw [h, ofText?_text hy] at hread
  exact (Option.some.inj hread).symm

end

end RuleMarshal.Binary64
