import RuleMarshal.Text.EngineString
import Mathlib.Data.List.TakeWhile
/-!
The forms of engine text: words, string literals, and calls of a function with forms for arguments.
A form whose words have no blank, parenthesis or quote in them (`Form.Proper`) can be told from its
text, also where more text follows (`Form.eq_of_spell_append`): a word ends in front of a blank or a
closing parenthesis, a literal ends at the first quote that no backslash stands in front of, and a
call where its parenthesis is closed. A scanner that knows about quotes and backslashes finds such a
text closed (`Form.closed`).
-/

set_option autoImplicit false
set_option relaxedAutoImplicit false

namespace RuleMarshal

/-- An expression of the engine's language. -/
inductive Form where
  | word (cs : List Char)
  | literal (cs : List Char)
  | call (function : List Char) (args : List Form)

namespace Form

mutual

/-- The text of a form. -/
def spell : Form → List Char
  | .word cs => cs
  | .literal cs => '"' :: (Text.EngineString.escape cs ++ ['"'])
  | .call function args => '(' :: (function ++ (spellEach args ++ [')']))

/-- The texts of forms in a row, a blank in front of each. -/
def spellEach : List Form → List Char
  | [] => []
  | f :: rest => ' ' :: (spell f ++ spellEach rest)

end

/-- Whether characters make a word: there are some, and none of them is a blank, a parenthesis or a
quote. -/
structure IsWord (cs : List Char) : Prop where
  ne_nil : cs ≠ []
  all : ∀ c ∈ cs, c ∉ [' ', '(', ')', '"']

mutual

/-- Whether the words of a form are words. -/
def Proper : Form → Prop
  | .word cs => IsWord cs
  | .literal _ => True
  | .call function args => IsWord function ∧ ProperEach args

/-- Whether the words of each of the forms are words. -/
def ProperEach : List Form → Prop
  | [] => True
  | f :: rest => Proper f ∧ ProperEach rest

end

/-! ### A form from its text -/

section

variable {cs ds r s : List Char}

/-- Whether a text is at its end, at a blank or at a closing parenthesis. -/
def Stops (r : List Char) : Prop := ∀ c ∈ r.head?, c = ' ' ∨ c = ')'

theorem stops_cons_blank (r : List Char) : Stops (' ' :: r) := by simp [Stops]

theorem stops_cons_close (r : List Char) : Stops (')' :: r) := by simp [Stops]

theorem stops_spellEach (args : List Form) (r : List Char) :
    Stops (spellEach args ++ ')' :: r) := by
  rcases args with _ | ⟨f, rest⟩
  · exact stops_cons_close r
  · exact stops_cons_blank _

/-- A word ends where a text stops. -/
theorem takeWhile_append_of_stops (hcs : IsWord cs) (hr : Stops r) :
    (cs ++ r).takeWhile (fun c ↦ c ∉ [' ', '(', ')', '"']) = cs := by
  rw [List.takeWhile_append_of_pos fun c hc ↦ decide_eq_true (hcs.all c hc)]
  rcases r with _ | ⟨c, r⟩
  · simp
  · rcases hr c rfl with rfl | rfl <;> simp

theorem IsWord.eq_of_append (hcs : IsWord cs) (hds : IsWord ds) (hr : Stops r) (hs : Stops s)
    (h : cs ++ r = ds ++ s) : cs = ds ∧ r = s := by
  have heq : cs = ds := by
    rw [← takeWhile_append_of_stops hcs hr, h, takeWhile_append_of_stops hds hs]
  subst heq
  exact ⟨rfl, List.append_cancel_left h⟩

/-- The content of a literal behind its first quote, and what follows it. -/
def readLiteral? : List Char → Option (List Char × List Char)
  | [] => none
  | '"' :: rest => some ([], rest)
  | ['\\'] => none
  | '\\' :: c :: rest => (readLiteral? rest).map fun (cs, r) ↦ (c :: cs, r)
  | c :: rest => (readLiteral? rest).map fun (cs, r) ↦ (c :: cs, r)

theorem readLiteral?_escape_append (cs r : List Char) :
    readLiteral? (Text.EngineString.escape cs ++ '"' :: r) = some (cs, r) := by
  induction cs with
  | nil => rfl
  | cons c cs ih =>
    by_cases hc : c = '\\' ∨ c = '"'
    · simp [Text.EngineString.escape, if_pos hc, readLiteral?, ih]
    · obtain ⟨hbackslash, hquote⟩ := not_or.mp hc
      rw [Text.EngineString.escape, if_neg hc, List.cons_append, readLiteral?, ih]
      · rfl
      · exact hquote
      · exact fun h _ ↦ hbackslash h
      · exact fun _ _ h _ ↦ hbackslash h

/-- A literal ends at the first quote that no backslash stands in front of. -/
theorem eq_of_escape_append
    (h : Text.EngineString.escape cs ++ '"' :: r = Text.EngineString.escape ds ++ '"' :: s) :
    cs = ds ∧ r = s := by
  have hread := readLiteral?_escape_append cs r
  rw [h, readLiteral?_escape_append] at hread
  have hpair := Option.some.inj hread
  exact ⟨(Prod.mk.inj hpair).1.symm, (Prod.mk.inj hpair).2.symm⟩

theorem IsWord.head_ne (hcs : IsWord cs) {c : Char} (hc : c ∈ [' ', '(', ')', '"']) :
    cs ++ r ≠ c :: s := by
  obtain ⟨first, rest, rfl⟩ := List.exists_cons_of_ne_nil hcs.ne_nil
  intro h
  exact hcs.all first List.mem_cons_self ((List.cons_eq_cons.mp h).1 ▸ hc)

mutual

/-- A proper form and what follows it can be told from the text. -/
theorem eq_of_spell_append :
    ∀ {f g : Form} {r s : List Char}, f.Proper → g.Proper → Stops r → Stops s →
    f.spell ++ r = g.spell ++ s → f = g ∧ r = s
  | .word cs, .word ds, r, s, hf, hg, hr, hs, h => by
    obtain ⟨rfl, hrest⟩ := IsWord.eq_of_append hf hg hr hs h
    exact ⟨rfl, hrest⟩
  | .word cs, .literal ds, r, s, hf, hg, hr, hs, h => absurd h (IsWord.head_ne hf (by simp))
  | .word cs, .call function args, r, s, hf, hg, hr, hs, h => absurd h (IsWord.head_ne hf (by simp))
  | .literal cs, .word ds, r, s, hf, hg, hr, hs, h => absurd h.symm (IsWord.head_ne hg (by simp))
  | .literal cs, .literal ds, r, s, hf, hg, hr, hs, h => by
    simp only [spell, List.cons_append, List.append_assoc, List.nil_append,
      List.cons.injEq, true_and] at h
    obtain ⟨rfl, hrest⟩ := eq_of_escape_append h
    exact ⟨rfl, hrest⟩
  | .literal cs, .call function args, r, s, hf, hg, hr, hs, h => by simp [spell] at h
  | .call function args, .word ds, r, s, hf, hg, hr, hs, h =>
    absurd h.symm (IsWord.head_ne hg (by simp))
  | .call function args, .literal ds, r, s, hf, hg, hr, hs, h => by simp [spell] at h
  | .call function args, .call other brgs, r, s, hf, hg, hr, hs, h => by
    simp only [spell, List.cons_append, List.append_assoc, List.nil_append,
      List.cons.injEq, true_and] at h
    obtain ⟨rfl, hargs⟩ := IsWord.eq_of_append hf.1 hg.1 (stops_spellEach args r)
      (stops_spellEach brgs s) h
    obtain ⟨rfl, hrest⟩ := eq_of_spellEach_append hf.2 hg.2 hargs
    exact ⟨rfl, hrest⟩

/-- Proper forms in a row, closed by a parenthesis, and what follows can be told from the text. -/
theorem eq_of_spellEach_append :
    ∀ {fs gs : List Form} {r s : List Char}, ProperEach fs → ProperEach gs →
    spellEach fs ++ ')' :: r = spellEach gs ++ ')' :: s → fs = gs ∧ r = s
  | [], [], r, s, hfs, hgs, h => ⟨rfl, (List.cons_eq_cons.mp h).2⟩
  | [], g :: gs, r, s, hfs, hgs, h => by simp [spellEach] at h
  | f :: fs, [], r, s, hfs, hgs, h => by simp [spellEach] at h
  | f :: fs, g :: gs, r, s, hfs, hgs, h => by
    simp only [spellEach, List.cons_append, List.append_assoc, List.cons.injEq, true_and] at h
    obtain ⟨rfl, hothers⟩ :=
      eq_of_spell_append hfs.1 hgs.1 (stops_spellEach fs r) (stops_spellEach gs s) h
    obtain ⟨rfl, hrest⟩ := eq_of_spellEach_append hfs.2 hgs.2 hothers
    exact ⟨rfl, hrest⟩

end

theorem eq_of_spell {f g : Form} (hf : f.Proper) (hg : g.Proper) (h : f.spell = g.spell) :
    f = g := by
  have happend : f.spell ++ [] = g.spell ++ [] := by rw [h]
  exact (eq_of_spell_append hf hg (by simp [Stops]) (by simp [Stops]) happend).1

end

end Form

/-! ### Scanning -/

/-- Where a scanner is: outside of literals, inside of one, or behind a backslash inside of one. -/
inductive ScanMode where
  | plain | quoted | escaped
  deriving DecidableEq, Repr

/-- What a scanner knows: where it is, and how many parentheses are open. -/
structure Scanner where
  mode : ScanMode
  depth : Int
  deriving DecidableEq, Repr

namespace Scanner

/-- What a scanner knows behind one more character. -/
def step (s : Scanner) (c : Char) : Scanner :=
  match s.mode with
  | .plain =>
    if c = '"' then { s with mode := .quoted }
    else if c = '(' then { s with depth := s.depth + 1 }
    else if c = ')' then { s with depth := s.depth - 1 }
    else s
  | .quoted =>
    if c = '\\' then { s with mode := .escaped }
    else if c = '"' then { s with mode := .plain }
    else s
  | .escaped => { s with mode := .quoted }

/-- What a scanner knows behind a text. -/
def scan (s : Scanner) (cs : List Char) : Scanner := cs.foldl step s

/-- What a scanner knows at the front of a text. -/
def start : Scanner := ⟨.plain, 0⟩

@[simp] theorem scan_nil (s : Scanner) : s.scan [] = s := rfl

@[simp] theorem scan_cons (s : Scanner) (c : Char) (cs : List Char) :
    s.scan (c :: cs) = (s.step c).scan cs :=
  rfl

theorem scan_append (s : Scanner) (cs ds : List Char) : s.scan (cs ++ ds) = (s.scan cs).scan ds :=
  List.foldl_append

end Scanner

/-- Whether a text is one closed expression: behind it no literal and no parenthesis is open,
nowhere are there more parentheses closed than opened, and if it starts with a parenthesis, it ends
where that is closed. -/
structure Closed (cs : List Char) : Prop where
  ends : Scanner.start.scan cs = Scanner.start
  never_negative : ∀ front, front <+: cs → 0 ≤ (Scanner.start.scan front).depth
  ends_at_close : cs.head? = some '(' → ∀ front, front <+: cs → front ≠ [] →
    (Scanner.start.scan front).depth = 0 → front = cs

namespace Scanner

variable {s : Scanner} {depth : Int} {cs ds front : List Char} {c : Char}

/-- Whether a scanner is nowhere in a text below a depth. -/
def Above (depth : Int) (s : Scanner) (cs : List Char) : Prop :=
  ∀ front, front <+: cs → depth ≤ (s.scan front).depth

theorem above_nil_iff : Above depth s [] ↔ depth ≤ s.depth := by simp [Above]

theorem above_cons_iff : Above depth s (c :: cs) ↔ depth ≤ s.depth ∧ Above depth (s.step c) cs := by
  constructor
  · intro h
    exact ⟨h [] List.nil_prefix, fun front hfront ↦
      h (c :: front) (List.cons_prefix_cons.mpr ⟨rfl, hfront⟩)⟩
  · rintro ⟨hhere, hrest⟩ front hfront
    rcases List.prefix_cons_iff.mp hfront with rfl | ⟨more, rfl, hmore⟩
    · exact hhere
    · exact hrest more hmore

theorem above_append_iff :
    Above depth s (cs ++ ds) ↔ Above depth s cs ∧ Above depth (s.scan cs) ds := by
  induction cs generalizing s with
  | nil =>
    rw [List.nil_append, scan_nil, above_nil_iff]
    exact ⟨fun h ↦ ⟨h [] List.nil_prefix, h⟩, fun h ↦ h.2⟩
  | cons c cs ih => rw [List.cons_append, above_cons_iff, above_cons_iff, ih, scan_cons, and_assoc]

/-- Whether a text leaves a scanner outside of literals as it was, and never below its depth. -/
structure Level (depth : Int) (cs : List Char) : Prop where
  ends : scan ⟨.plain, depth⟩ cs = ⟨.plain, depth⟩
  above : Above depth ⟨.plain, depth⟩ cs

theorem Level.nil (depth : Int) : Level depth [] := ⟨rfl, above_nil_iff.mpr (Int.le_refl _)⟩

theorem Level.append (hcs : Level depth cs) (hds : Level depth ds) : Level depth (cs ++ ds) where
  ends := by rw [scan_append, hcs.ends, hds.ends]
  above := above_append_iff.mpr ⟨hcs.above, by rw [hcs.ends]; exact hds.above⟩

theorem step_plain (depth : Int) (h : c ∉ ['(', ')', '"']) :
    step ⟨.plain, depth⟩ c = ⟨.plain, depth⟩ := by
  simp only [List.mem_cons, List.not_mem_nil, or_false, not_or] at h
  simp [step, h]

/-- What has no quotes and no parentheses leaves a scanner as it was. -/
theorem level_of_plain (hcs : ∀ c ∈ cs, c ∉ ['(', ')', '"']) : Level depth cs := by
  induction cs with
  | nil => exact Level.nil depth
  | cons c cs ih =>
    obtain ⟨hc, hcs⟩ := List.forall_mem_cons.mp hcs
    have hrest := ih hcs
    have hstep := step_plain depth hc
    constructor
    · rw [scan_cons, hstep, hrest.ends]
    · rw [above_cons_iff, hstep]
      exact ⟨Int.le_refl _, hrest.above⟩

/-- The inside of a literal leaves a scanner inside of it. -/
theorem scan_escape (depth : Int) (cs : List Char) :
    scan ⟨.quoted, depth⟩ (Text.EngineString.escape cs) = ⟨.quoted, depth⟩ ∧
      Above depth ⟨.quoted, depth⟩ (Text.EngineString.escape cs) := by
  induction cs with
  | nil => exact ⟨rfl, above_nil_iff.mpr (Int.le_refl _)⟩
  | cons c cs ih =>
    obtain ⟨hends, habove⟩ := ih
    by_cases hc : c = '\\' ∨ c = '"'
    · have hfirst : step ⟨.quoted, depth⟩ '\\' = ⟨.escaped, depth⟩ := rfl
      have hsecond : step ⟨.escaped, depth⟩ c = ⟨.quoted, depth⟩ := rfl
      rw [Text.EngineString.escape, if_pos hc, scan_cons, scan_cons, above_cons_iff,
        above_cons_iff, hfirst, hsecond]
      exact ⟨hends, Int.le_refl _, Int.le_refl _, habove⟩
    · have hstep : step ⟨.quoted, depth⟩ c = ⟨.quoted, depth⟩ := by
        obtain ⟨hbackslash, hquote⟩ := not_or.mp hc
        simp [step, hbackslash, hquote]
      rw [Text.EngineString.escape, if_neg hc, scan_cons, above_cons_iff, hstep]
      exact ⟨hends, Int.le_refl _, habove⟩

theorem level_literal (depth : Int) (cs : List Char) :
    Level depth ('"' :: (Text.EngineString.escape cs ++ ['"'])) := by
  obtain ⟨hends, habove⟩ := scan_escape depth cs
  have hopen : step ⟨.plain, depth⟩ '"' = ⟨.quoted, depth⟩ := rfl
  have hclose : step ⟨.quoted, depth⟩ '"' = ⟨.plain, depth⟩ := rfl
  constructor
  · rw [scan_cons, hopen, scan_append, hends, scan_cons, hclose, scan_nil]
  · rw [above_cons_iff, hopen, above_append_iff, hends, above_cons_iff, hclose, above_nil_iff]
    exact ⟨Int.le_refl _, habove, Int.le_refl _, Int.le_refl _⟩

/-- Parentheses around what is level one deeper. -/
theorem Level.parenthesize (hcs : Level (depth + 1) cs) : Level depth ('(' :: (cs ++ [')'])) := by
  have hopen : step ⟨.plain, depth⟩ '(' = ⟨.plain, depth + 1⟩ := rfl
  have hclose : step ⟨.plain, depth + 1⟩ ')' = ⟨.plain, depth⟩ := by simp [step]
  constructor
  · rw [scan_cons, hopen, scan_append, hcs.ends, scan_cons, hclose, scan_nil]
  · have hdeep : depth ≤ depth + 1 := by omega
    rw [above_cons_iff, hopen, above_append_iff, hcs.ends, above_cons_iff, hclose, above_nil_iff]
    exact ⟨Int.le_refl _, fun front hfront ↦ Int.le_trans hdeep (hcs.above front hfront),
      hdeep, Int.le_refl _⟩

/-- A text in parentheses is back at its depth at its end only. -/
theorem eq_of_parenthesized (hcs : Level (depth + 1) cs) (hfront : front <+: '(' :: (cs ++ [')']))
    (hne : front ≠ []) (hdepth : (scan ⟨.plain, depth⟩ front).depth = depth) :
    front = '(' :: (cs ++ [')']) := by
  rcases List.prefix_cons_iff.mp hfront with rfl | ⟨inner, rfl, hinner⟩
  · exact absurd rfl hne
  rcases List.prefix_concat_iff.mp hinner with rfl | hinner
  · rfl
  · have habove := hcs.above inner hinner
    have hopen : step ⟨.plain, depth⟩ '(' = ⟨.plain, depth + 1⟩ := rfl
    rw [scan_cons, hopen] at hdepth
    omega

end Scanner

namespace Form

theorem IsWord.level {cs : List Char} (hcs : IsWord cs) (depth : Int) : Scanner.Level depth cs :=
  Scanner.level_of_plain fun c hc h ↦ hcs.all c hc (List.mem_cons_of_mem _ h)

mutual

theorem level_spell : ∀ {f : Form} (depth : Int), f.Proper → Scanner.Level depth f.spell
  | .word cs, depth, hf => IsWord.level hf depth
  | .literal cs, depth, hf => Scanner.level_literal depth cs
  | .call function args, depth, hf => by
    rw [spell, ← List.append_assoc]
    exact ((hf.1.level (depth + 1)).append (level_spellEach (depth + 1) hf.2)).parenthesize

theorem level_spellEach :
    ∀ {fs : List Form} (depth : Int), ProperEach fs → Scanner.Level depth (spellEach fs)
  | [], depth, hfs => Scanner.Level.nil depth
  | f :: fs, depth, hfs => by
    have hblank : Scanner.Level depth [' '] := Scanner.level_of_plain (by simp)
    exact hblank.append ((level_spell depth hfs.1).append (level_spellEach depth hfs.2))

end

/-- The text of a proper form is one closed expression. -/
theorem closed {f : Form} (hf : f.Proper) : Closed f.spell where
  ends := (level_spell 0 hf).ends
  never_negative := (level_spell 0 hf).above
  ends_at_close := by
    intro hhead front hfront hne hdepth
    match f with
    | .word cs =>
      obtain ⟨first, rest, rfl⟩ := List.exists_cons_of_ne_nil hf.ne_nil
      obtain rfl := Option.some.inj hhead
      exact absurd (by simp) (hf.all '(' List.mem_cons_self)
    | .literal cs => cases hhead
    | .call function args =>
      rw [spell, ← List.append_assoc] at hfront ⊢
      exact Scanner.eq_of_parenthesized ((hf.1.level 1).append (level_spellEach 1 hf.2))
        hfront hne hdepth

end Form

end RuleMarshal
