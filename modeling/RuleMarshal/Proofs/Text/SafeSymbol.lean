import RuleMarshal.Engine.Command
/-!
Names that go into engine text without quoting. A name that is accepted is a word of letters, digits
and marks, or such a word with one line feed behind it (`accepts_iff`). The engine ends a word at a
delimiter (`delimits`), of which a word has none, so that it reads back the word that was written
(`firstWord_append`) and, of a name with a line feed behind it, the name without the line feed
(`firstWord_of_accepts`).
-/

set_option autoImplicit false
set_option relaxedAutoImplicit false

namespace RuleMarshal.Text.SafeSymbol

variable {cs word rest : List Char} {c : Char} {text : String}

/-- Whether characters are a letter or an underscore and then letters, digits and marks. -/
structure IsWord (cs : List Char) : Prop where
  head : ∃ first ∈ cs.head?, isHead first = true
  all : ∀ c ∈ cs, isTail c = true

theorem isTail_of_isHead (h : isHead c = true) : isTail c = true := by
  simp only [isHead, Bool.or_eq_true, decide_eq_true_eq] at h
  rcases h with h | rfl
  · simp [isTail, Char.isAlphanum, h]
  · decide

theorem tail_iff : tail cs = true ↔
    (∀ c ∈ cs, isTail c = true) ∨ ∃ front, cs = front ++ ['\n'] ∧ ∀ c ∈ front, isTail c = true := by
  induction cs with
  | nil => simp [tail]
  | cons c rest ih =>
    simp only [tail, Bool.or_eq_true, Bool.and_eq_true, decide_eq_true_eq, List.isEmpty_iff, ih]
    constructor
    · rintro (⟨hc, hrest | ⟨front, rfl, hfront⟩⟩ | ⟨rfl, rfl⟩)
      · exact Or.inl (List.forall_mem_cons.mpr ⟨hc, hrest⟩)
      · exact Or.inr ⟨c :: front, rfl, List.forall_mem_cons.mpr ⟨hc, hfront⟩⟩
      · exact Or.inr ⟨[], rfl, by simp⟩
    · rintro (hall | ⟨front, hcs, hfront⟩)
      · obtain ⟨hc, hrest⟩ := List.forall_mem_cons.mp hall
        exact Or.inl ⟨hc, Or.inl hrest⟩
      · rcases front with _ | ⟨first, front⟩
        · obtain ⟨rfl, rfl⟩ := List.cons_eq_cons.mp hcs
          exact Or.inr ⟨rfl, rfl⟩
        · obtain ⟨rfl, rfl⟩ := List.cons_eq_cons.mp hcs
          obtain ⟨hc, hrest⟩ := List.forall_mem_cons.mp hfront
          exact Or.inl ⟨hc, Or.inr ⟨front, rfl, hrest⟩⟩

/-- What is accepted is a word, or a word with one line feed behind it. -/
theorem accepts_iff : accepts text = true ↔
    IsWord text.toList ∨ ∃ word, IsWord word ∧ text.toList = word ++ ['\n'] := by
  unfold accepts
  rcases text.toList with _ | ⟨first, rest⟩
  · constructor
    · intro h
      cases h
    · rintro (⟨⟨_, hfirst, _⟩, _⟩ | ⟨word, _, hword⟩)
      · cases hfirst
      · simp at hword
  · simp only [Bool.and_eq_true, tail_iff]
    constructor
    · rintro ⟨hfirst, hrest | ⟨front, rfl, hfront⟩⟩
      · exact Or.inl ⟨⟨first, rfl, hfirst⟩,
          List.forall_mem_cons.mpr ⟨isTail_of_isHead hfirst, hrest⟩⟩
      · refine Or.inr ⟨first :: front, ⟨⟨first, rfl, hfirst⟩, ?_⟩, rfl⟩
        exact List.forall_mem_cons.mpr ⟨isTail_of_isHead hfirst, hfront⟩
    · rintro (⟨⟨_, ⟨⟩, hfirst⟩, hall⟩ | ⟨word, ⟨⟨head, hhead, hfirst⟩, hall⟩, hword⟩)
      · exact ⟨hfirst, Or.inl (List.forall_mem_cons.mp hall).2⟩
      · rcases word with _ | ⟨start, front⟩
        · cases hhead
        · cases hhead
          obtain ⟨rfl, rfl⟩ := List.cons_eq_cons.mp hword
          exact ⟨hfirst, Or.inr ⟨front, rfl, (List.forall_mem_cons.mp hall).2⟩⟩

/-! ### Reading back -/

/-- The characters at which the engine ends a word: blanks, and what its language has a use for. -/
def delimiters : List Char :=
  [' ', '\t', '\n', '\r', '\x0b', '\x0c', '"', '(', ')', '&', '|', '<', '~', ';']

/-- Whether the engine ends a word at a character. -/
def delimits (c : Char) : Bool := c ∈ delimiters

/-- The word at the front of an engine text, up to the first delimiter. -/
def firstWord (cs : List Char) : List Char := cs.takeWhile fun c ↦ !delimits c

theorem not_isTail_of_mem_delimiters : ∀ c ∈ delimiters, isTail c = false := by
  simp [delimiters, isTail]

theorem not_delimits_of_isTail (h : isTail c = true) : delimits c = false := by
  refine decide_eq_false fun hc ↦ ?_
  rw [not_isTail_of_mem_delimiters c hc] at h
  cases h

/-- The engine reads back a word that is written in front of a delimiter or of nothing. -/
theorem firstWord_append (hword : IsWord word) (hrest : ∀ c ∈ rest.head?, delimits c = true) :
    firstWord (word ++ rest) = word := by
  unfold firstWord
  rw [List.takeWhile_append_of_pos fun c hc ↦ by rw [not_delimits_of_isTail (hword.all c hc)]; rfl]
  have hnone : rest.takeWhile (fun c ↦ !delimits c) = [] := by
    rcases rest with _ | ⟨c, rest⟩
    · rfl
    · simp [hrest c rfl]
  rw [hnone, List.append_nil]

/-- Of an accepted name the engine reads back the word, and a line feed behind it is lost. -/
theorem firstWord_of_accepts (h : accepts text = true)
    (hrest : ∀ c ∈ rest.head?, delimits c = true) :
    IsWord (firstWord (text.toList ++ rest)) ∧
      (text.toList = firstWord (text.toList ++ rest) ∨
        text.toList = firstWord (text.toList ++ rest) ++ ['\n']) := by
  rcases accepts_iff.mp h with hword | ⟨word, hword, htext⟩
  · rw [firstWord_append hword hrest]
    exact ⟨hword, Or.inl rfl⟩
  · have hread : firstWord (text.toList ++ rest) = word := by
      rw [htext, List.append_assoc]
      refine firstWord_append hword ?_
      simp [delimits, delimiters]
    rw [hread]
    exact ⟨hword, Or.inr htext⟩

/-- A line feed behind a name is let through, into the text of a question about a class too, and the
engine reads the name without it: two names of the host program are one name of the engine. -/
theorem line_feed_let_through :
    accepts "Point\n" = true ∧ ('\n' ∈ "Point\n".toList ∧ isTail '\n' = false) ∧
      (Expression.classQuery .isDefined "Point\n").text = "(class-existp Point\n)" ∧
      renderSymbol "Point\n" = "Point\n" ∧ "Point\n" ≠ "Point" ∧
      firstWord (renderSymbol "Point\n").toList = firstWord (renderSymbol "Point").toList := by
  decide

end RuleMarshal.Text.SafeSymbol
