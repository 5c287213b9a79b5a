import RuleMarshal.Engine.Command
import RuleMarshal.Proofs.Engine.Render
/-!
String literals in texts for the engine. Two replacements make the inside of a literal, first of
each backslash and then of each quote (`escape_eq_replaced`); the second leaves alone what the first
one wrote. A scanner that reads one literal from the front of a text stops behind the closing quote,
whatever follows (`scanLiteral?_quote_append`). A scanner that goes through a whole text finds one
literal after the other, and in the text of a value exactly the host texts that the value holds,
while what follows is scanned as if it stood alone (`EngineValue.literals?_append_of_render`). The
same is true of the command that asserts what is written in a text.
-/

set_option autoImplicit false
set_option relaxedAutoImplicit false

namespace RuleMarshal

/-! ### Two replacements -/

namespace Text.EngineString

/-- A text with other characters in the place of each one of a kind. -/
def replaced (c : Char) (others cs : List Char) : List Char :=
  cs.flatMap fun d ↦ if d = c then others else [d]

@[simp] theorem replaced_nil (c : Char) (others : List Char) : replaced c others [] = [] := rfl

theorem replaced_cons (c d : Char) (others cs : List Char) :
    replaced c others (d :: cs) = (if d = c then others else [d]) ++ replaced c others cs :=
  List.flatMap_cons

theorem replaced_append (c : Char) (others cs ds : List Char) :
    replaced c others (cs ++ ds) = replaced c others cs ++ replaced c others ds :=
  List.flatMap_append

/-- The inside of a literal is made in two passes over the text: backslashes first, quotes behind
them. -/
theorem escape_eq_replaced (cs : List Char) :
    escape cs = replaced '"' ['\\', '"'] (replaced '\\' ['\\', '\\'] cs) := by
  induction cs with
  | nil => rfl
  | cons c rest ih =>
    rw [replaced_cons, replaced_append, ← ih, escape]
    by_cases hbackslash : c = '\\'
    · subst hbackslash
      rfl
    · by_cases hquote : c = '"'
      · subst hquote
        rfl
      · simp [replaced_cons, hbackslash, hquote]

/-- In the other order a quote ends up behind two backslashes, the first of which takes the
second. -/
example :
    replaced '\\' ['\\', '\\'] (replaced '"' ['\\', '"'] ['"']) = ['\\', '\\', '"'] := by decide

end Text.EngineString

/-! ### One literal -/

/-- The literal at the front of a text, and what follows it. -/
def scanLiteral? : List Char → Option (String × List Char)
  | '"' :: inside =>
    (Form.readLiteral? inside).map fun (content, behind) ↦ (String.ofList content, behind)
  | _ => none

/-- Scanning the literal of a text stops at its end, whatever follows, and gives the text. -/
theorem scanLiteral?_quote_append (text : String) (rest : List Char) :
    scanLiteral? ((Text.EngineString.quote text).toList ++ rest) = some (text, rest) := by
  rw [toList_quote, Form.spell, List.cons_append, List.append_assoc, List.singleton_append,
    scanLiteral?, Form.readLiteral?_escape_append, Option.map_some]
  dsimp only
  rw [String.ofList_toList]

theorem Form.length_of_readLiteral? {cs content behind : List Char}
    (hread : readLiteral? cs = some (content, behind)) : behind.length < cs.length := by
  fun_induction readLiteral? cs generalizing content behind with
  | case1 => cases hread
  | case2 rest =>
    cases hread
    exact Nat.lt_succ_self _
  | case3 => cases hread
  | case4 c rest ih =>
    obtain ⟨⟨inner, after⟩, hrest, hpair⟩ := Option.map_eq_some_iff.mp hread
    cases hpair
    exact Nat.lt_succ_of_lt (Nat.lt_succ_of_lt (ih hrest))
  | case5 c rest _ _ _ ih =>
    obtain ⟨⟨inner, after⟩, hrest, hpair⟩ := Option.map_eq_some_iff.mp hread
    cases hpair
    exact Nat.lt_succ_of_lt (ih hrest)

theorem length_of_scanLiteral? {cs behind : List Char} {text : String}
    (hscan : scanLiteral? cs = some (text, behind)) : behind.length < cs.length := by
  unfold scanLiteral? at hscan
  split at hscan
  · obtain ⟨⟨content, after⟩, hread, hpair⟩ := Option.map_eq_some_iff.mp hscan
    cases hpair
    exact Nat.lt_succ_of_lt (Form.length_of_readLiteral? hread)
  · cases hscan

/-! ### The literals of a text -/

/-- The literals of a text in their order, if none is left open. Outside of literals all but quotes
is passed over. -/
def literals? : List Char → Option (List String)
  | [] => some []
  | c :: rest =>
    if c = '"' then
      match _h : scanLiteral? (c :: rest) with
      | none => none
      | some (text, behind) => (literals? behind).map (text :: ·)
    else literals? rest
termination_by cs => cs.length
decreasing_by
  · exact length_of_scanLiteral? _h
  · exact Nat.lt_succ_self _

@[simp] theorem literals?_nil : literals? [] = some [] := by rw [literals?]

/-- What has no quotes has no literals. -/
theorem literals?_append_of_plain {cs : List Char} (hcs : '"' ∉ cs) (rest : List Char) :
    literals? (cs ++ rest) = literals? rest := by
  induction cs with
  | nil => rfl
  | cons c cs ih =>
    obtain ⟨hc, hcs⟩ := not_or.mp (mt List.mem_cons.mpr hcs)
    rw [List.cons_append, literals?, if_neg (Ne.symm hc), ih hcs]

/-- Behind a literal at the front, scanning goes on where the literal ends. -/
theorem literals?_cons_quote (inside : List Char) :
    literals? ('"' :: inside) =
      (scanLiteral? ('"' :: inside)).bind fun p ↦ (literals? p.2).map (p.1 :: ·) := by
  rw [literals?, if_pos rfl]
  split <;> rename_i hscan <;> rw [hscan] <;> rfl

theorem literals?_quote_append (text : String) (rest : List Char) :
    literals? ((Text.EngineString.quote text).toList ++ rest) =
      (literals? rest).map (text :: ·) := by
  have hscan := scanLiteral?_quote_append text rest
  rw [toList_quote, Form.spell, List.cons_append] at hscan ⊢
  rw [literals?_cons_quote, hscan, Option.bind_some]

namespace Form

mutual

/-- The contents of the literals of a form, in order. -/
def contents : Form → List String
  | .word _ => []
  | .literal cs => [String.ofList cs]
  | .call _ args => contentsEach args

/-- The contents of the literals of forms in a row. -/
def contentsEach : List Form → List String
  | [] => []
  | f :: rest => contents f ++ contentsEach rest

end

theorem IsWord.quote_notMem {cs : List Char} (hcs : IsWord cs) : '"' ∉ cs :=
  fun h ↦ hcs.all '"' h (by simp)

mutual

/-- In the text of a proper form its literals are found, and what follows is scanned as if it stood
alone. -/
theorem literals?_spell_append : ∀ {f : Form} (rest : List Char), f.Proper →
    literals? (f.spell ++ rest) = (literals? rest).map (f.contents ++ ·)
  | .word cs, rest, hf => by
    rw [spell, contents, literals?_append_of_plain (IsWord.quote_notMem hf)]
    exact Option.map_id'.symm
  | .literal cs, rest, hf => by
    have hquote := literals?_quote_append (String.ofList cs) rest
    rw [toList_quote, String.toList_ofList] at hquote
    exact hquote
  | .call function args, rest, hf => by
    have hopen : '"' ∉ '(' :: function :=
      List.not_mem_cons_of_ne_of_not_mem (by decide) hf.1.quote_notMem
    have hclose : '"' ∉ [')'] := by decide
    have hsplit : (call function args).spell ++ rest =
        ('(' :: function) ++ (spellEach args ++ ([')'] ++ rest)) := by
      simp [spell]
    rw [hsplit, literals?_append_of_plain hopen, literals?_spellEach_append _ hf.2,
      literals?_append_of_plain hclose, contents]

theorem literals?_spellEach_append : ∀ {fs : List Form} (rest : List Char), ProperEach fs →
    literals? (spellEach fs ++ rest) = (literals? rest).map (contentsEach fs ++ ·)
  | [], rest, hfs => Option.map_id'.symm
  | f :: fs, rest, hfs => by
    have hblank : '"' ∉ [' '] := by decide
    have hsplit : spellEach (f :: fs) ++ rest = [' '] ++ (f.spell ++ (spellEach fs ++ rest)) := by
      simp [spellEach]
    rw [hsplit, literals?_append_of_plain hblank, literals?_spell_append _ hfs.1,
      literals?_spellEach_append _ hfs.2, Option.map_map, contentsEach]
    congr 1
    funext others
    exact (List.append_assoc _ _ _).symm

end

end Form

/-! ### The host texts in a value -/

/-- A name that stands in a literal: one that is no safe symbol. -/
def quotedName (name : String) : List String := if Text.SafeSymbol.accepts name then [] else [name]

theorem contents_symbolForm (name : String) : (symbolForm name).contents = quotedName name := by
  unfold symbolForm quotedName
  split
  · rfl
  · simp [Form.contents, Form.contentsEach]

theorem contents_instanceNameForm (name : String) :
    (instanceNameForm name).contents = quotedName name := by
  unfold instanceNameForm quotedName
  split
  · rfl
  · simp [Form.contents, Form.contentsEach]

namespace EngineValue

mutual

/-- The host texts that stand in literals in the text of a value: its strings, and the names that
are no safe symbols. -/
def quoted : EngineValue → List String
  | .string text => [text]
  | .symbol name => quotedName name
  | .instanceName name => quotedName name
  | .instanceAddress h => quotedName h.name
  | .multifield items => quotedEach items
  | _ => []

/-- The host texts of values in a row. -/
def quotedEach : List EngineValue → List String
  | [] => []
  | v :: rest => quoted v ++ quotedEach rest

end

theorem contentsEach_of_formEach? {items : List EngineValue} {fs : List Form}
    (hitems : ∀ v ∈ items, ∀ f, v.form? = some f → f.contents = v.quoted)
    (hfs : formEach? items = some fs) :
    Form.contentsEach fs = quotedEach items := by
  induction items generalizing fs with
  | nil =>
    cases hfs
    rfl
  | cons v rest ih =>
    obtain ⟨hv, hrest⟩ := List.forall_mem_cons.mp hitems
    rw [formEach?] at hfs
    obtain ⟨f, hf, hmore⟩ := Option.bind_eq_some_iff.mp hfs
    obtain ⟨others, hothers, rfl⟩ := Option.map_eq_some_iff.mp hmore
    rw [Form.contentsEach, quotedEach, hv f hf, ih hrest hothers]

theorem contents_of_form? {v : EngineValue} {f : Form} (hf : v.form? = some f) :
    f.contents = v.quoted := by
  induction v using of_items generalizing f with
  | multifield items ih =>
    rw [form?] at hf
    obtain ⟨fs, hfs, rfl⟩ := Option.map_eq_some_iff.mp hf
    rw [Form.contents, quoted, contentsEach_of_formEach? (fun v hv f ↦ ih v hv) hfs]
  | single v hv =>
    cases v with
    | multifield items => exact absurd rfl (hv items)
    | integer n fits =>
      rw [← Option.some.inj hf]
      rfl
    | float x =>
      rw [form?] at hf
      split_ifs at hf
      rw [← Option.some.inj hf]
      rfl
    | string text => rw [← Option.some.inj hf, Form.contents, String.ofList_toList, quoted]
    | symbol name => rw [← Option.some.inj hf, contents_symbolForm, quoted]
    | instanceName name => rw [← Option.some.inj hf, contents_instanceNameForm, quoted]
    | instanceAddress h =>
      rw [← Option.some.inj hf, Form.contents, Form.contentsEach, contents_instanceNameForm,
        Form.contentsEach, List.append_nil, quoted]
    | _ => simp [form?] at hf

/-- In the text of a value exactly the host texts in the value are found, and what follows is
scanned as if it stood alone. -/
theorem literals?_append_of_render {v : EngineValue} {text : String} (hv : v.render = .ok text)
    (rest : List Char) :
    literals? (text.toList ++ rest) = (literals? rest).map (v.quoted ++ ·) := by
  obtain ⟨f, hf, hspell⟩ := exists_form?_of_render hv
  rw [hspell, Form.literals?_spell_append rest (read?_of_form? hf).1, contents_of_form? hf]

end EngineValue

/-! ### The command that asserts a text -/

/-- The form of the command that asserts what is written in a text. -/
def assertTextForm (fact : String) : Form := .call "assert-string".toList [.literal fact.toList]

theorem toList_text_assertText (fact : String) :
    (Expression.assertText fact).text.toList = (assertTextForm fact).spell := by
  have htext : (Expression.assertText fact).text =
      "(assert-string " ++ Text.EngineString.quote fact ++ ")" := rfl
  simp [htext, assertTextForm, toList_quote, Form.spell, Form.spellEach]

theorem proper_assertTextForm (fact : String) : (assertTextForm fact).Proper :=
  ⟨⟨by simp, by simp⟩, trivial, trivial⟩

/-- A quoted text delimits itself. Quoting replaces first each backslash and then each quote;
scanning what it makes, with anything behind it, stops exactly at its end and gives the text. So in
the text of a value, and in the command that asserts a text, the literals are the host texts that
were put there, no more and no less, the command is one closed expression, and what follows is
scanned as if it stood alone. -/
theorem quoting_self_delimiting :
    (∀ text : String, (Text.EngineString.quote text).toList =
      '"' :: (Text.EngineString.replaced '"' ['\\', '"']
        (Text.EngineString.replaced '\\' ['\\', '\\'] text.toList) ++ ['"'])) ∧
    (∀ (text : String) (rest : List Char),
      scanLiteral? ((Text.EngineString.quote text).toList ++ rest) = some (text, rest)) ∧
    (∀ (v : EngineValue) (text : String), v.render = .ok text → ∀ rest : List Char,
      literals? (text.toList ++ rest) = (literals? rest).map (v.quoted ++ ·)) ∧
    (∀ fact : String, ∃ command : String, (Expression.assertText fact).sent = .text command ∧
      Closed command.toList ∧ ∀ rest : List Char,
        literals? (command.toList ++ rest) = (literals? rest).map (fact :: ·)) := by
  refine ⟨?_, scanLiteral?_quote_append, fun v text hv rest ↦
    EngineValue.literals?_append_of_render hv rest, ?_⟩
  · intro text
    rw [toList_quote, Form.spell, Text.EngineString.escape_eq_replaced]
  · intro fact
    refine ⟨_, rfl, ?_, fun rest ↦ ?_⟩
    · rw [toList_text_assertText]
      exact Form.closed (proper_assertTextForm fact)
    · rw [toList_text_assertText, Form.literals?_spell_append rest (proper_assertTextForm fact)]
      simp [assertTextForm, Form.contents, Form.contentsEach]

/-- A string that ends in a backslash and one that holds a quote and a parenthesis, beside a symbol
that is no word: the three are the literals of the row, and a literal that is left open behind it
stays open. -/
theorem quoting_self_delimiting_row :
    ∃ (v : EngineValue) (text : String), v.render = .ok text ∧
      literals? text.toList = some ["C:\\", "\") (halt", "a \\\" b"] ∧
      literals? (text.toList ++ " \"".toList) = none := by
  let v : EngineValue :=
    .multifield [.string "C:\\", .string "\") (halt", .symbol "plain", .symbol "a \\\" b"]
  have hv : v.render =
      .ok "(create$ \"C:\\\\\" \"\\\") (halt\" plain (sym-cat \"a \\\\\\\" b\"))" := rfl
  have hquoted : v.quoted = ["C:\\", "\") (halt", "a \\\" b"] := rfl
  have hrow := quoting_self_delimiting.2.2.1 v _ hv
  refine ⟨v, _, hv, ?_, ?_⟩
  · have hend := hrow []
    rw [List.append_nil, literals?_nil, Option.map_some, hquoted] at hend
    exact hend
  · have hopen : literals? " \"".toList = none := by
      rw [show " \"".toList = [' '] ++ ['"'] from rfl, literals?_append_of_plain (by decide),
        literals?_cons_quote]
      rfl
    rw [hrow, hopen, Option.map_none]

end RuleMarshal
