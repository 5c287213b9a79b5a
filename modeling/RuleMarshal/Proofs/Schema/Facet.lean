import RuleMarshal.Proofs.Engine.Render
import RuleMarshal.Schema.Defclass
/-!
Definitions of slots as forms. The definition of a slot that holds scalars is the text of a proper
form (`toList_render`, `proper_form`), so the form can be told from the text. What the engine lets
into a slot is read off such a form: a single value or a row of them, of the kinds that the type
facet lists, and of the symbols that are allowed, if any are listed (`Form.Takes`).
-/

set_option autoImplicit false
set_option relaxedAutoImplicit false

namespace RuleMarshal

/-! ### What a definition lets in -/

namespace Form

/-- Whether the facets of a slot let a single value in: its kind is among the types, and if it is a
symbol and the allowed ones are listed, it is one of them. -/
structure LetsIn (facets : List Form) (v : EngineValue) : Prop where
  typed : ∃ types, .call "type".toList types ∈ facets
  kind : ∀ types, .call "type".toList types ∈ facets → .word v.kindWord.toList ∈ types
  symbol : ∀ name allowed, v = .symbol name → .call "allowed-symbols".toList allowed ∈ facets →
    symbolForm name ∈ allowed

/-- Whether a value is what the definition of a slot asks for: a single value, or a row of them. -/
inductive Takes : Form → EngineValue → Prop
  | single {name : Form} {facets : List Form} {v : EngineValue}
      (hv : ∀ items, v ≠ .multifield items)
      (hlets : LetsIn facets v) : Takes (.call "slot".toList (name :: facets)) v
  | row {name : Form} {facets : List Form} {items : List EngineValue}
      (hlets : ∀ v ∈ items, LetsIn facets v) :
      Takes (.call "multislot".toList (name :: facets)) (.multifield items)

/-- A facet that lists words. -/
def ofWords (facet : String) (words : List String) : Form :=
  .call facet.toList (words.map fun w ↦ .word w.toList)

theorem intercalate_spell :
    ∀ {fs : List Form}, fs ≠ [] → ' ' :: [' '].intercalate (fs.map spell) = spellEach fs
  | [], hne => absurd rfl hne
  | [f], _ => by simp [spellEach]
  | f :: g :: rest, _ => by
    have hrest := intercalate_spell (List.cons_ne_nil g rest)
    rw [spellEach, ← hrest]
    simp

theorem properEach_iff {fs : List Form} : ProperEach fs ↔ ∀ f ∈ fs, f.Proper := by
  induction fs with
  | nil => simp [ProperEach]
  | cons f rest ih => rw [ProperEach, ih, List.forall_mem_cons]

theorem proper_ofWords {facet : String} {words : List String}
    (hfacet : Text.SafeSymbol.accepts facet = true)
    (hwords : ∀ w ∈ words, Text.SafeSymbol.accepts w = true) : (ofWords facet words).Proper := by
  refine ⟨isWord_of_accepts hfacet, properEach_iff.mpr fun f hf ↦ ?_⟩
  obtain ⟨w, hw, rfl⟩ := List.mem_map.mp hf
  exact isWord_of_accepts (hwords w hw)

end Form

namespace SlotSchema

variable {slot : SlotSchema} {constrainClass : Bool}

/-- The types that a slot of scalars takes. -/
def typeWords (slot : SlotSchema) : List String :=
  match slot.kind with
  | .boolean | .symbol => ["SYMBOL"]
  | kind => if slot.nullable then [kind.word, "SYMBOL"] else [kind.word]

/-- The symbols that a slot of scalars takes, if not all. -/
def allowedSymbols? (slot : SlotSchema) : Option (List String) :=
  match slot.kind with
  | .boolean => some (if slot.nullable then ["TRUE", "FALSE", "nil"] else ["TRUE", "FALSE"])
  | .symbol => none
  | _ => if slot.nullable then some ["nil"] else none

/-- The default of a slot of scalars, if it has one of its own. -/
def defaultWord? (slot : SlotSchema) : Option String :=
  if slot.multi then none
  else if slot.nullable then some "nil"
  else if slot.kind = .boolean then some "FALSE" else none

/-- The facets of a slot of scalars: the words that each lists. -/
def facetWords (slot : SlotSchema) : List (String × List String) :=
  ("type", slot.typeWords) ::
    (slot.allowedSymbols?.map fun words ↦ ("allowed-symbols", words)).toList ++
    (slot.defaultWord?.map fun w ↦ ("default", [w])).toList ++ [("create-accessor", ["read-write"])]

/-- The facets of a slot of scalars as forms. -/
def facetForms (slot : SlotSchema) : List Form :=
  slot.facetWords.map fun facet ↦ .ofWords facet.1 facet.2

/-- The definition of a slot of scalars as a form. -/
def form (slot : SlotSchema) : Form :=
  .call (if slot.multi then "multislot" else "slot").toList
    (.word slot.name.toList :: slot.facetForms)

theorem facetForms_ne_nil (slot : SlotSchema) : slot.facetForms ≠ [] := by
  simp [facetForms, facetWords]

/-- The facets of a slot of scalars are the texts of their forms. -/
theorem toList_facets (hany : slot.kind ≠ .any) (hclass : slot.kind ≠ .classReference) :
    (slot.facets constrainClass).map String.toList = slot.facetForms.map Form.spell := by
  unfold facets typeFacets facetForms facetWords typeWords allowedSymbols? defaultWord?
  cases hkind : slot.kind with
  | any => exact absurd hkind hany
  | classReference => exact absurd hkind hclass
  | _ =>
    cases hnullable : slot.nullable <;> cases hmulti : slot.multi <;>
      simp [Form.ofWords, Form.spell, Form.spellEach, SlotKind.word]

/-- The definition of a slot of scalars is the text of its form. -/
theorem toList_render (hany : slot.kind ≠ .any) (hclass : slot.kind ≠ .classReference) :
    (slot.render constrainClass).toList = slot.form.spell := by
  have htexts : (slot.facets constrainClass).map String.toList = slot.facetForms.map Form.spell :=
    toList_facets hany hclass
  have hfacets := Form.intercalate_spell slot.facetForms_ne_nil
  rw [← htexts] at hfacets
  unfold render form
  rw [Form.spell, Form.spellEach, ← hfacets]
  cases slot.multi <;> simp [Form.spell, String.toList_intercalate]

theorem mem_facetWords {facet : String} {words : List String} :
    (facet, words) ∈ slot.facetWords ↔ (facet = "type" ∧ words = slot.typeWords) ∨
      (facet = "allowed-symbols" ∧ slot.allowedSymbols? = some words) ∨
      (facet = "default" ∧ ∃ w, slot.defaultWord? = some w ∧ words = [w]) ∨
      (facet = "create-accessor" ∧ words = ["read-write"]) := by
  simp only [facetWords, List.cons_append, List.mem_cons, List.mem_append, Option.mem_toList,
    Option.map_eq_some_iff, Prod.mk.injEq, List.not_mem_nil, or_false, or_assoc]
  grind

theorem eq_of_mem_typeWords {w : String} (hw : w ∈ slot.typeWords) :
    w = slot.kind.word ∨ w = "SYMBOL" := by
  unfold typeWords at hw
  split at hw
  · exact .inr (List.mem_singleton.mp hw)
  · exact .inr (List.mem_singleton.mp hw)
  · split at hw
    · simpa using hw
    · exact .inl (List.mem_singleton.mp hw)

theorem subset_of_allowedSymbols? {words : List String}
    (hallowed : slot.allowedSymbols? = some words) :
    words ⊆ ["TRUE", "FALSE", "nil"] := by
  unfold allowedSymbols? at hallowed
  split at hallowed
  · rw [← Option.some.inj hallowed]
    cases slot.nullable <;> simp
  · cases hallowed
  · split at hallowed
    · rw [← Option.some.inj hallowed]
      simp
    · cases hallowed

theorem mem_of_defaultWord? {w : String} (hdefault : slot.defaultWord? = some w) :
    w ∈ ["FALSE", "nil"] := by
  unfold defaultWord? at hdefault
  split_ifs at hdefault
  · simp [← Option.some.inj hdefault]
  · simp [← Option.some.inj hdefault]

/-- The facets of a slot and what they list are words. -/
theorem accepts_of_mem_facetWords {facet : String} {words : List String}
    (hfacet : (facet, words) ∈ slot.facetWords) :
    Text.SafeSymbol.accepts facet = true ∧ ∀ w ∈ words, Text.SafeSymbol.accepts w = true := by
  have hsymbols : ∀ w ∈ ["TRUE", "FALSE", "nil"], Text.SafeSymbol.accepts w = true := by decide
  obtain ⟨rfl, rfl⟩ | ⟨rfl, hallowed⟩ | ⟨rfl, d, hdefault, rfl⟩ | ⟨rfl, rfl⟩ :=
    mem_facetWords.mp hfacet
  · refine ⟨by decide, fun w hw ↦ ?_⟩
    obtain rfl | rfl := eq_of_mem_typeWords hw
    · cases slot.kind <;> decide
    · decide
  · exact ⟨by decide, fun w hw ↦ hsymbols w (subset_of_allowedSymbols? hallowed hw)⟩
  · refine ⟨by decide, List.forall_mem_singleton.mpr (hsymbols d ?_)⟩
    exact List.mem_cons_of_mem _ (mem_of_defaultWord? hdefault)
  · decide

/-- The form of a slot's definition is proper if the name of the slot can be used. -/
theorem proper_form (haccepted : Text.SafeSymbol.accepts slot.name = true) : slot.form.Proper := by
  refine ⟨?_, isWord_of_accepts haccepted, Form.properEach_iff.mpr fun f hf ↦ ?_⟩
  · cases slot.multi <;> exact isWord_of_accepts (by decide)
  · obtain ⟨⟨facet, words⟩, hfacet, rfl⟩ := List.mem_map.mp hf
    obtain ⟨hword, hwords⟩ := accepts_of_mem_facetWords hfacet
    exact Form.proper_ofWords hword hwords

/-- Which words a facet of a slot lists, as the form of the facet tells. -/
theorem call_mem_facetForms {facet : String} {args : List Form} :
    .call facet.toList args ∈ slot.facetForms ↔
      ∃ words, (facet, words) ∈ slot.facetWords ∧ args = words.map fun w ↦ .word w.toList := by
  simp only [facetForms, Form.ofWords, List.mem_map, Form.call.injEq, Prod.exists]
  constructor
  · rintro ⟨found, words, hmem, hfound, rfl⟩
    obtain rfl := String.toList_inj.mp hfound
    exact ⟨words, hmem, rfl⟩
  · rintro ⟨words, hmem, rfl⟩
    exact ⟨facet, words, hmem, rfl, rfl⟩

/-- The facets of a slot let in what is of one of its types and, if a symbol, one of those
allowed. -/
theorem letsIn_facetForms {v : EngineValue} (hkind : v.kindWord ∈ slot.typeWords)
    (hsymbol : ∀ name words, v = .symbol name → slot.allowedSymbols? = some words → name ∈ words) :
    Form.LetsIn slot.facetForms v where
  typed := ⟨_, call_mem_facetForms.mpr ⟨slot.typeWords, mem_facetWords.mpr (.inl ⟨rfl, rfl⟩), rfl⟩⟩
  kind types htypes := by
    obtain ⟨words, hwords, rfl⟩ := call_mem_facetForms.mp htypes
    obtain ⟨-, rfl⟩ : "type" = "type" ∧ words = slot.typeWords := by
      simpa using mem_facetWords.mp hwords
    exact List.mem_map_of_mem hkind
  symbol name allowed hv hallowed := by
    obtain ⟨words, hwords, rfl⟩ := call_mem_facetForms.mp hallowed
    have hname : name ∈ words := hsymbol name words hv (by simpa using mem_facetWords.mp hwords)
    unfold symbolForm
    rw [if_pos ((accepts_of_mem_facetWords hwords).2 name hname)]
    exact List.mem_map_of_mem hname

end SlotSchema

end RuleMarshal
