import RuleMarshal.Proofs.Engine.Render
import RuleMarshal.Proofs.Schema.Coverage
import RuleMarshal.Schema.Defclass
/-!
Class constraints. Where a slot refers to objects, its definition may name the class that they
have to be of (`classConstraint`). What the constraints in a text name is read off the text
(`namedClasses`): behind the opening of each, all that comes before the parenthesis that closes
it. The pieces of a definition can be read one after the other (`Constrains`), so the definition
of a class names what its slots refer to, slot by slot, but for what is left out
(`ClassSchema.Writable.namedClasses_render`).
-/

set_option autoImplicit false
set_option relaxedAutoImplicit false

namespace RuleMarshal

/-- The facet by which a slot names the class of what it refers to. -/
def classConstraint (name : String) : String := "(allowed-classes " ++ name ++ ")"

/-- Constraints begin with a word of their own. -/
theorem classConstraint_ne {name facet : String}
    (hword : facet.toList.take 10 ≠ "(allowed-c".toList) : classConstraint name ≠ facet := by
  rintro rfl
  refine hword ?_
  unfold classConstraint
  simp

/-! ### Constraints in a text -/

/-- What comes behind the parenthesis that opens a constraint, up to the name of the class. -/
def constraintWord : List Char := "allowed-classes ".toList

/-- What the constraints in a text name, in order: behind the opening of each, all that comes
before the parenthesis that closes it. -/
def constraintsIn : List Char → List String
  | [] => []
  | '(' :: rest =>
    if constraintWord.isPrefixOf rest then
      String.ofList ((rest.drop constraintWord.length).takeWhile (· ≠ ')')) :: constraintsIn rest
    else constraintsIn rest
  | _ :: rest => constraintsIn rest

/-- The classes that the constraints in a text name. -/
def namedClasses (text : String) : List String := constraintsIn text.toList

/-- Whether the constraints in a piece of a text name some classes, whatever follows it. -/
def Constrains (piece : List Char) (names : List String) : Prop :=
  ∀ rest, constraintsIn (piece ++ rest) = names ++ constraintsIn rest

/-- Whether a piece opens, behind blanks, with a parenthesis and a word that no constraint has, and
has no parenthesis after it. -/
def opensOther : List Char → Bool
  | ' ' :: piece => opensOther piece
  | '(' :: piece =>
    !piece.contains '(' && !piece.isPrefixOf constraintWord && !constraintWord.isPrefixOf piece
  | _ => false

/-- Whether the constraints in some pieces name some classes, in order. -/
inductive ConstrainsEach : List String → List String → Prop
  | nil : ConstrainsEach [] []
  | cons {piece : String} {pieces names others : List String}
      (hpiece : Constrains piece.toList names) (hpieces : ConstrainsEach pieces others) :
      ConstrainsEach (piece :: pieces) (names ++ others)

section

variable {piece more : List Char} {pieces rest names others : List String} {text name sep : String}

namespace Constrains

theorem append (hpiece : Constrains piece names) (hmore : Constrains more others) :
    Constrains (piece ++ more) (names ++ others) := by
  intro rest
  rw [List.append_assoc, hpiece, hmore, List.append_assoc]

theorem namedClasses_eq (htext : Constrains text.toList names) : namedClasses text = names := by
  have hend := htext []
  rwa [List.append_nil, constraintsIn, List.append_nil] at hend

/-- Constraints begin with a parenthesis. -/
theorem of_notMem (hpiece : '(' ∉ piece) : Constrains piece [] := by
  intro rest
  induction piece with
  | nil => rfl
  | cons c piece ih =>
    rw [List.cons_append, constraintsIn]
    · exact ih fun hmem ↦ hpiece (List.mem_cons_of_mem _ hmem)
    · rintro rfl
      exact hpiece List.mem_cons_self

theorem plain_append (hplain : '(' ∉ piece) (hmore : Constrains more names) :
    Constrains (piece ++ more) names :=
  (of_notMem hplain).append hmore

theorem append_plain (hpiece : Constrains piece names) (hplain : '(' ∉ more) :
    Constrains (piece ++ more) names := by
  have hboth := hpiece.append (of_notMem hplain)
  rwa [List.append_nil] at hboth

/-- A parenthesis opens no constraint if another word is behind it. -/
theorem of_opensOther (hpiece : opensOther piece = true) : Constrains piece [] := by
  induction piece with
  | nil => cases hpiece
  | cons c piece ih =>
    unfold opensOther at hpiece
    split at hpiece
    · rename_i heq
      obtain ⟨rfl, rfl⟩ := List.cons_eq_cons.mp heq
      have hspace : Constrains [' '] [] := .of_notMem (by decide)
      exact hspace.append (ih hpiece)
    · rename_i heq
      obtain ⟨rfl, rfl⟩ := List.cons_eq_cons.mp heq
      simp only [Bool.and_eq_true, Bool.not_eq_true', Bool.eq_false_iff, ne_eq,
        List.contains_iff_mem, List.isPrefixOf_iff_prefix] at hpiece
      obtain ⟨⟨hplain, hshort⟩, hlong⟩ := hpiece
      intro rest
      have hword : ¬constraintWord.isPrefixOf (piece ++ rest) = true := by
        rw [List.isPrefixOf_iff_prefix]
        intro hword
        obtain hprefix | hprefix :=
          List.prefix_or_prefix_of_prefix hword (List.prefix_append piece rest)
        · exact hlong hprefix
        · exact hshort hprefix
      rw [List.cons_append, constraintsIn, if_neg hword]
      exact of_notMem hplain rest
    · cases hpiece

/-- What follows the opening of another expression names nothing if no parenthesis opens in it. -/
theorem of_opening {opening : String} (hopening : opensOther opening.toList = true)
    (hplain : '(' ∉ text.toList) : Constrains (opening ++ text).toList [] := by
  rw [String.toList_append]
  exact (of_opensOther hopening).append_plain hplain

end Constrains

/-- Behind the opening of a constraint the name of its class is read. -/
theorem constraintsIn_opening (rest : List Char) :
    constraintsIn ('(' :: (constraintWord ++ rest)) =
      String.ofList (rest.takeWhile (· ≠ ')')) :: constraintsIn rest := by
  have hword : Constrains constraintWord [] := .of_notMem (by decide)
  rw [constraintsIn, if_pos (List.isPrefixOf_iff_prefix.mpr (List.prefix_append _ _)),
    List.drop_left, hword rest, List.nil_append]

theorem open_notMem_of_accepts (hname : Text.SafeSymbol.accepts name = true) :
    '(' ∉ name.toList := fun hmem ↦ notMem_of_accepts hname '(' hmem (by simp)

/-- The constraint to a class names it. -/
theorem constrains_classConstraint (hname : Text.SafeSymbol.accepts name = true) :
    Constrains (classConstraint name).toList [name] := by
  have htext : (classConstraint name).toList =
      '(' :: (constraintWord ++ (name.toList ++ [')'])) := by
    unfold classConstraint constraintWord
    simp
  have hkept : ∀ c ∈ name.toList, decide (c ≠ ')') = true := fun c hc ↦
    decide_eq_true fun heq ↦ notMem_of_accepts hname c hc (by simp [heq])
  have hend : Constrains (name.toList ++ [')']) [] :=
    .plain_append (open_notMem_of_accepts hname) (.of_notMem (by decide))
  intro rest
  have hread : (name.toList ++ [')'] ++ rest).takeWhile (· ≠ ')') = name.toList := by
    rw [List.append_assoc, List.takeWhile_append_of_pos hkept]
    simp
  rw [htext, List.cons_append, List.append_assoc, constraintsIn_opening, hread, hend rest,
    String.ofList_toList, List.nil_append, List.singleton_append]

namespace ConstrainsEach

theorem of_opensOther (hpieces : ∀ piece ∈ pieces, opensOther piece.toList = true) :
    ConstrainsEach pieces [] := by
  induction pieces with
  | nil => exact .nil
  | cons piece pieces ih =>
    obtain ⟨hpiece, hrest⟩ := List.forall_mem_cons.mp hpieces
    exact .cons (.of_opensOther hpiece) (ih hrest)

theorem append (hpieces : ConstrainsEach pieces names) (hrest : ConstrainsEach rest others) :
    ConstrainsEach (pieces ++ rest) (names ++ others) := by
  induction hpieces with
  | nil => exact hrest
  | cons hpiece _ ih =>
    rw [List.append_assoc]
    exact .cons hpiece ih

/-- Pieces that name nothing add nothing. -/
theorem plain_append (hpieces : ConstrainsEach pieces []) (hrest : ConstrainsEach rest names) :
    ConstrainsEach (pieces ++ rest) names :=
  hpieces.append hrest

/-- What separates pieces names nothing if there is no parenthesis in it. -/
theorem intercalate (hsep : '(' ∉ sep.toList) (hpieces : ConstrainsEach pieces names) :
    Constrains (sep.intercalate pieces).toList names := by
  induction hpieces with
  | nil => exact .of_notMem (by simp)
  | @cons piece pieces names others hpiece hpieces ih =>
    cases pieces with
    | nil =>
      cases hpieces
      rw [String.intercalate_singleton, List.append_nil]
      exact hpiece
    | cons second pieces =>
      rw [String.intercalate_cons_of_ne_nil (by simp), String.toList_append, String.toList_append]
      exact (hpiece.append_plain hsep).append ih

end ConstrainsEach

end

/-! ### Constraints in the definition of a class -/

namespace SlotSchema

/-- Whether the names in a slot may be written without quoting, where it refers to objects if it
names a class. -/
structure Writable (slot : SlotSchema) : Prop where
  name : Text.SafeSymbol.accepts slot.name = true
  reference : ∀ g name, slot.reference = some (g, name) →
    slot.kind = .classReference ∧ Text.SafeSymbol.accepts name = true

/-- The class that a slot refers to. -/
def referredClass? (slot : SlotSchema) : Option String := slot.reference.map (·.2)

variable {slot : SlotSchema} (constrainClass : Bool)

theorem constrained_eq (slot : SlotSchema) (pending : List String) :
    slot.constrained pending = !slot.referredClass?.any (pending.contains ·) := by
  unfold constrained referredClass?
  cases slot.reference <;> rfl

/-- The facets that say what a slot takes name the class that it refers to, if they are to. -/
theorem Writable.constrainsEach_typeFacets (hslot : slot.Writable) :
    ConstrainsEach (slot.typeFacets constrainClass)
      (slot.referredClass?.filter fun _ ↦ constrainClass).toList := by
  unfold typeFacets referredClass?
  have hnone (hkind : slot.kind ≠ .classReference) : slot.reference = none := by
    by_contra hsome
    obtain ⟨⟨g, name⟩, hreference⟩ := Option.ne_none_iff_exists'.mp hsome
    exact hkind (hslot.reference g name hreference).1
  cases hkind : slot.kind with
  | classReference =>
    refine .plain_append ?_ ?_
    · split <;> exact .of_opensOther (by decide)
    cases hreference : slot.reference with
    | none => exact .nil
    | some reference =>
      obtain ⟨g, name⟩ := reference
      have hname := (hslot.reference g name hreference).2
      have hnonempty : name.isEmpty = false := by
        rw [String.isEmpty_eq_false_iff]
        rintro rfl
        cases hname
      cases constrainClass with
      | false => exact .nil
      | true =>
        dsimp only
        rw [hnonempty]
        exact .cons (constrains_classConstraint hname) .nil
  | boolean =>
    rw [hnone (by simp [hkind])]
    refine .plain_append ?_ ?_
    · split <;> exact .of_opensOther (by decide)
    · split <;> exact .of_opensOther (by decide)
  | symbol =>
    rw [hnone (by simp [hkind])]
    dsimp only
    exact .of_opensOther (by decide)
  | any =>
    rw [hnone (by simp [hkind])]
    exact .nil
  | _ =>
    rw [hnone (by simp [hkind])]
    dsimp only [SlotKind.word]
    split <;> exact .of_opensOther (by decide)

/-- The definition of a slot names the class that the slot refers to, if it is to. -/
theorem Writable.constrains_render (hslot : slot.Writable) :
    Constrains (slot.render constrainClass).toList
      (slot.referredClass?.filter fun _ ↦ constrainClass).toList := by
  have hdefault : ConstrainsEach
      (if slot.nullable && !slot.multi then ["(default nil)"] else []) [] := by
    split <;> exact .of_opensOther (by decide)
  have haccessor : ConstrainsEach ["(create-accessor read-write)"] [] :=
    .of_opensOther (by decide)
  have hfacets :=
    ((hslot.constrainsEach_typeFacets constrainClass).append hdefault).append haccessor
  have hopening : Constrains ("(" ++ if slot.multi then "multislot" else "slot").toList [] := by
    split <;> exact .of_opensOther (by decide)
  have hname : '(' ∉ (" " ++ slot.name ++ " ").toList := by
    simpa using open_notMem_of_accepts hslot.name
  have hspace : '(' ∉ " ".toList := by decide
  have hclosing : '(' ∉ ")".toList := by decide
  have hall := (hopening.append_plain hname).append
    ((hfacets.intercalate hspace).append_plain hclosing)
  unfold render facets
  simpa only [String.toList_append, List.append_assoc, List.nil_append, List.append_nil] using hall

end SlotSchema

namespace ClassSchema

/-- Whether the names in a schema may be written without quoting. -/
structure Writable (schema : ClassSchema) : Prop where
  name : Text.SafeSymbol.accepts schema.name = true
  slots : ∀ slot ∈ schema.slots, slot.Writable

/-- The classes that the slots refer to, in order. -/
def referredClasses (schema : ClassSchema) : List String :=
  schema.slots.filterMap (·.referredClass?)

theorem mem_referredClasses {schema : ClassSchema} {name : String} :
    name ∈ schema.referredClasses ↔ ∃ slot ∈ schema.slots, ∃ g,
      slot.reference = some (g, name) := by
  simp [referredClasses, SlotSchema.referredClass?]

variable {schema : ClassSchema} {superclass patternMatch : String}

/-- The definitions of the slots name the classes that the slots refer to and that are not left
out. -/
theorem Writable.constrainsEach_slots (hwritable : schema.Writable) (pending : List String) :
    ConstrainsEach (schema.slots.map fun slot ↦ "  " ++ slot.render (slot.constrained pending))
      (schema.referredClasses.filter (· ∉ pending)) := by
  obtain ⟨-, hslots⟩ := hwritable
  unfold referredClasses
  generalize schema.slots = slots at *
  induction slots with
  | nil => exact .nil
  | cons slot rest ih =>
    obtain ⟨hslot, hrest⟩ := List.forall_mem_cons.mp hslots
    have hnames : ((slot :: rest).filterMap (·.referredClass?)).filter (· ∉ pending) =
        (slot.referredClass?.filter fun _ ↦ slot.constrained pending).toList ++
          (rest.filterMap (·.referredClass?)).filter (· ∉ pending) := by
      rw [SlotSchema.constrained_eq, List.filterMap_cons]
      cases slot.referredClass? with
      | none => rfl
      | some name => by_cases hpending : name ∈ pending <;> simp [hpending, Option.filter]
    rw [hnames, List.map_cons]
    refine .cons ?_ (ih hrest)
    rw [String.toList_append]
    exact .plain_append (by decide) (hslot.constrains_render _)

/-- The definition of a class names the classes that its slots refer to and that are not left out,
slot by slot. -/
theorem Writable.namedClasses_render {pending : List String} (hwritable : schema.Writable)
    (hsuperclass : '(' ∉ superclass.toList) (hpattern : '(' ∉ patternMatch.toList) :
    namedClasses (schema.render superclass patternMatch pending) =
      schema.referredClasses.filter (· ∉ pending) := by
  have hclosed {text : String} (hplain : '(' ∉ text.toList) : '(' ∉ (text ++ ")").toList := by
    simpa using hplain
  have hname : Constrains ("(defclass " ++ schema.name).toList [] :=
    .of_opening (by decide) (open_notMem_of_accepts hwritable.name)
  have hisa : Constrains ("  (is-a " ++ superclass ++ ")").toList [] := by
    rw [String.append_assoc]
    exact .of_opening (by decide) (hclosed hsuperclass)
  have hrole : Constrains "  (role concrete)".toList [] := .of_opensOther (by decide)
  have hmode : Constrains ("  (pattern-match " ++ patternMatch ++ ")").toList [] := by
    rw [String.append_assoc]
    exact .of_opening (by decide) (hclosed hpattern)
  have hlines := (ConstrainsEach.cons hname (.cons hisa (.cons hrole (.cons hmode .nil)))).append
    (hwritable.constrainsEach_slots pending)
  have hbreak : '(' ∉ "\n".toList := by decide
  have hclosing : '(' ∉ ")".toList := by decide
  have htext := (hlines.intercalate hbreak).append_plain hclosing
  refine Constrains.namedClasses_eq ?_
  unfold render
  rwa [String.toList_append]

end ClassSchema

/-- The names in the schema of a struct type may be written without quoting if there are schemas of
all that it refers to. -/
theorem writable_of_buildSchema {types : TypeTable} {tags : Tags} {h : Hint} {schema : ClassSchema}
    (hbuilt : buildSchema types tags h = .ok schema)
    (hreferences : ∀ g ∈ schema.references, types.Buildable tags g) : schema.Writable where
  name := accepts_of_buildSchema hbuilt
  slots slot hslot := by
    obtain ⟨fields, -, -, hslots⟩ := exists_fields_of_buildSchema hbuilt
    obtain ⟨hlength, hfields⟩ := List.forall₂_iff_get.mp hslots
    refine ⟨?_, fun g name hreference ↦ ?_⟩
    · obtain ⟨i, hi, rfl⟩ := List.getElem_of_mem hslot
      exact (hfields i (hlength ▸ hi) hi).accepted
    · have hrefers := refersTo_of_buildSchema hbuilt hslot hreference
      obtain ⟨k, hk⟩ :=
        hreferences g ((mem_references_iff hbuilt).mpr ⟨slot, hslot, name, hrefers⟩)
      obtain rfl : k.name = name :=
        Except.ok.inj ((className_of_buildSchema hk).symm.trans hrefers.className)
      exact ⟨hrefers.kind, accepts_of_buildSchema hk⟩

end RuleMarshal
