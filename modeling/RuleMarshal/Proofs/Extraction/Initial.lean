import RuleMarshal.Proofs.Computation.Raising
import RuleMarshal.Proofs.Extraction.Outcome
import RuleMarshal.Proofs.RoundTrip.Making
import RuleMarshal.Proofs.Schema.Field
/-!
What new objects hold at first. A field holds its default, what its factory builds, or the zero
value of its type, and only a type whose items have types of their own has none
(`Field.initial_eq_error_iff`, `Hint.zero_eq_error_iff`). So a new object cannot be made where such
a field has no default, or where building a default fails (`raises_blank`).

A new object holds for each field the field's own value (`own_of_blank`). Of a model that takes that
no alias is the attribute of another field, because what is supplied for the attribute is then taken
under the alias (`alias_takes_other_default`).
-/

set_option autoImplicit false
set_option relaxedAutoImplicit false

namespace RuleMarshal

open Act

/-! ### What a field holds at first -/

theorem Hint.zero_eq_error_iff {h : Hint} {e : Error} :
    h.zero = .error e ↔ h.unwrapOptional.2 = false ∧ h.unwrapOptional.1.items = .ofOwnTypes ∧
      h.unwrapOptional.1.itemsRefused = e := by
  unfold Hint.zero
  generalize h.unwrapOptional = unwrapped
  obtain ⟨inner, optional⟩ := unwrapped
  cases optional with
  | true => simp
  | false =>
    dsimp only
    rw [if_neg Bool.false_ne_true]
    split
    case h_9 =>
      split
      · rename_i hitems
        simp [hitems]
      · rename_i hitems
        simp [hitems]
      · rename_i hitems
        simp [hitems]
    all_goals simp [Hint.items]

theorem Field.initial_eq_error_iff {f : Field} {e : Error} :
    f.initial = .error e ↔ f.factory = none ∧ f.default = none ∧ f.hint.zero = .error e := by
  unfold Field.initial
  cases f.factory with
  | some built => simp
  | none =>
    cases f.default with
    | some v => simp
    | none => cases f.hint.zero <;> simp [Except.map]

/-- Reads what a field holds at first. -/
def Field.start (f : Field) : Act Value := do (← MonadExcept.ofExcept f.initial : Initial).value

/-- What a field holds at first somewhere, under its attribute. -/
def Field.Starts (world : World) (f : Field) (p : String × Value) : Prop :=
  p.1 = f.attr ∧ ∃ s t, f.start.runIn world s = (.ok p.2, t)

/-- A default that is not built is what its field holds at first. -/
theorem Field.starts_iff_of_default {world : World} {f : Field} {v w : Value}
    (hfactory : f.factory = none) (hdefault : f.default = some v) :
    f.Starts world (f.attr, w) ↔ w = v := by
  have hstart : f.start = pure v := by
    unfold Field.start Field.initial
    rw [hfactory, hdefault]
    rfl
  constructor
  · rintro ⟨-, s, t, hrun⟩
    rw [hstart] at hrun
    cases hrun
    rfl
  · rintro rfl
    exact ⟨rfl, {}, {}, by rw [hstart, runIn_pure]⟩

section

variable {world : World} {fields : List Field} {own : List (String × Value)}

theorem attrs_of_starts (hown : List.Forall₂ (Field.Starts world) fields own) :
    own.map (·.1) = fields.map (·.attr) := by
  induction hown with
  | nil => rfl
  | cons hstarts _ ih => rw [List.map_cons, List.map_cons, hstarts.1, ih]

theorem exists_of_starts (hown : List.Forall₂ (Field.Starts world) fields own) {f : Field}
    (hf : f ∈ fields) :
    ∃ v, (f.attr, v) ∈ own ∧ f.Starts world (f.attr, v) := by
  induction hown with
  | nil => cases hf
  | @cons g p fields own hstarts _ ih =>
    rcases List.mem_cons.mp hf with rfl | hlater
    · obtain ⟨attr, v⟩ := p
      obtain rfl : attr = f.attr := hstarts.1
      exact ⟨v, List.mem_cons_self, hstarts⟩
    · obtain ⟨v, hmem, hheld⟩ := ih hlater
      exact ⟨v, List.mem_cons_of_mem _ hmem, hheld⟩

end

/-! ### What makes it fail to make an object -/

/-- Why no new object of a type can be made: a field has neither a default nor a zero value, or a
default cannot be built. -/
inductive Unmakeable (world : World) (type : Hint) (fields : List Field) (e : Error) : Prop where
  | undefined {f : Field} (hf : f ∈ fields) (hinitial : f.initial = .error e)
  | default {f : Field} {initial : Initial} {s t : State} (hf : f ∈ fields)
      (hinitial : f.initial = .ok initial)
      (hrun : initial.value.runIn world s = (.error e, t))
  | copied {struct : String} {declaration : StructType} {f : FieldDeclaration}
      {initial : Initial} {s t : State}
      (htype : type = .struct struct) (hfound : world.types.find? struct = some declaration)
      (hkind : world.types.kindOf declaration = .model)
      (hf : f ∈ world.types.declaredFields declaration)
      (hinitial : f.initial? .model = some initial)
      (hrun : initial.value.runIn world s = (.error e, t))

section

variable {world : World} {type : Hint} {fields : List Field} {kind : Error → Prop}

/-- A computation that raises errors of a kind wherever it begins. -/
theorem Act.Raises.of_error {α : Type} {act : Act α}
    (hact : ∀ s e t, act.runIn world s = (.error e, t) → kind e) :
    act.Raises (fun _ ↦ True) kind world where
  passesOn _ _ := trivial
  raised _ hrun := hact _ _ _ hrun

theorem raises_start {f : Field} (hf : f ∈ fields) :
    f.start.Raises (fun _ ↦ True) (Unmakeable world type fields) world := by
  unfold Field.start
  cases hinitial : f.initial with
  | error e => exact .throw (.undefined hf hinitial)
  | ok initial => exact .of_error fun s e t hrun ↦ .default hf hinitial hrun

theorem raises_assign (object : Value) (attr : String) (v : Value) :
    (assign object attr v).Raises (fun _ ↦ True) kind world := by
  unfold assign
  cases object <;> exact .of_answers (fun _ _ ↦ trivial) fun _ ↦ ⟨_, _, rfl⟩

theorem raises_filled (struct : String) :
    (blank.filled fields struct Field.start).Raises (fun _ ↦ True)
    (Unmakeable world type fields) world := by
  unfold blank.filled
  refine .bind (.of_answers (fun _ _ ↦ trivial) fun _ ↦ ⟨_, _, rfl⟩) fun id ↦ ?_
  exact .bind (.forM _ fun f hf ↦ (raises_start hf).bind fun v ↦ raises_assign _ _ v) fun _ ↦
    .pure _

theorem raises_fillModel {declared : List FieldDeclaration}
    (hdeclared : ∀ f ∈ declared, ∀ initial, f.initial? .model = some initial →
      initial.value.Raises (fun _ ↦ True) kind world)
    (object : Value) (supplied : List (String × Value)) :
    (fillModel object declared supplied).Raises (fun _ ↦ True) kind world := by
  induction declared generalizing supplied with
  | nil => exact .pure _
  | cons f rest ih =>
    rw [List.forall_mem_cons] at hdeclared
    unfold fillModel
    dsimp only
    split
    · exact (raises_assign _ _ _).bind fun _ ↦ ih hdeclared.2 _
    · split
      · rename_i initial hinitial
        exact (hdeclared.1 initial hinitial).bind fun v ↦
          (raises_assign _ _ v).bind fun _ ↦ ih hdeclared.2 _
      · exact ih hdeclared.2 _

/-- Making a new object fails for a field only. -/
theorem raises_blank :
    (blank type fields).Raises (fun _ ↦ True) (Unmakeable world type fields) world := by
  unfold blank
  refine .reading ?_
  dsimp only
  split
  · rename_i struct
    split
    · rename_i declaration hfound
      split
      · rename_i hkind
        refine .bind (.mapM fields fun f hf ↦ (raises_start hf).bind fun v ↦ .pure _) fun supplied ↦
          ?_
        refine .bind (.of_answers (fun _ _ ↦ trivial) fun _ ↦ ⟨_, _, rfl⟩) fun id ↦ ?_
        refine .bind (raises_fillModel (fun f hf initial hinitial ↦ ?_) _ supplied) fun _ ↦ .pure _
        exact .of_error fun s e t hrun ↦ .copied rfl hfound hkind hf hinitial hrun
      · exact raises_filled struct
    · exact raises_filled struct
  · exact raises_filled _

end

/-! ### What a new object holds -/

section

variable {world : World} {struct : String} {id : Nat} {s t : State} {attrs : List (String × Value)}

/-- What a field holds at first is made without a change to what was there before. -/
theorem Field.grown_of_start {f : Field} {v : Value} (hrun : f.start.runIn world s = (.ok v, t)) :
    Grown s.heap.cells.size s t := by
  have hkept : f.start.Keeps (Builds s.heap.cells.size) world :=
    .bind (.ofExcept _) fun initial ↦ initial.keeps_value Builds.building
  exact hkept.of_runIn hrun (Nat.le_refl _)

/-- A new attribute comes last in an object. -/
theorem get?_of_assign {attr : String} {v : Value} {rest : List String}
    (hcell : s.heap.get? id = some (.object attrs)) (hnew : (attrs.map (·.1) ++ attr :: rest).Nodup)
    (hrun : (assign (.object struct id) attr v).runIn world s = (.ok ⟨⟩, t)) :
    t.heap.get? id = some (.object (attrs ++ [(attr, v)])) ∧
      ((attrs ++ [(attr, v)]).map (·.1) ++ rest).Nodup := by
  have hid : id < s.heap.cells.size := (Array.getElem?_eq_some_iff.mp hcell).1
  have hattr : attr ∉ attrs.map (·.1) := fun hmem ↦
    (List.nodup_append.mp hnew).2.2 _ hmem _ List.mem_cons_self rfl
  constructor
  · cases hrun
    rw [Heap.attrs, hcell]
    dsimp only
    rw [putNamed_of_notMem hattr]
    exact s.heap.get?_put_self _ hid
  · rw [List.map_append, List.append_assoc]
    exact hnew

/-- Fields that are filled one after the other with what they hold at first hold that. -/
theorem own_of_forM {fields : List Field} (hcell : s.heap.get? id = some (.object attrs))
    (hnew : (attrs.map (·.1) ++ fields.map (·.attr)).Nodup)
    (hrun : Act.runIn (fields.forM fun f ↦ do assign (.object struct id) f.attr (← f.start))
      world s = (.ok ⟨⟩, t)) :
    ∃ own, List.Forall₂ (Field.Starts world) fields own ∧
      t.heap.get? id = some (.object (attrs ++ own)) := by
  induction fields generalizing s attrs with
  | nil =>
    cases hrun
    exact ⟨[], .nil, by rw [List.append_nil, hcell]⟩
  | cons f rest ih =>
    have hrun : Act.runIn ((f.start >>= fun v ↦ assign (.object struct id) f.attr v) >>= fun _ ↦
        rest.forM fun f ↦ do assign (.object struct id) f.attr (← f.start)) world s =
          (.ok ⟨⟩, t) := hrun
    obtain ⟨⟨⟩, w, hfirst, hlater⟩ := ok_of_bind hrun
    obtain ⟨v, u, hstart, hassign⟩ := ok_of_bind hfirst
    have hid : id < s.heap.cells.size := (Array.getElem?_eq_some_iff.mp hcell).1
    have hkept : u.heap.get? id = some (.object attrs) :=
      ((Field.grown_of_start hstart).cells id hid).trans hcell
    obtain ⟨hassigned, hlonger⟩ := get?_of_assign hkept hnew hassign
    obtain ⟨own, hown, hholds⟩ := ih hassigned hlonger hlater
    exact ⟨(f.attr, v) :: own, .cons ⟨rfl, s, u, hstart⟩ hown,
      by rw [hholds, List.append_assoc]; rfl⟩

/-- What is read for fields before an object is made. -/
theorem own_of_mapM {fields : List Field} {own : List (String × Value)}
    (hrun : Act.runIn (fields.mapM fun f ↦ do return (f.attr, ← f.start)) world s = (.ok own, t)) :
    List.Forall₂ (Field.Starts world) fields own ∧ s.heap.cells.size ≤ t.heap.cells.size := by
  induction fields generalizing s own with
  | nil =>
    cases hrun
    exact ⟨.nil, Nat.le_refl _⟩
  | cons f rest ih =>
    rw [List.mapM_cons] at hrun
    obtain ⟨p, u, hfirst, hlater⟩ := ok_of_bind hrun
    obtain ⟨others, x, hothers, hreturn⟩ := ok_of_bind hlater
    obtain ⟨v, w, hstart, hpair⟩ := ok_of_bind hfirst
    cases hreturn
    cases hpair
    obtain ⟨hown, hsize⟩ := ih hothers
    exact ⟨.cons ⟨rfl, s, u, hstart⟩ hown, Nat.le_trans (Field.grown_of_start hstart).size hsize⟩

/-- No alias of a model's field is the attribute of another field. -/
def AliasesApart (declared : List FieldDeclaration) : Prop :=
  ∀ f ∈ declared, ∀ key, f.serialization = some key → key = f.attr ∨ key ∉ declared.map (·.attr)

/-- The name under which a field of a model takes what is supplied: its alias, if something is
supplied under that. -/
def FieldDeclaration.takes (f : FieldDeclaration) (supplied : List (String × Value)) : String :=
  (f.serialization.filter fun key ↦ supplied.any (·.1 = key)).getD f.attr

theorem fillModel_cons {f : FieldDeclaration} {rest : List FieldDeclaration}
    {supplied : List (String × Value)} {v : Value} (object : Value)
    (hv : supplied.lookup (f.takes supplied) = some v) :
    fillModel object (f :: rest) supplied =
      assign object f.attr v >>= fun _ ↦
        fillModel object rest (supplied.filter (·.1 ≠ f.takes supplied)) := by
  unfold FieldDeclaration.takes at hv ⊢
  rw [fillModel]
  cases hkey : f.serialization.filter fun key ↦ supplied.any (·.1 = key) with
  | none =>
    rw [hkey] at hv
    dsimp only [Option.getD_none] at hv ⊢
    rw [hv]
  | some key =>
    rw [hkey] at hv
    dsimp only [Option.getD_some] at hv ⊢
    rw [hv]

theorem AliasesApart.takes {f : FieldDeclaration} {rest : List FieldDeclaration}
    {supplied : List (String × Value)} (haliases : AliasesApart (f :: rest))
    (hsupplied : supplied.map (·.1) = (f :: rest).map (·.attr)) :
    f.takes supplied = f.attr := by
  unfold FieldDeclaration.takes
  cases halias : f.serialization with
  | none => rfl
  | some key =>
    rcases haliases f List.mem_cons_self key halias with rfl | hapart
    · cases hfound : Option.filter (fun key ↦ supplied.any (·.1 = key)) (some f.attr) with
      | none => rfl
      | some key => exact (Option.some.inj (Option.filter_eq_some_iff.mp hfound).1).symm
    · have hnone : supplied.any (·.1 = key) = false := by
        rw [List.any_eq_false]
        intro p hp hkey
        exact hapart (hsupplied ▸ List.mem_map.mpr ⟨p, hp, of_decide_eq_true hkey⟩)
      rw [Option.filter_some, if_neg (by rw [hnone]; exact Bool.false_ne_true)]
      rfl

theorem AliasesApart.tail {f : FieldDeclaration} {rest : List FieldDeclaration}
    (haliases : AliasesApart (f :: rest)) :
    AliasesApart rest := by
  intro g hg key halias
  refine (haliases g (List.mem_cons_of_mem _ hg) key halias).imp_right fun hapart hmem ↦ ?_
  exact hapart (List.mem_cons_of_mem _ hmem)

/-- Where aliases are apart, each field of a model takes what is supplied for its own attribute. -/
theorem own_of_fillModel {declared : List FieldDeclaration} {own : List (String × Value)}
    (haliases : AliasesApart declared) (hown : own.map (·.1) = declared.map (·.attr))
    (hcell : s.heap.get? id = some (.object attrs))
    (hnew : (attrs.map (·.1) ++ declared.map (·.attr)).Nodup)
    (hrun : (fillModel (.object struct id) declared own).runIn world s = (.ok ⟨⟩, t)) :
    t.heap.get? id = some (.object (attrs ++ own)) := by
  induction declared generalizing s attrs own with
  | nil =>
    obtain rfl : own = [] := by simpa using hown
    cases hrun
    rw [List.append_nil, hcell]
  | cons f rest ih =>
    obtain ⟨p, others, rfl⟩ : ∃ p others, own = p :: others := by
      cases own with
      | nil => simp at hown
      | cons p others => exact ⟨p, others, rfl⟩
    obtain ⟨attr, v⟩ := p
    rw [List.map_cons, List.map_cons] at hown
    obtain ⟨rfl, hothers⟩ := List.cons.inj hown
    have hfirst : ((f.attr, v) :: others).filter (·.1 ≠ f.attr) = others := by
      rw [List.filter_cons_of_neg (by simp), List.filter_eq_self]
      intro p hp
      have hlater : p.1 ∈ rest.map (·.attr) := hothers ▸ List.mem_map_of_mem hp
      have hnodup := (List.nodup_append.mp hnew).2.1
      rw [List.map_cons, List.nodup_cons] at hnodup
      exact decide_eq_true fun heq ↦ hnodup.1 (heq ▸ hlater)
    have htakes : f.takes ((f.attr, v) :: others) = f.attr :=
      haliases.takes (by rw [List.map_cons, List.map_cons, hothers])
    rw [fillModel_cons _ (by rw [htakes]; exact List.lookup_cons_self), htakes, hfirst] at hrun
    obtain ⟨⟨⟩, w, hassign, hlater⟩ := ok_of_bind hrun
    obtain ⟨hassigned, hlonger⟩ := get?_of_assign hcell hnew hassign
    rw [ih haliases.tail hothers hassigned hlonger hlater, List.append_assoc]
    rfl

theorem own_of_filled {fields : List Field} {o : Value} (hattrs : (fields.map (·.attr)).Nodup)
    (hrun : (blank.filled fields struct Field.start).runIn world s = (.ok o, t)) :
    ∃ id own, o = .object struct id ∧ s.heap.cells.size ≤ id ∧
      List.Forall₂ (Field.Starts world) fields own ∧
      t.heap.get? id = some (.object own) := by
  obtain ⟨id, u, halloc, hfill⟩ := ok_of_bind hrun
  obtain ⟨⟨⟩, w, hfields, hreturn⟩ := ok_of_bind hfill
  cases halloc
  cases hreturn
  have hcell : (s.heap.alloc (.object [])).1.get? (s.heap.alloc (.object [])).2 =
      some (.object []) :=
    s.heap.get?_alloc_self _
  have hnew : (([] : List (String × Value)).map (·.1) ++ fields.map (·.attr)).Nodup := hattrs
  obtain ⟨own, hown, hholds⟩ := own_of_forM hcell hnew hfields
  exact ⟨_, own, rfl, Nat.le_refl _, hown, hholds⟩

/-- Where an object was made, each field has something to hold at first. -/
theorem exists_initial_of_blank {fields : List Field} {o : Value}
    (hattrs : (fields.map (·.attr)).Nodup)
    (hrun : (blank (.struct struct) fields).runIn world s = (.ok o, t)) {f : Field}
    (hf : f ∈ fields) :
    ∃ initial, f.initial = .ok initial := by
  have hstarts : ∃ own, List.Forall₂ (Field.Starts world) fields own := by
    obtain ⟨w, u, hread, hblank⟩ := ok_of_bind hrun
    cases hread
    dsimp only at hblank
    split at hblank
    · split at hblank
      · obtain ⟨own, u, hown, -⟩ := ok_of_bind hblank
        exact ⟨own, (own_of_mapM hown).1⟩
      · obtain ⟨-, own, -, -, hown, -⟩ := own_of_filled hattrs hblank
        exact ⟨own, hown⟩
    · obtain ⟨-, own, -, -, hown, -⟩ := own_of_filled hattrs hblank
      exact ⟨own, hown⟩
  obtain ⟨own, hown⟩ := hstarts
  obtain ⟨v, -, -, u, x, hstart⟩ := exists_of_starts hown hf
  obtain ⟨initial, y, hinitial, -⟩ := ok_of_bind hstart
  cases hfound : f.initial with
  | ok initial => exact ⟨initial, rfl⟩
  | error e =>
    rw [hfound] at hinitial
    cases hinitial

/-- A new object of a struct type holds for each field of the type what that field holds at first.
For a model that takes that no alias is the attribute of another field. -/
theorem own_of_blank {declared : List Field} {number : Nat} {o : Value}
    (hfields : world.types.fields world.config.tags (.struct struct) = .ok declared)
    (haliases : ∀ declaration, world.types.find? struct = some declaration →
      world.types.kindOf declaration = .model →
      AliasesApart (world.types.declaredFields declaration))
    (hrun : (blank (.struct struct) (fieldsInReading number declared)).runIn world s = (.ok o, t)) :
    ∃ id own, o = .object struct id ∧ s.heap.cells.size ≤ id ∧
      List.Forall₂ (Field.Starts world) (fieldsInReading number declared) own ∧
      t.heap.get? id = some (.object own) := by
  have hsame := attrs_fieldsInReading number declared
  have hattrs : ((fieldsInReading number declared).map (·.attr)).Nodup :=
    hsame ▸ TypeTable.attr_nodup_of_fields hfields
  obtain ⟨w, u, hread, hblank⟩ := ok_of_bind hrun
  cases hread
  dsimp only at hblank
  split at hblank
  · rename_i declaration hfound
    split at hblank
    · rename_i hkind
      obtain ⟨own, u, hown, hrest⟩ := ok_of_bind hblank
      obtain ⟨id, v, halloc, hfill⟩ := ok_of_bind hrest
      obtain ⟨⟨⟩, x, hmodel, hreturn⟩ := ok_of_bind hfill
      cases halloc
      cases hreturn
      obtain ⟨hstarts, hsize⟩ := own_of_mapM hown
      have hkeys := attrs_of_starts hstarts
      have hdeclared : declared.map (·.attr) =
          (world.types.declaredFields declaration).map (·.attr) := by
        rw [TypeTable.fields, hfound] at hfields
        exact TypeTable.attr_eq_of_structFields hfields
      rw [hsame, hdeclared] at hkeys hattrs
      have hcell : (u.heap.alloc (.object [])).1.get? (u.heap.alloc (.object [])).2 =
          some (.object []) :=
        u.heap.get?_alloc_self _
      have hnew : (([] : List (String × Value)).map (·.1) ++
        (world.types.declaredFields declaration).map (·.attr)).Nodup := hattrs
      exact ⟨_, own, rfl, hsize, hstarts,
        own_of_fillModel (haliases declaration hfound hkind) hkeys hcell hnew hmodel⟩
    · exact own_of_filled hattrs hblank
  · exact own_of_filled hattrs hblank

end

/-! ### An alias that is the attribute of another field -/

/-- A model with a field whose alias is the attribute of another one. -/
def swapTypes : TypeTable where
  types := [{ name := "Swap", kind := .model,
              fields := [{ attr := "a", hint := .int .unsized, serialization := some "b",
                           written := some (.int .unsized 1), default := some (.int .unsized 1) },
                { attr := "b", hint := .int .unsized, metadata := [("clips", some "c")],
                  written := some (.int .unsized 2), default := some (.int .unsized 2) }] }]

/-- A field whose alias is the attribute of another field holds the default of that field, not its
own. -/
theorem alias_takes_other_default :
    let world := World.ofDepth swapTypes {} (fun _ _ ↦ {}) 0
    let fields := ((world.types.fields world.config.tags (.struct "Swap")).toOption).getD []
    let run := (blank (.struct "Swap") fields).runIn world {}
    let held (attr : String) := run.1.toOption.bind fun o ↦
      (run.2.heap.attr? attr o).bind (·.integer?)
    (∃ f ∈ fields, f.attr = "a" ∧ ∀ v, f.Starts world (f.attr, v) ↔ v = .int .unsized 1) ∧
      held "a" = some 2 ∧ held "b" = some 2 := by
  intro world fields run held
  refine ⟨⟨_, List.mem_cons_self, rfl, fun v ↦ Field.starts_iff_of_default rfl rfl⟩, ?_⟩
  decide +kernel

end RuleMarshal
