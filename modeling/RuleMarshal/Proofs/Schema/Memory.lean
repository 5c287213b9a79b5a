import RuleMarshal.Schema.Reflect
/-!
The memory of reflection, and the runs that change it. What a type's schema is, as far as it is
remembered or can be built, is a function of the memory (`Memo.schema?`), and reflection never
changes it: it only remembers what can be built, and forgets what it has remembered itself
(`Memo.agrees_reflect`). So a type that is reflected twice has one schema, whatever was reflected in
between (`schema?_of_reflect`).
-/

set_option autoImplicit false
set_option relaxedAutoImplicit false

namespace RuleMarshal

/-! ### Names of types -/

namespace Hint

theorem same_atom {h : Hint} {a : HintAtom} : h.same (.atom a) = true ↔ h = .atom a := by
  cases h <;> simp [same]

theorem atom_same {h : Hint} {a : HintAtom} : (Hint.atom a).same h = true ↔ h = .atom a := by
  cases h <;> simp [same, eq_comm]

end Hint

/-! ### Runs of a reflection -/

namespace Reflecting

variable {α β γ : Type} {f : γ → Reflecting PUnit} (memo : Memo)

@[simp] theorem run_pure (a : α) : (pure a : Reflecting α).run memo = (.ok a, memo) := rfl

@[simp] theorem run_throw (e : Error) : (throw e : Reflecting α).run memo = (.error e, memo) := rfl

@[simp] theorem run_get : (get : Reflecting Memo).run memo = (.ok memo, memo) := rfl

@[simp] theorem run_modify (change : Memo → Memo) :
    (modify change : Reflecting PUnit).run memo = (.ok ⟨⟩, change memo) := rfl

theorem run_bind (act : Reflecting α) (next : α → Reflecting β) :
    (act >>= next).run memo =
      match act.run memo with
      | (.ok a, after) => (next a).run after
      | (.error e, after) => (.error e, after) := by
  change StateT.bind act (ExceptT.bindCont next) memo = _
  simp only [StateT.bind, ExceptT.run]
  cases act memo with
  | mk answer after => cases answer <;> rfl

theorem run_tryCatch (act : Reflecting α) (handle : Error → Reflecting α) :
    (tryCatch act handle).run memo =
      match act.run memo with
      | (.ok a, after) => (.ok a, after)
      | (.error e, after) => (handle e).run after := by
  change ExceptT.tryCatch act handle memo = _
  simp only [ExceptT.tryCatch, ExceptT.mk]
  change StateT.bind act _ memo = _
  simp only [StateT.bind, ExceptT.run]
  cases act memo with
  | mk answer after => cases answer <;> rfl

theorem run_discard (act : Reflecting α) :
    (discard act).run memo = ((act.run memo).1.map fun _ ↦ ⟨⟩, (act.run memo).2) := by
  change ExceptT.run (Function.const _ PUnit.unit <$> act) memo = _
  rw [map_eq_pure_bind, run_bind]
  cases act.run memo with
  | mk answer after => cases answer <;> rfl

theorem run_forM_cons (c : γ) (rest : List γ) :
    ExceptT.run ((c :: rest).forM f) memo =
      match (f c).run memo with
      | (.ok _, after) => ExceptT.run (rest.forM f) after
      | (.error e, after) => (.error e, after) := by
  change ExceptT.run (f c >>= fun _ ↦ rest.forM f) memo = _
  rw [run_bind]
  cases (f c).run memo with
  | mk answer after => cases answer <;> rfl

/-- What each step of a loop keeps, the loop keeps, also where a step fails. -/
theorem forM_keeps {P : Memo → Prop} {memo : Memo} (hstep : ∀ c m, P m → P ((f c).run m).2)
    (items : List γ) (hmemo : P memo) : P (ExceptT.run (items.forM f) memo).2 := by
  induction items generalizing memo with
  | nil => exact hmemo
  | cons c rest ih =>
    have hfirst : P ((f c).run memo).2 := hstep c memo hmemo
    rw [run_forM_cons]
    cases hrun : (f c).run memo with
    | mk answer after =>
      rw [hrun] at hfirst
      cases answer with
      | error e => exact hfirst
      | ok found => exact ih hfirst

/-- A loop fails by one of its steps. -/
theorem exists_of_forM_error {items : List γ} {memo : Memo} {e : Error}
    (hrun : (ExceptT.run (items.forM f) memo).1 = .error e) :
    ∃ c m, ((f c).run m).1 = .error e := by
  induction items generalizing memo with
  | nil => cases hrun
  | cons c rest ih =>
    rw [run_forM_cons] at hrun
    cases hfirst : (f c).run memo with
    | mk answer after =>
      rw [hfirst] at hrun
      cases answer with
      | error raised => exact ⟨c, memo, (congrArg Prod.fst hfirst).trans hrun⟩
      | ok found => exact ih hrun

end Reflecting

/-! ### Schemas that are remembered or can be built -/

section

variable (table : TypeTable) (tags : Tags)

/-- The schema of a type: what is remembered, else what can be built. -/
def Memo.schema? (memo : Memo) (h : Hint) : Option ClassSchema :=
  (memo.find? h).or (buildSchema table tags h).toOption

/-- Two memories in which all atomic types have the same schemas. -/
def Memo.Agrees (memo after : Memo) : Prop :=
  ∀ a, after.schema? table tags (.atom a) = memo.schema? table tags (.atom a)

variable {table tags} {memo : Memo} {h : Hint}

theorem Memo.find?_forget_self (a : HintAtom) :
    (memo.forget (.atom a)).find? (.atom a) = none := by
  unfold find? forget
  rw [Option.map_eq_none_iff, List.find?_eq_none]
  intro p hp hsame
  obtain ⟨-, hkept⟩ := List.mem_filter.mp hp
  simp [hsame] at hkept

theorem Memo.find?_forget_ne {a : HintAtom} (hne : h ≠ .atom a) :
    (memo.forget h).find? (.atom a) = memo.find? (.atom a) := by
  have hfind : ∀ entries : List (Hint × ClassSchema),
      (entries.filter fun p ↦ !p.1.same h).find? (fun p ↦ p.1.same (.atom a)) =
        entries.find? fun p ↦ p.1.same (.atom a) := by
    intro entries
    induction entries with
    | nil => rfl
    | cons p rest ih =>
      rw [List.filter_cons, List.find?_cons]
      by_cases hkey : p.1.same (.atom a) = true
      · have hkept : p.1.same h = false := by
          rw [Hint.same_atom.mp hkey]
          exact Bool.eq_false_iff.mpr fun hsame ↦ hne (Hint.atom_same.mp hsame)
        simp [hkey, hkept]
      · split <;> simp [hkey, ih]
  unfold find? forget
  rw [hfind]

theorem Memo.Agrees.trans {memo between after : Memo} (hfirst : memo.Agrees table tags between)
    (hsecond : between.Agrees table tags after) : memo.Agrees table tags after :=
  fun a ↦ (hsecond a).trans (hfirst a)

theorem Except.ok_of_toOption {α : Type} {found : Except Error α} {a : α}
    (hfound : found.toOption = some a) :
    found = .ok a := by
  cases found with
  | error e => cases hfound
  | ok b => exact congrArg Except.ok (Option.some.inj hfound)

/-- In a memory that agrees with an empty one, the schema of a type is what can be built. -/
theorem Memo.Agrees.buildSchema_eq {a : HintAtom} {schema : ClassSchema}
    (hagrees : ({} : Memo).Agrees table tags memo)
    (hschema : memo.schema? table tags (.atom a) = some schema) :
    buildSchema table tags (.atom a) = .ok schema :=
  Except.ok_of_toOption ((hagrees a).symm.trans hschema)

/-- To remember what can be built changes no schema. -/
theorem Memo.agrees_remember {schema : ClassSchema} (hnew : memo.find? h = none)
    (hbuilt : buildSchema table tags h = .ok schema) :
    memo.Agrees table tags (memo.remember h schema) := by
  intro a
  unfold schema?
  by_cases hsame : h.same (.atom a) = true
  · obtain rfl := Hint.same_atom.mp hsame
    have hfound : (memo.remember (.atom a) schema).find? (.atom a) = some schema := by
      simp [find?, remember, hsame]
    rw [hfound, hnew, hbuilt]
    rfl
  · simp [find?, remember, hsame]

/-- To forget what was not remembered at first changes no schema. -/
theorem Memo.agrees_forget {after : Memo} (hnew : memo.find? h = none)
    (hagrees : memo.Agrees table tags after) : memo.Agrees table tags (after.forget h) := by
  intro a
  by_cases hsame : h = .atom a
  · subst hsame
    unfold schema?
    rw [find?_forget_self, hnew]
  · rw [← hagrees a]
    unfold schema?
    rw [find?_forget_ne hsame]

/-! ### Reflection -/

/-- What is left to do for a type whose reflection was begun. -/
def reflectBegun (table : TypeTable) (tags : Tags) (depth : Nat) (h : Hint) :
    Reflecting ClassSchema := do
  let schema ← show Reflecting ClassSchema from
    match buildSchema table tags h with
    | .ok schema => pure schema
    | .error e => throw e
  modify (·.remember h schema)
  schema.references.forM fun nested ↦ do
    let memo ← get
    if (memo.find? nested).isNone && !memo.isInProgress nested then
      discard (reflectWithin table tags depth nested)
  modify (·.finish h)
  return schema

theorem reflectWithin_succ (depth : Nat) (h : Hint) :
    reflectWithin table tags (depth + 1) h = (do
      match (← get).find? h with
      | some schema => return schema
      | none =>
        if (← get).isInProgress h then throw (.unsupported (.reflectionInProgress h.shortName))
        modify (·.start h)
        tryCatch (reflectBegun table tags depth h) fun e ↦ do
          modify fun memo ↦ (memo.forget h).finish h
          throw e) := rfl

/-- What is done for a type that another one refers to. -/
def reflectNested (table : TypeTable) (tags : Tags) (depth : Nat) (g : Hint) :
    Reflecting PUnit := do
  let memo ← get
  if (memo.find? g).isNone && !memo.isInProgress g then
    discard (reflectWithin table tags depth g)

theorem reflectBegun_eq {depth : Nat} : reflectBegun table tags depth h = (do
    let schema ← show Reflecting ClassSchema from
      match buildSchema table tags h with
      | .ok schema => pure schema
      | .error e => throw e
    modify (·.remember h schema)
    schema.references.forM (reflectNested table tags depth)
    modify (·.finish h)
    return schema) := rfl

theorem run_reflectNested {depth : Nat} {g : Hint} :
    (reflectNested table tags depth g).run memo =
      if (memo.find? g).isNone && !memo.isInProgress g then
        (((reflectWithin table tags depth g).run memo).1.map fun _ ↦ ⟨⟩,
          ((reflectWithin table tags depth g).run memo).2)
      else (.ok ⟨⟩, memo) := by
  unfold reflectNested
  rw [Reflecting.run_bind, Reflecting.run_get]
  dsimp only
  split
  · rw [Reflecting.run_discard]
  · rfl

theorem run_reflectBegun {depth : Nat} :
    (reflectBegun table tags depth h).run memo =
      match buildSchema table tags h with
      | .error e => (.error e, memo)
      | .ok schema =>
        match ExceptT.run (schema.references.forM (reflectNested table tags depth))
            (memo.remember h schema) with
        | (.error e, after) => (.error e, after)
        | (.ok _, after) => (.ok schema, after.finish h) := by
  rw [reflectBegun_eq]
  cases buildSchema table tags h with
  | error e => rfl
  | ok schema =>
    simp only [Reflecting.run_bind, Reflecting.run_pure, Reflecting.run_modify]
    cases ExceptT.run (schema.references.forM (reflectNested table tags depth))
      (memo.remember h schema) with
    | mk answer after => cases answer <;> rfl

theorem run_reflectWithin_succ {depth : Nat} :
    (reflectWithin table tags (depth + 1) h).run memo =
      match memo.find? h with
      | some schema => (.ok schema, memo)
      | none =>
        if memo.isInProgress h
          then (.error (.unsupported (.reflectionInProgress h.shortName)), memo)
        else
          match (reflectBegun table tags depth h).run (memo.start h) with
          | (.ok schema, after) => (.ok schema, after)
          | (.error e, after) => (.error e, (after.forget h).finish h) := by
  rw [reflectWithin_succ, Reflecting.run_bind, Reflecting.run_get]
  cases hfind : memo.find? h with
  | some schema => simp [hfind]
  | none =>
    simp only [hfind, Reflecting.run_bind, Reflecting.run_get]
    split
    · rfl
    · simp only [Reflecting.run_bind, Reflecting.run_modify, Reflecting.run_tryCatch,
        Reflecting.run_throw]
      cases (reflectBegun table tags depth h).run (memo.start h) with
      | mk answer after => cases answer <;> rfl

theorem reflectBegun_spec {depth : Nat} {h : Hint} {memo : Memo}
    (hnested : ∀ g (m : Memo), m.Agrees table tags ((reflectWithin table tags depth g).run m).2)
    (hnew : memo.find? h = none) :
    memo.Agrees table tags ((reflectBegun table tags depth h).run memo).2 ∧
      ∀ schema, ((reflectBegun table tags depth h).run memo).1 = .ok schema →
        buildSchema table tags h = .ok schema := by
  have hreference : ∀ g (m : Memo), memo.Agrees table tags m →
      memo.Agrees table tags ((reflectNested table tags depth g).run m).2 := by
    intro g m hm
    rw [run_reflectNested]
    split
    · exact hm.trans (hnested g m)
    · exact hm
  rw [run_reflectBegun]
  cases hbuilt : buildSchema table tags h with
  | error e => exact ⟨fun _ ↦ rfl, fun schema hok ↦ nomatch hok⟩
  | ok schema =>
    have hreferences := Reflecting.forM_keeps hreference schema.references
      (Memo.agrees_remember hnew hbuilt)
    dsimp only
    cases hrun : ExceptT.run (schema.references.forM (reflectNested table tags depth))
        (memo.remember h schema) with
    | mk answer after =>
      rw [hrun] at hreferences
      cases answer with
      | error e => exact ⟨hreferences, fun schema hok ↦ nomatch hok⟩
      | ok found =>
        refine ⟨hreferences, fun found hok ↦ ?_⟩
        cases hok
        rfl

/-- Reflection changes no schema, and what it finds is the schema of the type. -/
theorem reflectWithin_spec (depth : Nat) (h : Hint) (memo : Memo) :
    memo.Agrees table tags ((reflectWithin table tags depth h).run memo).2 ∧
      ∀ schema, ((reflectWithin table tags depth h).run memo).1 = .ok schema →
        memo.schema? table tags h = some schema := by
  induction depth generalizing h memo with
  | zero => exact ⟨fun _ ↦ rfl, fun schema hok ↦ nomatch hok⟩
  | succ depth ih =>
    rw [run_reflectWithin_succ]
    cases hfind : memo.find? h with
    | some schema =>
      refine ⟨fun _ ↦ rfl, fun found hok ↦ ?_⟩
      cases hok
      simp [Memo.schema?, hfind]
    | none =>
      have hstarted : (memo.start h).find? h = none := hfind
      obtain ⟨hagrees, hbuilt⟩ := reflectBegun_spec (fun g m ↦ (ih g m).1) hstarted
      dsimp only
      split
      · exact ⟨fun _ ↦ rfl, fun schema hok ↦ nomatch hok⟩
      · cases hrun : (reflectBegun table tags depth h).run (memo.start h) with
        | mk answer after =>
          rw [hrun] at hagrees hbuilt
          cases answer with
          | error e =>
            have hforgotten : memo.Agrees table tags (after.forget h) :=
              Memo.agrees_forget hfind hagrees
            exact ⟨hforgotten, fun schema hok ↦ nomatch hok⟩
          | ok schema =>
            refine ⟨hagrees, fun found hok ↦ ?_⟩
            simp only [Memo.schema?, hfind, hbuilt found hok]
            rfl

/-- Reflection changes no schema. -/
theorem Memo.agrees_reflect (h : Hint) (memo : Memo) :
    memo.Agrees table tags ((reflect table tags h).run memo).2 :=
  (reflectWithin_spec _ h memo).1

/-- What reflection finds is the schema of the type. -/
theorem schema?_of_reflect {schema : ClassSchema}
    (hfound : ((reflect table tags h).run memo).1 = .ok schema) :
    memo.schema? table tags h = some schema :=
  (reflectWithin_spec _ h memo).2 schema hfound

end

end RuleMarshal
