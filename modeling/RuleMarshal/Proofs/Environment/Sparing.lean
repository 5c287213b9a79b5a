import RuleMarshal.Proofs.Computation.Raising
import RuleMarshal.Proofs.Computation.Result
import RuleMarshal.Proofs.Environment.Relay
import RuleMarshal.Proofs.Schema.Slot
/-!
Refusals of values, and what never raises them. A value is refused where it has no form that the
engine takes, or is none of what a slot refers to (`Error.refusesValue`). The making ready of a
class and the question for a name have no values in them that could be refused: they spare values
(`spares_prepare`, `spares_freshName`). The order of an instance fails with nothing but what the
command came to (`failsByCommands_createInstance`). All this is so as long as the integers that the
engine hands over are such as it takes itself, and what is parked is a failed call.
-/

set_option autoImplicit false
set_option relaxedAutoImplicit false

namespace RuleMarshal

open Act

/-! ### Refusals -/

/-- Whether an error is the refusal of a value: it is of a type or size that has no form under the
declared type, or has no text, or is not of the struct type that a slot refers to. -/
def Error.refusesValue : Error → Bool
  | .unsupported (.noRepresentation _) | .unsupported (.absentNotAllowed _)
  | .unsupported (.sequenceExpected ..) | .unsupported (.typeExpected ..)
  | .unsupported (.noFloatLiteral _) | .unsupported (.noText _) => true
  | .outOfRange _ => true
  | .mismatch (.sequenceExpected ..) | .mismatch (.structExpected ..) => true
  | _ => false

/-- Whether an error is what a command may come to: the engine refused it, a call of a host function
failed meanwhile, or the environment was closed. -/
def Error.answersCommand (e : Error) : Bool :=
  match e.class? with
  | some .construction | some .call | some .stale => true
  | _ => false

/-- From states in which nothing but a failed call is parked, a computation never refuses a
value. -/
abbrev Act.Spares (world : World) {α : Type} (act : Act α) : Prop :=
  act.Raises State.ParksCall (·.refusesValue = false) world

/-- A computation that carries a state of its own never refuses a value if it does so from no such
state. -/
abbrev Carrying.Spares (world : World) {σ α : Type} (act : StateT σ Act α) : Prop :=
  Carrying.Raises State.ParksCall (·.refusesValue = false) world act

/-- From states in which nothing but a failed call is parked, a computation fails with nothing but
what a command came to. -/
abbrev Act.FailsByCommands (world : World) {α : Type} (act : Act α) : Prop :=
  act.Raises State.ParksCall (·.answersCommand = true) world

theorem Error.answersCommand_of_call {e : Error} (he : e.class? = some .call) :
    e.answersCommand = true := by
  rw [answersCommand, he]

theorem Error.refusesValue_of_answersCommand {e : Error} (he : e.answersCommand = true) :
    e.refusesValue = false := by
  cases e <;> first | rfl | cases he

theorem Act.FailsByCommands.spares {world : World} {α : Type} {act : Act α}
    (hact : act.FailsByCommands world) :
    act.Spares world :=
  hact.mono fun _ ↦ Error.refusesValue_of_answersCommand

theorem HostFault.refusesValue_inDeclaration (fault : HostFault) (owner : String) :
    (fault.inDeclaration owner).refusesValue = false := by
  cases fault <;> rfl

theorem Hint.refusesValue_itemsRefused (h : Hint) : h.itemsRefused.refusesValue = false := by
  unfold itemsRefused
  split <;> rfl

/-! ### Schemas -/

section

variable {table : TypeTable} {tags : Tags} {h : Hint} {e : Error}

theorem TypeTable.spares_className (hrefused : table.className h = .error e) :
    e.refusesValue = false := by
  unfold className at hrefused
  dsimp only at hrefused
  split at hrefused
  · cases hrefused
  · cases hrefused
    rfl

theorem TypeTable.spares_fields (hrefused : table.fields tags h = .error e) :
    e.refusesValue = false := by
  unfold fields at hrefused
  dsimp only at hrefused
  split at hrefused
  · split at hrefused
    · unfold structFields at hrefused
      dsimp only at hrefused
      split at hrefused
      · obtain hhints | ⟨hints, -, hreturn⟩ := Except.cases_of_bind_error hrefused
        · cases hresolved : table.resolvedHints _ with
          | ok hints => rw [hresolved] at hhints; cases hhints
          | error fault =>
            rw [hresolved] at hhints
            cases hhints
            exact fault.refusesValue_inDeclaration _
        · cases hreturn
      · cases hrefused
      · cases hrefused
      · cases hrefused
        rfl
    · cases hrefused
      rfl
  · rename_i kind
    cases kind <;> cases hrefused <;> rfl
  · cases hrefused
    rfl

theorem spares_slotHolding {owner : String} {f : Field} {m : Hint} {optional multi : Bool}
    (hrefused : f.slotHolding table owner m optional multi = .error e) :
    e.refusesValue = false := by
  unfold Field.slotHolding at hrefused
  split at hrefused
  · cases hrefused
    rfl
  · rename_i kind referred hkind
    obtain hreference | ⟨reference, -, hreturn⟩ := Except.cases_of_bind_error hrefused
    · cases referred with
      | none => cases hreference
      | some h =>
        obtain hnamed | ⟨named, -, hreturn⟩ := Except.cases_of_bind_error hreference
        · obtain hname | ⟨name, -, hreturn⟩ := Except.cases_of_bind_error hnamed
          · exact table.spares_className hname
          · cases hreturn
        · cases hreturn
    · cases hreturn

theorem spares_reflectField {owner : String} {f : Field}
    (hrefused : reflectField table owner f = .error e) :
    e.refusesValue = false := by
  unfold reflectField at hrefused
  dsimp only at hrefused
  split at hrefused
  · cases hrefused
    rfl
  · split at hrefused
    · cases hrefused
      exact Hint.refusesValue_itemsRefused _
    · exact spares_slotHolding hrefused
    · split at hrefused
      · exact spares_slotHolding hrefused
      · cases hrefused
        rfl
      · cases hrefused
        exact Hint.refusesValue_itemsRefused _

theorem spares_reflectFields {owner : String} {fields : List Field} {slots : List SlotSchema}
    (hrefused : reflectFields table owner fields slots = .error e) : e.refusesValue = false := by
  induction fields generalizing slots with
  | nil => cases hrefused
  | cons f rest ih =>
    obtain hslot | ⟨slot, -, hrest⟩ := Except.cases_of_bind_error hrefused
    · exact spares_reflectField hslot
    · dsimp only at hrest
      split at hrest
      · cases hrest
        rfl
      · exact ih hrest

theorem spares_buildSchema (hrefused : buildSchema table tags h = .error e) :
    e.refusesValue = false := by
  obtain hname | ⟨name, -, hrest⟩ := Except.cases_of_bind_error hrefused
  · exact table.spares_className hname
  · dsimp only at hrest
    split at hrest
    · cases hrest
      rfl
    · obtain hfields | ⟨fields, -, hslots⟩ := Except.cases_of_bind_error hrest
      · exact table.spares_fields hfields
      · obtain hslots | ⟨slots, -, hreturn⟩ := Except.cases_of_bind_error hslots
        · exact spares_reflectFields hslots
        · cases hreturn

/-- Reflection fails by the declarations of types, not by values. -/
theorem spares_reflectWithin {depth : Nat} {memo : Memo}
    (hrefused : ((reflectWithin table tags depth h).run memo).1 = .error e) :
    e.refusesValue = false := by
  induction depth generalizing h memo with
  | zero =>
    cases hrefused
    rfl
  | succ depth ih =>
    rw [run_reflectWithin_succ] at hrefused
    split at hrefused
    · cases hrefused
    · split at hrefused
      · cases hrefused
        rfl
      · rw [run_reflectBegun] at hrefused
        cases hbuilt : buildSchema table tags h with
        | error raised =>
          rw [hbuilt] at hrefused
          cases hrefused
          exact spares_buildSchema hbuilt
        | ok schema =>
          rw [hbuilt] at hrefused
          dsimp only at hrefused
          cases hrun : ExceptT.run (schema.references.forM (reflectNested table tags depth))
              ((memo.start h).remember h schema) with
          | mk answer after =>
            rw [hrun] at hrefused
            cases answer with
            | ok found => cases hrefused
            | error raised =>
              cases hrefused
              obtain ⟨g, m, hnested⟩ := Reflecting.exists_of_forM_error (congrArg Prod.fst hrun)
              rw [run_reflectNested] at hnested
              split at hnested
              · cases hanswer : ((reflectWithin table tags depth g).run m).1 with
                | ok found => simp [hanswer, Except.map] at hnested
                | error refusal =>
                  rw [hanswer] at hnested
                  cases hnested
                  exact ih hanswer
              · cases hnested

end

/-! ### What the engine is asked -/

mutual

/-- Whether the integers in what the engine hands over are such as it takes itself. -/
def Native.Fits : Native → Prop
  | .int n => FitsEngine n
  | .list items => nativesFit items
  | _ => True

/-- Whether the integers in a list are such as the engine takes. -/
def nativesFit : List Native → Prop
  | [] => True
  | v :: rest => v.Fits ∧ nativesFit rest

end

/-- An engine whose answers hold no integers but such as it takes itself. -/
def AnswersFit (engine : Array Event → Command → Reply) : Prop :=
  ∀ history c v, (engine history c).outcome = .ok v → v.Fits

section

variable {world : World}

mutual

theorem Native.failsByCommands_toEngine : ∀ v : Native, v.Fits → v.toEngine.FailsByCommands world
  | .null, _ | .bool _, _ | .float _, _ | .text _, _ | .symbol _, _ | .instanceName _, _
  | .external _, _ => .pure _
  | .int n, hn => .ofExcept fun e he ↦ by
    have hanswer : EngineValue.ofInt n = .ok (.integer n hn) := dif_pos hn
    cases hanswer.symm.trans he
  | .list items, hitems => (failsByCommands_nativesToEngine items hitems).bind fun _ ↦ .pure _
  | .inst _, _ | .fact _ _, _ => by
    refine Act.Raises.bind ?_ fun _ ↦ .pure _
    exact .bind (.modifyGet fun s ↦ id) fun _ ↦ .bind .get fun _ ↦ .pure _

theorem failsByCommands_nativesToEngine :
    ∀ vs : List Native, nativesFit vs → (nativesToEngine vs).FailsByCommands world
  | [], _ => .pure _
  | v :: rest, hvs => (v.failsByCommands_toEngine hvs.1).bind fun _ ↦
      (failsByCommands_nativesToEngine rest hvs.2).bind fun _ ↦ .pure _

end

theorem spares_schemaOf (h : Hint) : (schemaOf h).Spares world where
  passesOn _ := id
  raised {s t e} _ hrun := by
    have hrefused : ((reflect world.types world.config.tags h).run s.memo).1 = .error e :=
      congrArg Prod.fst hrun
    exact spares_reflectWithin hrefused

theorem failsByCommands_checked {α : Type} {act : Act α} (hact : act.FailsByCommands world) :
    act.checked.FailsByCommands world where
  passesOn s hs := by
    cases hrun : act.checked.runIn world s with
    | mk answer t =>
      obtain ⟨found, u, hfound, rfl | rfl, -⟩ := cases_of_checked hrun
      · exact hact.passesOn.of_runIn hfound hs
      · exact nofun
  raised hs hrun := by
    obtain ⟨found, u, hfound, -, rfl | ⟨failure, hparked, hfailed⟩⟩ := cases_of_checked hrun
    · exact hact.raised hs hfound
    · cases hfailed
      exact Error.answersCommand_of_call (hact.passesOn.of_runIn hfound hs _ hparked)

variable (hworld : world.EndsCalls) (hfits : AnswersFit world.engine)
include hworld

theorem failsByCommands_send (c : Command) (refusal : Construction) (sent : Native) :
    (Channel.send c refusal sent).FailsByCommands world where
  passesOn s hs := by
    cases hopen : s.closed with
    | true =>
      unfold Channel.send
      rw [Channel.runIn_requireOpen_bind, if_pos hopen]
      exact hs
    | false =>
      obtain ⟨t, hsent, hover, -⟩ := hworld.runIn_send c refusal sent hopen
      rw [hsent]
      exact hover.parks hs
  raised {s t e} hs hrun := by
    cases hopen : s.closed with
    | true =>
      unfold Channel.send at hrun
      rw [Channel.runIn_requireOpen_bind, if_pos hopen] at hrun
      cases hrun
      rfl
    | false =>
      obtain ⟨u, hsent, -, -⟩ := hworld.runIn_send c refusal sent hopen
      rw [hsent] at hrun
      cases houtcome : (world.engine s.history c).outcome with
      | ok v => rw [houtcome] at hrun; cases hrun
      | error diagnostic =>
        rw [houtcome] at hrun
        cases hrun
        rfl

theorem failsByCommands_build (construct : Native) :
    (Channel.build construct).FailsByCommands world :=
  (failsByCommands_send hworld _ _ _).map _

include hfits

theorem fits_of_send {c : Command} {refusal : Construction} {sent v : Native} {s t : State}
    (hrun : (Channel.send c refusal sent).runIn world s = (.ok v, t)) : v.Fits := by
  cases hopen : s.closed with
  | true =>
    unfold Channel.send at hrun
    rw [Channel.runIn_requireOpen_bind, if_pos hopen] at hrun
    cases hrun
  | false =>
    obtain ⟨u, hsent, -, -⟩ := hworld.runIn_send c refusal sent hopen
    rw [hsent] at hrun
    cases houtcome : (world.engine s.history c).outcome with
    | error diagnostic => rw [houtcome] at hrun; cases hrun
    | ok answer =>
      rw [houtcome] at hrun
      cases hrun
      exact hfits _ _ _ houtcome

theorem failsByCommands_evaluate (e : Expression) : (Channel.evaluate e).FailsByCommands world where
  passesOn := (failsByCommands_send hworld _ _ _).passesOn.bind fun v ↦
    v.keeps_toEngine fun _ _ ↦ id
  raised hs hrun := by
    obtain hsend | ⟨v, u, hsend, htake⟩ := cases_of_bind_error hrun
    · exact (failsByCommands_send hworld _ _ _).raised hs hsend
    · exact (v.failsByCommands_toEngine (fits_of_send hworld hfits hsend)).raised
        ((failsByCommands_send hworld _ _ _).passesOn.of_runIn hsend hs) htake

theorem failsByCommands_eval (e : Expression) : (eval e).FailsByCommands world :=
  failsByCommands_checked (failsByCommands_evaluate hworld hfits e)

theorem failsByCommands_isTrue (e : Expression) : (Channel.isTrue e).FailsByCommands world :=
  (failsByCommands_evaluate hworld hfits e).bind fun _ ↦ .pure _

theorem failsByCommands_names (e : Expression) : (Channel.names e).FailsByCommands world :=
  (failsByCommands_evaluate hworld hfits e).bind fun _ ↦ .pure _

/-! ### Classes, names and instances -/

theorem spares_verify (schema : ClassSchema) : (verify schema).Spares world := by
  refine (failsByCommands_isTrue hworld hfits _).spares.bind fun defined ↦ ?_
  have hrest : Act.Spares world (do
      let present ← Channel.names (.classSlots schema.name)
      schema.slots.forM (verifySlot schema.name present) : Act Unit) := by
    refine (failsByCommands_names hworld hfits _).spares.bind fun present ↦ .forM _ fun slot _ ↦ ?_
    have hfacets : Act.Spares world (do
        let facets ← Channel.names (.classFacet .all schema.name slot.name)
        if listsMulti facets ≠ slot.multi then
          throw (.mismatch (.cardinality schema.name slot.name slot.multi)) : Act Unit) :=
      (failsByCommands_names hworld hfits _).spares.bind fun facets ↦ .ite (.throw rfl) (.pure _)
    exact .ite (.bind (.throw rfl) fun _ ↦ hfacets) hfacets
  exact .ite (.bind (.throw rfl) fun _ ↦ hrest) hrest

theorem spares_synthesizeWithin (depth : Nat) (schema : ClassSchema) :
    Carrying.Spares world (synthesizeWithin depth schema) := by
  induction depth generalizing schema with
  | zero => exact .throw rfl
  | succ depth ih =>
    unfold synthesizeWithin
    refine .bind .get fun done ↦ .ite (.pure _) ?_
    refine .bind (.lift (failsByCommands_isTrue hworld hfits _).spares) fun defined ↦
      .ite (.pure _) ?_
    refine .bind (.modify _) fun _ ↦ .bind (.foldlM _ _ fun forward nested _ ↦ ?_) fun forward ↦ ?_
    · refine .bind (.lift (spares_schemaOf nested)) fun nestedSchema ↦ .bind .get fun now ↦ ?_
      exact .ite (.pure _) ((ih nestedSchema).bind fun _ ↦ .pure _)
    · refine .bind (.lift .read) fun _ ↦
        .bind (.lift (failsByCommands_build hworld _).spares) fun _ ↦ .modify _

theorem spares_synthesize (h : Hint) : (synthesize h).Spares world :=
  (spares_schemaOf h).bind fun schema ↦ .bind .read fun _ ↦
    (spares_synthesizeWithin hworld hfits _ schema {}).bind fun _ ↦ .pure _

/-- No value is refused while a class is made ready. -/
theorem spares_prepare (h : Hint) : Carrying.Spares world (prepare h) := by
  refine .bind (.lift (spares_schemaOf h)) fun schema ↦ .bind .get fun done ↦ .ite (.pure _) ?_
  have hrest : Carrying.Spares world (do
      verify schema
      modify fun s ↦ { s with prepared := h :: s.prepared }
      return schema : Inserting ClassSchema) :=
    .bind (.lift (spares_verify hworld hfits schema)) fun _ ↦ .bind (.modify _) fun _ ↦ .pure _
  exact .bind (.lift .read) fun _ ↦
    .ite (.bind ((Carrying.Raises.lift (spares_synthesize hworld hfits h)).map _) fun _ ↦ hrest)
      hrest

theorem spares_freshName : freshName.Spares world := by
  refine (failsByCommands_eval hworld hfits _).spares.bind fun v ↦ ?_
  split
  · exact .pure _
  · exact .throw rfl

/-- The order of an instance fails with nothing but what the command came to. -/
theorem failsByCommands_createInstance (e : Expression) :
    (createInstance e).FailsByCommands world := by
  have hguard : ∀ operation : String, (guardMutation operation).FailsByCommands world := by
    intro operation
    refine .bind (.bind .get fun s ↦ .ite (.throw rfl) (.pure _)) fun _ ↦ ?_
    exact .bind .get fun s ↦ .ite (.throw rfl) (.pure _)
  refine (hguard _).bind fun _ ↦ (failsByCommands_eval hworld hfits e).bind fun v ↦ ?_
  split
  · exact .bind (.modifyGet fun s ↦ id) fun _ ↦ .bind .get fun _ ↦ .pure _
  · exact .pure _
  · exact .throw rfl

end

end RuleMarshal
