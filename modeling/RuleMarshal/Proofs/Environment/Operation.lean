import RuleMarshal.Environment.Operations
import RuleMarshal.Proofs.Environment.Service
import RuleMarshal.Proofs.Environment.Transfer
/-!
Operations. What gives orders to the engine does so behind a guard, and so does what changes the
standing of an environment: behind its guard an operation has to meet what holds while no host
function runs. A pair of contracts, one for any time and one for such times, is met by the
operations that give orders (`Commanding`), and by those that remove constructs, end epochs or
register functions if it also allows these changes (`Governing`). In an orderly world evolution is
such a contract, from any state and from rest (`World.Orderly.governing`).
-/

set_option autoImplicit false
set_option relaxedAutoImplicit false

namespace RuleMarshal

open Act

/-- Whether a refusal of a command is made an error of this library. -/
def Command.isWrapped : Command → Bool
  | .run _ | .reset | .clear => false
  | _ => true

/-- A contract for any time and one for times when no host function runs, under which orders are
given. -/
structure Commanding (C C₀ : Contract) (world : World) : Prop
    extends Transferring C world fun c ↦ c.isGuarded = false where
  atRest : Inquiring C₀ world fun _ ↦ True
  guard : ∀ {α : Type} {next : PUnit → Act α} (operation : String),
    (next ⟨⟩).Meets C₀ world → (guardMutation operation >>= next).Meets C world
  command : ∀ c, c.isWrapped = false → (Channel.command c).Meets C₀ world
  bind : ∀ s name r, C₀.answered s { s with bound := putNamed s.bound name r }

/-- Contracts under which the standing of an environment is changed, too. -/
structure Governing (C C₀ : Contract) (world : World) : Prop extends Commanding C C₀ world where
  guardConcluding : ∀ {α : Type} {next : PUnit → Act α} (operation : String),
    (next ⟨⟩).Concludes C₀ world → (guardMutation operation >>= next).Concludes C world
  register : ∀ s name r, C₀.answered s { s with functions := putNamed s.functions name r }
  endData : ∀ s, C₀.answered s { s with dataEpoch := s.dataEpoch + 1 }
  endAll : ∀ s, C₀.answered s
    { s with constructEpoch := s.constructEpoch + 1, dataEpoch := s.dataEpoch + 1 }
  retire : ∀ kind name, (Act.retire kind name).Keeps C₀.answered world
  close : ∀ s, s.closed = false → C.answered s
    { s with
      closed := true
      constructEpoch := s.constructEpoch + 1
      dataEpoch := s.dataEpoch + 1 }

variable {world : World} {C C₀ : Contract}

section

variable (hC : Commanding C C₀ world)
include hC

/-! ### Orders -/

theorem meets_guardMutation (operation : String) : (guardMutation operation).Meets C world := by
  rw [← bind_pure (guardMutation operation)]
  exact hC.guard operation (.pure _)

theorem meets_createInstance (e : Expression) : (createInstance e).Meets C world := by
  refine hC.guard _ ((hC.atRest.eval trivial).bind fun v ↦ ?_)
  split
  · exact hC.atRest.instanceHandle _
  · exact .pure _
  · exact .throw _

theorem meets_assertCommand (e : Expression) : (assertCommand e).Meets C world :=
  hC.guard _ ((hC.atRest.eval trivial).bind fun v ↦ .of_keeps (.factIn v _))

namespace InstanceHandle

variable (h : InstanceHandle)

theorem meets_setSlot (name v : Value) : (h.setSlot name v).Meets C world :=
  (h.meets_check hC.toInquiring).bind fun _ ↦ hC.guard _ <|
    .bind (.of_keeps (.symbol .slot name)) fun _ ↦ .bind (.of_keeps (.term v)) fun _ ↦
      (hC.atRest.eval trivial).discard

theorem meets_delete : h.delete.Meets C world :=
  (h.meets_check hC.toInquiring).bind fun _ ↦ hC.guard _ <|
    (hC.atRest.evalTrue trivial).bind fun _ ↦ .ite (.throw _) (.pure _)

theorem meets_unmake : h.unmake.Meets C world :=
  (h.meets_check hC.toInquiring).bind fun _ ↦ hC.guard _ <|
    (hC.atRest.evalTrue trivial).bind fun _ ↦ .ite (.throw _) (.pure _)

end InstanceHandle

namespace FactHandle

variable (h : FactHandle)

theorem meets_retract : h.retract.Meets C world :=
  (h.meets_check hC.toInquiring).bind fun _ ↦ hC.guard _ (hC.atRest.eval trivial).discard

theorem meets_modify (changes : List (String × Value)) : (h.modify changes).Meets C world := by
  refine (h.meets_check hC.toInquiring).bind fun _ ↦ hC.guard _ ?_
  refine (h.meets_isOrdered hC.atRest).bind fun ordered ↦ .refuse ?_
  exact .bind (.of_keeps (.slotTerms changes)) fun _ ↦
    (hC.atRest.eval trivial).bind fun v ↦ .of_keeps (.factIn v _)

end FactHandle

theorem ClassHandle.meets_newInstance (h : ClassHandle) (name : Value)
    (slots : List (String × Value)) : (h.newInstance name slots).Meets C world := by
  have hcreate : ∀ name, Act.Meets C world (do
      createInstance (.makeInstance name h.name (← slotTerms slots)) : Act InstanceHandle) :=
    fun name ↦ .bind (.of_keeps (.slotTerms slots)) fun _ ↦ meets_createInstance hC _
  refine (h.meets_check hC.toInquiring).bind fun _ ↦ ?_
  dsimp only
  split
  · exact .bind (.pure _) hcreate
  · exact .bind (.map _ (.ofExcept _)) hcreate

theorem meets_insert (v name : Value) : (insert v name).Meets C world := by
  refine (meets_guardMutation hC "insert").bind fun _ ↦ .bind .get fun s ↦ .reading ?_
  split
  · exact .throw _
  · exact .map _ (hC.insertWithin (meets_createInstance hC) _ _ _ _ {})

/-! ### Pending facts -/

namespace Builder

theorem meets_ofTemplate (h : TemplateHandle) : (ofTemplate h).Meets C world :=
  (h.meets_check hC.toInquiring).bind fun _ ↦ (h.meets_isOrdered hC.toInquiring).bind
    fun _ ↦ .of_keeps (keeps_alloc hC.free _)

omit hC in
theorem meets_read (id : Nat) : (read id).Meets C world := by
  refine .bind .get fun s ↦ ?_
  split
  · exact .pure _
  · exact .throw _

theorem meets_write (id : Nat) (b : Builder) : (write id b).Meets C world :=
  .of_keeps (keeps_put hC.free id _)

theorem meets_append (id : Nat) (v : Value) : (append id v).Meets C world :=
  (meets_read id).bind fun _ ↦ .bind (.ofExcept _) fun _ ↦ .bind (.of_keeps (.encode v)) fun _ ↦
    (meets_read id).bind fun _ ↦ meets_write hC id _

theorem meets_extend (id : Nat) (values : Value) : (extend id values).Meets C world :=
  (meets_read id).bind fun _ ↦ .bind (.ofExcept _) fun _ ↦ .bind .get fun _ ↦
    .bind (.ofExcept _) fun items ↦ .forM items fun v _ ↦ .bind (.of_keeps (.encode v)) fun _ ↦
      (meets_read id).bind fun _ ↦ meets_write hC id _

theorem meets_set (id : Nat) (key v : Value) : (set id key v).Meets C world := by
  refine (meets_read id).bind fun b ↦ .ite (.bind (.ofExcept _) fun _ ↦ ?_)
    (.bind (.ofExcept _) fun _ ↦ .bind (.of_keeps (.encode v)) fun _ ↦
      .bind (.of_keeps (.written key)) fun _ ↦ .bind (.of_keeps (.symbol .slot _)) fun _ ↦
        (meets_read id).bind fun _ ↦ meets_write hC id _)
  split
  · exact .throw _
  · exact .bind (.of_keeps (.encode v)) fun _ ↦ (meets_read id).bind fun _ ↦
      .bind (.ofExcept _) fun _ ↦ meets_write hC id _

theorem meets_update (id : Nat) (slots : List (String × Value)) :
    (update id slots).Meets C world :=
  .forM slots fun p _ ↦ meets_set hC id _ p.2

omit hC in
theorem meets_render (id : Nat) : (render id).Meets C world :=
  (meets_read id).bind fun _ ↦ .bind (.ofExcept _) fun _ ↦ .pure _

theorem meets_assertFact (id : Nat) : (assertFact id).Meets C world :=
  (meets_read id).bind fun b ↦ .refuse <| (b.template.meets_check hC.toInquiring).bind
    fun _ ↦ (meets_read id).bind fun _ ↦ .bind (.ofExcept _) fun e ↦
      (meets_assertCommand hC e).bind fun _ ↦ (meets_read id).bind
        fun _ ↦ (meets_write hC id _).bind fun _ ↦ .pure _

end Builder

/-! ### Operations of an environment -/

namespace Environment

omit hC in
theorem meets_sent (v : Value) : (sent v).Meets C world := by
  refine .bind .get fun s ↦ ?_
  dsimp only
  split
  · exact .pure _
  · exact .throw _

omit hC in
theorem meets_expression (v : Value) : (expression v).Meets C world :=
  (meets_sent v).bind fun _ ↦ .pure _

omit hC in
theorem meets_functionName (f : Callable) (name : Value) : (functionName f name).Meets C world := by
  refine .bind .get fun s ↦ .ite (.bind (.ofExcept _) fun content ↦ ?_) ?_
  · exact .ite (.pure _) (.throw _)
  · dsimp only
    split
    · exact .throw _
    · exact .ite (.pure _) (.throw _)

theorem meets_build (construct : Value) : (build construct).Meets C world :=
  (meets_guardMutation hC "build").bind fun _ ↦ hC.checked <|
    (meets_sent construct).bind fun given ↦ hC.build given

omit hC in
theorem meets_evaluate {allowed : Command → Prop} (hI : Inquiring C world allowed) (v : Value) :
    (evaluate v).Meets C world := by
  unfold evaluate expression
  rw [bind_assoc]
  refine (meets_sent v).bind fun given ↦ ?_
  rw [pure_bind]
  split <;> exact hI.eval (hI.unguarded _ rfl)

theorem meets_extractFrom (v into : Value) : (extractFrom v into).Meets C world :=
  (meets_evaluate hC.toInquiring v).bind fun _ ↦ hC.extract _ into

theorem meets_instances : instances.Meets C world :=
  (hC.eval rfl).bind fun v ↦ hC.instancesIn v

theorem meets_findInstance (name : String) : (findInstance name).Meets C world :=
  (hC.instanceHandle name).bind fun h ↦ (h.meets_isAlive hC.toInquiring).bind fun _ ↦ .pure _

theorem meets_templates : templates.Meets C world :=
  (hC.names rfl).bind fun names ↦ .mapM names fun name _ ↦ hC.templateHandle (.text name)

theorem concludes_findTemplate (name : Value) : (findTemplate name).Concludes C world :=
  .after (.ofExcept _) fun _ ↦ .ite (.of_meets (.pure _)) <|
    .after (hC.templateHandle name) fun h ↦
      (hC.templateAlive h).answering fun alive ↦ if alive then some h else none

theorem meets_classes : classes.Meets C world :=
  (hC.names rfl).bind fun names ↦ hC.classHandles names

theorem meets_findClass (name : Value) : (findClass name).Meets C world :=
  .bind (.ofExcept _) fun _ ↦ .ite (.pure _) <| (hC.classHandle name).bind fun h ↦
    (h.meets_isAlive hC.toInquiring).bind fun _ ↦ .pure _

theorem meets_load (path : String) : (load path).Meets C world :=
  hC.guard _ (hC.atRest.checked (hC.atRest.send _ trivial _ _).discard)

theorem meets_batch (path : String) : (batch path).Meets C world :=
  hC.guard _ (hC.atRest.checked (hC.atRest.send _ trivial _ _).discard)

theorem meets_run (limit : Value) : (run limit).Meets C world :=
  hC.guard _ (hC.atRest.checked ((meets_sent limit).bind fun _ ↦ hC.command _ rfl))

theorem meets_makeInstance (command : Value) : (makeInstance command).Meets C world :=
  (meets_guardMutation hC "make_instance").bind fun _ ↦ (meets_expression command).bind
    fun e ↦ meets_createInstance hC e

theorem meets_assertBy (command : Value) : (assertBy command).Meets C world :=
  (meets_guardMutation hC "assert").bind fun _ ↦ (meets_expression command).bind
    fun e ↦ meets_assertCommand hC e

theorem meets_assertText (fact : Value) : (assertText fact).Meets C world := by
  refine hC.guard _ ?_
  split
  · exact .throw _
  · exact .throw _
  · exact (hC.atRest.eval trivial).bind fun v ↦ .of_keeps (.factIn v _)

theorem meets_bindFunction (name : String) (r : Registration) :
    (Channel.bindFunction name r).Meets C₀ world :=
  (hC.atRest.send _ trivial _ _).discard.bind fun _ ↦
    .of_keeps (.modify fun s ↦ hC.bind s name r)

theorem meets_restore : restore.Meets C₀ world := by
  refine .bind .get fun s ↦ .forM s.functions fun p _ ↦ ?_
  refine (hC.atRest.isTrue trivial).bind fun known ↦ .ite ?_ (.pure _)
  exact meets_bindFunction hC p.1 p.2

theorem meets_start : start.Meets C world :=
  .bind .read fun _ ↦ .forM _ fun path _ ↦ meets_load hC path

end Environment

end

/-! ### Changes of the standing -/

section

variable (hC : Governing C C₀ world)
include hC

namespace Environment

theorem meets_reset : reset.Meets C world :=
  hC.guard _ <| (hC.atRest.checked (hC.command _ rfl)).discard.bind fun _ ↦
    .of_keeps (.modify hC.endData)

theorem meets_clear : clear.Meets C world :=
  hC.guard _ <| (hC.command _ rfl).discard.bind fun _ ↦
    .bind (.of_keeps (.modify hC.endAll)) fun _ ↦ meets_restore hC.toCommanding

omit hC in
theorem runIn_close (s : State) :
    close.runIn world s =
      (.ok ⟨⟩, if s.closed then s else
        { s with
          closed := true
          constructEpoch := s.constructEpoch + 1
          dataEpoch := s.dataEpoch + 1 }) := by
  unfold close endEpochs
  rw [runIn_bind, runIn_get]
  cases hclosed : s.closed <;> simp [hclosed, runIn_bind]

theorem meets_close : close.Meets C world := by
  refine .of_keeps fun s ↦ ?_
  rw [runIn_close]
  cases hclosed : s.closed with
  | true => exact C.refl s
  | false => exact hC.close s hclosed

theorem meets_register (f : Callable) (name : Value) : (register f name).Meets C world := by
  refine hC.guard _ ((meets_functionName f name).bind fun text ↦ .reading ?_)
  refine .bind (.ofExcept _) fun signature ↦ hC.atRest.nextSerial.bind fun _ ↦ .bind .get fun s ↦ ?_
  refine (meets_bindFunction hC.toCommanding _ _).bind fun _ ↦ .bind ?_ fun _ ↦ .pure _
  exact .of_keeps (.modify fun s ↦ hC.register s _ _)

end Environment

theorem TemplateHandle.concludes_undefine (h : TemplateHandle) : h.undefine.Concludes C world :=
  .after (h.meets_check hC.toInquiring) fun _ ↦ hC.guardConcluding _ <|
    .after (hC.atRest.eval trivial).discard fun _ ↦
      (hC.atRest.templateAlive h).refuse fun s ↦ ⟨_, rfl, hC.retire .template h.name s⟩

theorem ClassHandle.meets_undefine (h : ClassHandle) : h.undefine.Meets C world :=
  (h.meets_check hC.toInquiring).bind fun _ ↦ hC.guard _ <|
    (hC.atRest.eval trivial).discard.bind fun _ ↦ (h.meets_isAlive hC.atRest).bind fun _ ↦
      .refuse (.of_keeps (hC.retire .defclass h.name))

end

/-! ### Evolution -/

section

variable {m : Manner}

theorem Evolves.leavesHostFree : LeavesHostFree (Evolves world.setup m) :=
  fun s heap readings named labels visited _ ↦
    .books m s heap readings named labels s.parked visited s.serial s.calls

variable (hworld : world.Orderly)
include hworld

theorem World.Orderly.commanding (hmanner : m ≠ .asking) :
    Commanding (.ofRelation (Evolves world.setup m))
      (.ofRelation (FromRest world.setup m)) world where
  toTransferring := (hworld.frame m).transferring Evolves.leavesHostFree
  atRest := (hworld.frameFromRest hmanner).inquiring
  guard _ hnext := Meets.iff_keeps.mpr (.afterGuard (Meets.iff_keeps.mp hnext))
  command _ _ := Meets.iff_keeps.mpr ((hworld.frameFromRest hmanner).command trivial)
  bind s name r hrest := .bind m s hmanner hrest name r

theorem World.Orderly.governing :
    Governing (.ofRelation (Evolves world.setup .acting))
      (.ofRelation (FromRest world.setup .acting)) world where
  toCommanding := hworld.commanding (by decide)
  guardConcluding _ hnext := .of_meets <| Meets.iff_keeps.mpr <| .afterGuard <|
    hnext.keeps (fun _ _ ↦ id) fun _ _ _ ↦ id
  register s name r hrest := .register s hrest name r
  endData s hrest := .endData s hrest
  endAll s hrest := .endAll s hrest
  retire kind name s hrest := .retire s hrest kind name
  close s hopen := .close s hopen

theorem keeps_createInstance (hmanner : m ≠ .asking) (e : Expression) :
    (createInstance e).Keeps (Evolves world.setup m) world :=
  Meets.iff_keeps.mp (meets_createInstance (hworld.commanding hmanner) e)

theorem Environment.keeps_restore (hmanner : m ≠ .asking) :
    restore.Keeps (FromRest world.setup m) world :=
  Meets.iff_keeps.mp (meets_restore (hworld.commanding hmanner))

end

end RuleMarshal
