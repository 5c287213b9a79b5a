import RuleMarshal.Proofs.Environment.Host
/-!
Transfers between the host program and the engine. An insertion meets a contract if inquiries do and
the making of an instance does (`Inquiring.insertWithin`). The extraction of an engine value meets
it if besides the making of cells is free, and the filling of those that were made
(`Extracting.extractWithin`). An extraction into anything meets it if the host program is left free
and failures to convert may be followed (`Transferring.extract`). Frames are such contracts.
-/

set_option autoImplicit false
set_option relaxedAutoImplicit false

namespace RuleMarshal

open Act

variable {world : World} {allowed : Command → Prop} {R : State → State → Prop}

/-! ### What is built -/

section

variable [IsPreorder State R] {own : Nat → Prop} (hbuild : Building world R own)
include hbuild

theorem Initial.keeps_value (initial : Initial) : initial.value.Keeps R world := by
  cases initial with
  | shared v => exact .pure v
  | anew built => exact built.keeps_readWithin hbuild callLimit

theorem keeps_fillModel {id : Nat} (hid : own id) (struct : String) (fields : List FieldDeclaration)
    (supplied : List (String × Value)) :
    (fillModel (.object struct id) fields supplied).Keeps R world := by
  induction fields generalizing supplied with
  | nil => exact .pure _
  | cons f rest ih =>
    unfold fillModel
    dsimp only
    split
    · exact (hbuild.keeps_assign hid struct f.attr _).bind fun _ ↦ ih _
    · split
      · exact (Initial.keeps_value hbuild _).bind fun v ↦
          (hbuild.keeps_assign hid struct f.attr v).bind fun _ ↦ ih _
      · exact ih _

/-- A new object is in a cell of one's own. -/
theorem keeps_afterBlank {α : Type} (dest : Hint) (fields : List Field) {next : Value → Act α}
    (hnext : ∀ struct id, own id → (next (.object struct id)).Keeps R world) :
    (blank dest fields >>= next).Keeps R world := by
  have hinitial : ∀ f : Field, Act.Keeps R world (do
      (← MonadExcept.ofExcept f.initial : Initial).value : Act Value) :=
    fun f ↦ .bind (.ofExcept _) fun initial ↦ initial.keeps_value hbuild
  have hfilled : ∀ name, ((blank.filled fields name fun f ↦ do
      (← MonadExcept.ofExcept f.initial : Initial).value) >>= next).Keeps R world := by
    intro name
    unfold blank.filled
    rw [bind_assoc]
    refine hbuild.alloc _ fun id hid ↦ ?_
    rw [bind_assoc]
    refine .bind (.forM fields fun f _ ↦ (hinitial f).bind fun v ↦
      hbuild.keeps_assign hid name f.attr v) fun _ ↦ ?_
    rw [pure_bind]
    exact hnext name id hid
  unfold blank
  rw [bind_assoc]
  refine .reading ?_
  dsimp only
  split
  · split
    · split
      · rw [bind_assoc]
        refine .bind (.mapM fields fun f _ ↦ (hinitial f).bind fun _ ↦ .pure _) fun supplied ↦ ?_
        rw [bind_assoc]
        refine hbuild.alloc _ fun id hid ↦ ?_
        rw [bind_assoc]
        refine (keeps_fillModel hbuild hid _ _ supplied).bind fun _ ↦ ?_
        rw [pure_bind]
        exact hnext _ id hid
      · exact hfilled _
    · exact hfilled _
  · exact hfilled _

theorem keeps_blank (dest : Hint) (fields : List Field) : (blank dest fields).Keeps R world := by
  rw [← bind_pure (blank dest fields)]
  exact keeps_afterBlank hbuild dest fields fun _ _ _ ↦ .pure _

end

section

variable [IsPreorder State R]

theorem keeps_asEngineValue (object : Value) : (asEngineValue object).Keeps R world := by
  unfold asEngineValue
  split
  · exact .reading (.ite (.pure _) (.bind .get fun _ ↦ .pure _))
  · exact .pure _

theorem keeps_visitedFor (name : String) (dest : Hint) : (visitedFor name dest).Keeps R world :=
  .bind .get fun _ ↦ .pure _

end

/-! ### What a transfer relies on -/

/-- A contract that inquiries rely on and that leaves the host program free to build what it
transfers. Failures to convert may be followed, and what was visited does not matter to a
failure. -/
structure Transferring (C : Contract) (world : World) (allowed : Command → Prop) : Prop
    extends Inquiring C world allowed where
  free : LeavesHostFree C.answered
  conversions : C.PassesConversions
  unvisit : ∀ {s e t}, C.failed s e t → ∀ visited, C.failed s e { t with visited := visited }

/-- A frame that leaves the host program free is a contract that transfers rely on. -/
theorem Frame.transferring [IsPreorder State R] (hF : Frame world allowed R)
    (hfree : LeavesHostFree R) : Transferring (.ofRelation R) world allowed where
  toInquiring := hF.inquiring
  free := hfree
  conversions _ _ _ _ := id
  unvisit hst visited := trans_of R hst (hfree _ _ _ _ _ visited (Nat.le_refl _))

/-! ### Insertion -/

namespace Inquiring

variable {C : Contract} (hC : Inquiring C world allowed)
include hC

theorem prepare (h : Hint) : Carrying.Meets C world (RuleMarshal.prepare h) := by
  refine (Carrying.Meets.lift (hC.schemaOf h)).bind fun schema ↦ .bind .get fun done ↦
    .ite (.pure _) ((Carrying.Meets.lift .read).bind fun w ↦ ?_)
  have hrest : ∀ u : PUnit, Carrying.Meets C world (do
      RuleMarshal.verify schema
      modify fun s ↦ { s with prepared := h :: s.prepared }
      return schema : Inserting ClassSchema) :=
    fun _ ↦ (Carrying.Meets.lift (hC.verify schema)).bind fun _ ↦
      (Carrying.Meets.modify _).bind fun _ ↦ .pure _
  exact .ite (((Carrying.Meets.lift (hC.synthesize h)).map _).bind hrest) (hrest ⟨⟩)

theorem freshName : RuleMarshal.freshName.Meets C world := by
  refine (hC.eval (hC.unguarded _ rfl)).bind fun v ↦ ?_
  split
  · exact .pure _
  · exact .throw _

omit hC in
theorem attributeOf (object : Value) (attr : String) :
    (RuleMarshal.attributeOf object attr).Meets C world := by
  refine .bind .get fun s ↦ ?_
  dsimp only
  split
  · exact .pure _
  · exact .throw _

section

variable {insertNested : Value → Inserting String}
variable (hnested : ∀ v, Carrying.Meets C world (insertNested v))

omit hC in
include hnested in
theorem referenceTo (slot : SlotSchema) (expected : Hint) (object : Value) :
    Carrying.Meets C world (RuleMarshal.referenceTo insertNested slot expected object) := by
  refine (Carrying.Meets.lift .get).bind fun s ↦ ?_
  split
  · exact .pure _
  · refine (Carrying.Meets.lift .read).bind fun w ↦ ?_
    refine .refuse ((Carrying.Meets.get.bind fun _ ↦ .pure _).bind fun given ↦ ?_)
    split
    · exact .bind (.ofExcept _) fun _ ↦ .pure _
    · exact (hnested object).bind fun _ ↦ .pure _

omit hC in
include hnested in
theorem slotValue (slot : SlotSchema) (v : Value) :
    Carrying.Meets C world (RuleMarshal.slotValue insertNested slot v) := by
  refine (Carrying.Meets.lift .get).bind fun s ↦ ?_
  dsimp only
  split
  · split
    · exact .pure _
    · exact .ofExcept _
  · split
    · exact .pure _
    · exact .bind (.mapM _ fun item _ ↦ referenceTo hnested slot _ item) fun _ ↦ .pure _
    · exact .bind (.mapM _ fun item _ ↦ referenceTo hnested slot _ item) fun _ ↦ .pure _
    · exact .throw _
    · exact referenceTo hnested slot _ v

omit hC in
include hnested in
theorem overrides (object : Value) (slots : List SlotSchema) :
    Carrying.Meets C world (RuleMarshal.overrides insertNested object slots) := by
  induction slots with
  | nil => exact .pure _
  | cons slot rest ih =>
    refine (Carrying.Meets.lift (attributeOf object slot.attr)).bind fun v ↦ ?_
    exact (slotValue hnested slot v).bind fun w ↦ .bind (.ofExcept _) fun _ ↦
      ih.bind fun _ ↦ .pure _

end

/-- An insertion meets a contract if making an instance does. -/
theorem insertWithin (hcreate : ∀ e, (createInstance e).Meets C world) (depth : Nat)
    (object : Value) (type : Hint) (name : Value) :
    Carrying.Meets C world (RuleMarshal.insertWithin depth object type name) := by
  induction depth generalizing object type name with
  | zero => exact .throw _
  | succ depth ih =>
    unfold RuleMarshal.insertWithin
    refine (hC.prepare type).bind fun schema ↦ ?_
    dsimp only
    split
    case' h_1 => refine ((Carrying.Meets.lift hC.freshName).map _).bind fun given ↦ ?_
    case' h_2 => refine .bind (.pure _) fun given ↦ ?_
    all_goals
      refine .bind ?_ fun _ ↦ .bind (overrides (fun v ↦ ?_) object schema.slots) fun slots ↦
        .bind (.ofExcept _) fun _ ↦ .lift (hcreate _)
      · unfold giveName
        split
        · exact .modify _
        · exact .pure _
      · refine (Carrying.Meets.lift .get).bind fun s ↦ (Carrying.Meets.lift .read).bind fun w ↦ ?_
        split
        · exact (ih v _ .none).bind fun _ ↦ .pure _
        · exact .throw _

end Inquiring

/-! ### Extraction -/

/-- A value that is filled in cells of one's own. What stands in a variable is looked up there, so
filling that may lead to any cell. -/
def Value.Within (own : Nat → Prop) : Value → Prop
  | .object _ id | .mapping id => own id
  | .held _ => ∀ id, own id
  | _ => True

section

variable {own : Nat → Prop} {v : Value}

theorem Value.within_of_all (hown : ∀ id, own id) (v : Value) : v.Within own := by
  cases v with
  | object struct id => exact hown id
  | mapping id => exact hown id
  | held id => exact hown
  | _ => trivial

theorem Value.Within.opened (hv : v.Within own) (heap : Heap) : (heap.opened v).Within own := by
  cases v with
  | held id => exact within_of_all hv _
  | _ => exact hv

end

/-- A contract that inquiries rely on and that leaves an extraction free to note what it visits, to
make cells, and to fill those of its own. Failures to convert may be followed. -/
structure Extracting (C : Contract) (world : World) (allowed : Command → Prop) (own : Nat → Prop) :
    Prop extends Inquiring C world allowed where
  notes : ∀ s readings visited, C.answered s { s with readings := readings, visited := visited }
  alloc : ∀ {α : Type} (cell : Cell) {next : Nat → Act α},
    (∀ id, own id → (next id).Meets C world) →
    (Act.alloc cell >>= next).Meets C world
  blank : ∀ {α : Type} (dest : Hint) (fields : List Field) {next : Value → Act α},
    (∀ v, v.Within own → (next v).Meets C world) →
      (RuleMarshal.blank dest fields >>= next).Meets C world
  put : ∀ {id : Nat}, own id → ∀ cell, (Act.put id cell).Keeps C.answered world
  hold : ∀ items, (holdEach items).Keeps C.answered world
  conversions : C.PassesConversions

/-- Where the host program is left free, every cell counts as one's own. -/
theorem Transferring.extracting {C : Contract} (hC : Transferring C world allowed) :
    Extracting C world allowed fun _ ↦ True where
  toInquiring := hC.toInquiring
  notes s readings visited := hC.free s s.heap readings s.named s.labels visited (Nat.le_refl _)
  alloc cell _ hnext := (Meets.of_keeps (keeps_alloc hC.free cell)).bind fun id ↦ hnext id trivial
  blank dest fields _ hnext := (Meets.of_keeps (keeps_blank hC.free.building dest fields)).bind
    fun v ↦ hnext v (v.within_of_all fun _ ↦ trivial)
  put _ cell := keeps_put hC.free _ cell
  hold items := keeps_holdEach (keeps_alloc hC.free) items
  conversions := hC.conversions

/-- A frame that is kept by building in cells of one's own, and by what fills these, is a contract
that extractions rely on. -/
theorem Frame.extracting [IsPreorder State R] {own : Nat → Prop} (hF : Frame world allowed R)
    (hbuild : Building world R own)
    (hnotes : ∀ s readings visited, R s { s with readings := readings, visited := visited })
    (halloc : ∀ cell, (Act.alloc cell).Keeps R world)
    (hput : ∀ {id : Nat}, own id → ∀ cell, (Act.put id cell).Keeps R world) :
    Extracting (.ofRelation R) world allowed own where
  toInquiring := hF.inquiring
  notes := hnotes
  alloc cell _ hnext := Meets.iff_keeps.mpr <| hbuild.alloc cell fun id hid ↦
    Meets.iff_keeps.mp (hnext id hid)
  blank dest fields _ hnext := Meets.iff_keeps.mpr <| keeps_afterBlank hbuild dest fields
    fun struct id hid ↦ Meets.iff_keeps.mp (hnext (.object struct id) hid)
  put := hput
  hold items := keeps_holdEach halloc items
  conversions _ _ _ _ := id

namespace Extracting

variable {C : Contract} {own : Nat → Prop} (hC : Extracting C world allowed own)
include hC

theorem visit (name : String) (dest : Hint) (v : Value) :
    (RuleMarshal.visit name dest v).Meets C world := by
  unfold RuleMarshal.visit
  split
  · exact .of_keeps (.modify fun s ↦ hC.notes s s.readings _)
  · exact .pure _

theorem fieldsAnew (dest : Hint) : (RuleMarshal.fieldsAnew dest).Meets C world :=
  .reading <| .bind (.ofExcept _) fun _ ↦
    .bind (.of_keeps (.modify fun s ↦ hC.notes s _ s.visited)) fun _ ↦
    .bind .get fun _ ↦ .pure _

theorem putKey {mapping : Value} (hmapping : mapping.Within own) (key : String) (v : Value) :
    (RuleMarshal.putKey mapping key v).Meets C world := by
  cases mapping with
  | mapping id => exact .bind .get fun _ ↦ .of_keeps (hC.put hmapping _)
  | _ => exact .pure _

theorem assign {object : Value} (hobject : object.Within own) (attr : String) (v : Value) :
    (Act.assign object attr v).Meets C world := by
  cases object with
  | object struct id => exact .bind .get fun _ ↦ .of_keeps (hC.put hobject _)
  | _ => exact .pure _

/-- What there is to be filled, or a new mapping. -/
theorem afterMappingTarget {α : Type} {target : Option Value} (htarget : ∀ v ∈ target, v.Within own)
    {next : Value → Act α} (hnext : ∀ v, v.Within own → (next v).Meets C world) :
    (mappingTarget target >>= next).Meets C world := by
  cases target with
  | none =>
    unfold mappingTarget
    rw [bind_map_left]
    exact hC.alloc _ fun id hid ↦ hnext (.mapping id) hid
  | some v =>
    unfold mappingTarget
    dsimp only
    rw [pure_bind]
    exact hnext v (htarget v rfl)

theorem handleIn (v : EngineValue) : (RuleMarshal.handleIn v).Meets C world := by
  cases v <;> first
    | exact .pure _
    | exact .throw _
    | exact hC.instanceHandle _

theorem filling {target : Value} (htarget : target.Within own) {fill : Value → Act Unit}
    (hfill : ∀ object, object.Within own → (fill object).Meets C world) :
    (RuleMarshal.filling target fill).Meets C world := by
  refine .bind .get fun s ↦ ?_
  split
  · refine hC.alloc _ fun id hid ↦ (hfill (.object _ id) hid).bind fun _ ↦
      .bind (.of_keeps (keeps_asEngineValue _)) fun filled ↦ ?_
    split
    · exact .bind (.of_keeps (hC.put (htarget _) _)) fun _ ↦ .pure _
    · exact .pure _
  · exact (hfill _ (htarget.opened s.heap)).bind fun _ ↦ .of_keeps (keeps_asEngineValue _)

section

variable {extract : EngineValue → Hint → Act Value}
variable (hextract : ∀ v h, (extract v h).Meets C world)
include hextract

theorem fillMapping {mapping : Value} (hmapping : mapping.Within own) (item : Hint)
    {slot : String → Act EngineValue} (hslot : ∀ name, (slot name).Meets C world)
    (names : List String) :
    (RuleMarshal.fillMapping extract mapping item slot names).Meets C world :=
  .forM names fun name _ ↦ (hslot name).bind fun v ↦ (hextract v item).bind fun w ↦
    hC.putKey hmapping name w

theorem fillFields {object : Value} (hobject : object.Within own) (fields : List Field)
    {slot : String → Act EngineValue} (hslot : ∀ name, (slot name).Meets C world)
    (names : List String) :
    (RuleMarshal.fillFields extract object fields slot names).Meets C world :=
  .forM fields fun f _ ↦ .ite ((hslot _).bind fun v ↦ (hextract v f.hint).bind fun w ↦
    hC.assign hobject f.attr w) (.pure _)

variable {target : Option Value} (htarget : ∀ v ∈ target, v.Within own)
include htarget

theorem extractInstance (h : InstanceHandle) (dest : Hint) :
    (RuleMarshal.extractInstance extract h dest target).Meets C world := by
  refine .bind (.of_keeps (keeps_visitedFor h.name dest)) fun found ↦ ?_
  split
  · exact .of_keeps (keeps_asEngineValue _)
  · refine (h.meets_slotNames hC.toInquiring).bind fun names ↦ .reading ?_
    have hslot : ∀ name, (h.slot (.text name)).Meets C world :=
      fun name ↦ h.meets_slot hC.toInquiring _
    dsimp only
    split
    · exact hC.afterMappingTarget htarget fun mapping hmapping ↦
        (hC.visit h.name dest mapping).bind fun _ ↦
        (hC.fillMapping hextract hmapping _ hslot names).bind fun _ ↦ .pure _
    · refine .refuse ((hC.fieldsAnew dest).bind fun fields ↦ ?_)
      have hrest : ∀ object : Value, object.Within own → Act.Meets C world (do
          RuleMarshal.visit h.name dest object
          RuleMarshal.filling object fun object ↦ RuleMarshal.fillFields extract object fields
            (fun name ↦ h.slot (.text name)) names : Act Value) :=
        fun object hobject ↦ (hC.visit h.name dest object).bind fun _ ↦ hC.filling hobject
          fun object hobject ↦ hC.fillFields hextract hobject fields hslot names
      cases target with
      | none => exact hC.blank dest fields hrest
      | some v =>
        dsimp only
        rw [pure_bind]
        exact hrest v (htarget v rfl)

theorem extractOrdered (h : FactHandle) (dest : Hint) :
    (RuleMarshal.extractOrdered extract h dest target).Meets C world := by
  refine .bind (.ofExcept _) fun sequence ↦
    .refuse ((h.meets_values hC.toInquiring).bind fun values ↦ ?_)
  split
  · exact hC.afterMappingTarget htarget fun mapping hmapping ↦
      .bind (.mapM values fun v _ ↦ hextract v .any) fun items ↦
        (hC.putKey hmapping orderedSlot _).bind fun _ ↦ .pure _
  · refine .bind (.mapM values fun v _ ↦ hextract v _) fun items ↦ ?_
    split
    · exact .bind (.of_keeps (hC.hold items)) fun _ ↦
        .bind (.of_keeps (hC.put (htarget _ rfl _) _)) fun _ ↦ .pure _
    · exact .pure _
    · exact .pure _

theorem extractSlots (h : FactHandle) (dest : Hint) :
    (RuleMarshal.extractSlots extract h dest target).Meets C world := by
  refine .bind (.ofExcept _) fun sequence ↦
    .refuse ((h.meets_slotNames hC.toInquiring).bind fun names ↦ ?_)
  have hslot : ∀ name, (h.slot (.text name)).Meets C world :=
    fun name ↦ h.meets_slot hC.toInquiring _
  refine .reading ?_
  dsimp only
  split
  · exact hC.afterMappingTarget htarget fun mapping hmapping ↦
      (hC.fillMapping hextract hmapping _ hslot names).bind fun _ ↦ .pure _
  · refine .refuse ((hC.fieldsAnew dest).bind fun fields ↦ ?_)
    have hrest : ∀ object : Value, object.Within own → (RuleMarshal.filling object fun object ↦
        RuleMarshal.fillFields extract object fields (fun name ↦ h.slot (.text name))
          names).Meets C world :=
      fun object hobject ↦ hC.filling hobject fun object hobject ↦
        hC.fillFields hextract hobject fields hslot names
    cases target with
    | none => exact hC.blank dest fields hrest
    | some v =>
      dsimp only
      rw [pure_bind]
      exact hrest v (htarget v rfl)

theorem extractFact (h : FactHandle) (dest : Hint) :
    (RuleMarshal.extractFact extract h dest target).Meets C world := by
  have hrest : ∀ dest, Act.Meets C world (do
      if ← h.isOrdered then RuleMarshal.extractOrdered extract h dest target
      else RuleMarshal.extractSlots extract h dest target : Act Value) :=
    fun dest ↦ (h.meets_isOrdered hC.toInquiring).bind fun ordered ↦
      .ite (hC.extractOrdered hextract htarget h dest) (hC.extractSlots hextract htarget h dest)
  refine .ite ((h.meets_isOrdered hC.toInquiring).bind fun ordered ↦ ?_) (.bind (.pure _) hrest)
  exact .ite (.bind (.pure _) hrest) (.bind (.pure _) hrest)

omit htarget in
theorem resolveBy (v : EngineValue) (dest : Hint) :
    (RuleMarshal.resolveBy extract v dest).Meets C world := by
  unfold RuleMarshal.resolveBy
  dsimp only
  split
  · exact (hC.handleIn v).bind fun _ ↦ .pure _
  · split
    · exact .pure _
    · exact .throw _
  · refine .reading (.ite (.pure _) (.bind (.ofExcept _) fun contains ↦ .ite ?_ (.throw _)))
    have hnone : ∀ v ∈ (none : Option Value), v.Within own := nofun
    split
    · exact (hC.handleIn _).bind fun h ↦ hC.extractInstance hextract hnone h dest
    · exact (hC.handleIn _).bind fun h ↦ hC.extractInstance hextract hnone h dest
    · exact hC.extractFact hextract hnone _ dest
    · exact .throw _

end

/-- The extraction of an engine value fills no cells but its own. -/
theorem extractWithin (depth : Nat) (v : EngineValue) (into : Hint) :
    (RuleMarshal.extractWithin depth v into).Meets C world := by
  induction depth generalizing v into with
  | zero => exact .throw _
  | succ depth ih =>
    have hconversion : Act.Meets C world
        (into.decode (some (RuleMarshal.resolveBy (RuleMarshal.extractWithin depth))) v) := by
      refine Hint.meets_decode hC.conversions ?_ into v
      rintro f ⟨rfl⟩ w h
      exact hC.resolveBy ih w h
    unfold RuleMarshal.extractWithin
    dsimp only
    split
    · refine .bind .read fun _ ↦ .bind (.ofExcept _) fun contains ↦ .ite ?_ hconversion
      have hnone : ∀ v ∈ (none : Option Value), v.Within own := nofun
      exact hC.extractFact ih hnone _ _
    · exact hconversion

end Extracting

namespace Transferring

variable {C : Contract} (hC : Transferring C world allowed)
include hC

theorem freshly {α : Type} {act : Act α} (hact : act.Meets C world) :
    (RuleMarshal.freshly act).Meets C world := by
  refine .bind .get fun before ↦ .bind (.of_keeps (.modify fun s ↦
    hC.free s s.heap s.readings s.named s.labels [] (Nat.le_refl _))) fun _ ↦
      ⟨fun hrun ↦ ?_, fun hrun ↦ ?_⟩
  · obtain ⟨hanswer, rfl⟩ := Prod.mk.inj hrun
    exact C.trans (hact.answered (Prod.ext hanswer rfl))
      (hC.free _ _ _ _ _ before.visited (Nat.le_refl _))
  · obtain ⟨hanswer, rfl⟩ := Prod.mk.inj hrun
    exact hC.unvisit (hact.failed (Prod.ext hanswer rfl)) before.visited

theorem resolveArgument (v : EngineValue) (dest : Hint) :
    (RuleMarshal.resolveArgument v dest).Meets C world :=
  hC.freshly (hC.extracting.resolveBy (hC.extracting.extractWithin callLimit) v dest)

theorem extract (source into : Value) : (RuleMarshal.extract source into).Meets C world := by
  have hvalue := hC.extracting.extractWithin callLimit
  have htarget : ∀ target : Option Value, ∀ v ∈ target, v.Within fun _ ↦ True :=
    fun _ v _ ↦ v.within_of_all fun _ ↦ trivial
  refine .reading (.bind .get fun s ↦ .bind (.ofExcept _) fun found ↦ hC.freshly ?_)
  split
  · exact hC.extracting.extractInstance hvalue (htarget _) _ _
  · exact hC.extracting.extractFact hvalue (htarget _) _ _
  · exact hvalue _ _
  · exact .throw _

end Transferring

/-! ### Frames -/

namespace Frame

variable [IsPreorder State R] (hF : Frame world allowed R)
include hF

theorem prepare (h : Hint) : Carrying.Keeps R world (RuleMarshal.prepare h) :=
  Carrying.Meets.iff_keeps.mp (hF.inquiring.prepare h)

theorem freshName : RuleMarshal.freshName.Keeps R world := Meets.iff_keeps.mp hF.inquiring.freshName

theorem resolveArgument (hfree : LeavesHostFree R) (v : EngineValue) (dest : Hint) :
    (RuleMarshal.resolveArgument v dest).Keeps R world :=
  Meets.iff_keeps.mp ((hF.transferring hfree).resolveArgument v dest)

end Frame

end RuleMarshal
