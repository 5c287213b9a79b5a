import RuleMarshal.Proofs.Insertion.Abandonment
import RuleMarshal.Proofs.Insertion.Order
import RuleMarshal.Proofs.Synthesis.Verification
/-!
Instances are ordered of classes that were verified. An insertion makes the class of a type ready
once, when it comes to the first object of the type, and every order of an instance comes after
that: what is remembered of it, that the class was verified against the schema of the type, holds in
every state of the insertion from there on (`Afoot`). So an insertion sends no order but one for an
object that it reached, and only once it has verified the class of the order against the schema of
that object's type; where classes are not synthesized, it sends no definition (`Licensed`,
`sends_insert`). That is followed through an insertion by a contract for its parts (`Vouched`),
whatever the engine answers.
-/

set_option autoImplicit false
set_option relaxedAutoImplicit false

namespace RuleMarshal

open Act
open MonadExcept (ofExcept)

section

variable (world : World) (past : State) (root : Value)

/-- The heaps that may be met with from a state on. -/
def HeapSince (heap : Heap) : Prop := ∃ s, Proceeds world past s ∧ s.heap = heap

/-- Whether a value stands in a slot of an object that refers to objects. -/
def StandsIn (owner v : Value) : Prop :=
  ∃ position slot heap field,
    ReadsSlot (past.objectGraph world) (HeapSince world past) owner position slot heap field ∧
      slot.reference.isSome ∧ v ∈ slot.targets heap field

/-- The values that an insertion comes to from its root, in slots of objects that it comes to. -/
def ComesTo (v : Value) : Prop := Relation.ReflTransGen (StandsIn world past) root v

/-- What an insertion that began in a past state may send. An order is one for an object that the
insertion comes to, whose schema the class was verified against since. Where classes are
synthesized, there are definitions of schemas, and no others. -/
structure Licensed (s : State) (c : Command) : Prop where
  order : ∀ order, (Event.command c).creation? = some order → ∃ v schema,
    ComesTo world past root v ∧
    OrderedFor (past.objectGraph world) (HeapSince world past) v schema
      order.className order.slots ∧
    schema.Verified world past s
  definition : ∀ construct, c = .build construct → world.config.autoSynthesize = true ∧
    ∃ schema pending, construct = .text (world.definition schema pending)

/-- A state in the midst of an insertion: the types whose classes were made ready have classes that
were verified. -/
structure Afoot (i : Insertion) (s : State) : Prop where
  proceeds : Proceeds world past s
  verified : ∀ h ∈ i.prepared, ∀ schema,
    past.memo.schema? world.types world.config.tags h = some schema →
    schema.Verified world past s

/-- How a part of an insertion goes on from a state: it sends what is licensed, and it finds
something if it answers. -/
structure Vouched {α : Type} (i : Insertion) (s : State) (found : α → State → Prop)
    (act : Inserting α) : Prop where
  sends : Sends world (Licensed world past root) s (Carrying.runIn act world i s).2
  answered : ∀ {a j t}, Carrying.runIn act world i s = (.ok (a, j), t) →
    Afoot world past j t ∧ found a t

end

section

variable {world : World} {past s t : State} {root v : Value} {i j : Insertion} {α β : Type}
variable {found : α → State → Prop} {given : β → State → Prop}

theorem Afoot.of_proceeds (hs : Afoot world past i s) (hst : Proceeds world s t) :
    Afoot world past i t where
  proceeds := hs.proceeds.trans hst
  verified h hh schema hschema := (hs.verified h hh schema hschema).extend (.refl past) hst

theorem permitsQuestions_licensed : PermitsQuestions (Licensed world past root) := by
  intro s e he
  have hnone : (Event.command (.evaluate e)).creation? = none := Command.creation?_of_not_guarded he
  exact ⟨fun order horder ↦ (nomatch hnone.symm.trans horder), nofun⟩

/-! ### Parts of an insertion -/

namespace Vouched

theorem pure {a : α} (hs : Afoot world past i s) (ha : found a s) :
    Vouched world past root i s found (pure a) where
  sends := .refl s
  answered hrun := by
    obtain ⟨rfl, rfl, rfl⟩ := Carrying.ok_of_pure hrun
    exact ⟨hs, ha⟩

/-- What fails at once sends nothing. -/
theorem raising {act : Inserting α} {e : Error}
    (hact : Carrying.runIn act world i s = (.error e, s)) :
    Vouched world past root i s found act where
  sends := hact ▸ .refl s
  answered hrun := nomatch hact.symm.trans hrun

theorem throw (e : Error) : Vouched world past root i s found (throw e : Inserting α) :=
  .raising rfl

theorem ofExcept (hs : Afoot world past i s) (answer : Except Error α) :
    Vouched world past root i s (fun _ _ ↦ True) (ofExcept answer) := by
  cases answer with
  | error e => exact .throw e
  | ok a => exact .pure hs trivial

/-- One part after the other. -/
theorem bind {act : Inserting α} {next : α → Inserting β}
    (hact : Vouched world past root i s found act)
    (hnext : ∀ a j t, found a t → Proceeds world s t → Afoot world past j t →
      Vouched world past root j t given (next a)) :
    Vouched world past root i s given (act >>= next) := by
  cases hrun : Carrying.runIn act world i s with
  | mk answer t =>
    have hfirst := hact.sends
    rw [hrun] at hfirst
    cases answer with
    | error e =>
      have hfails : Carrying.runIn (act >>= next) world i s = (.error e, t) :=
        Carrying.runIn_bind_of_error hrun
      exact ⟨hfails ▸ hfirst, fun hok ↦ nomatch hfails.symm.trans hok⟩
    | ok p =>
      obtain ⟨ht, ha⟩ := hact.answered hrun
      have hrest := hnext p.1 p.2 t ha hfirst.proceeds ht
      have hgoes : Carrying.runIn (act >>= next) world i s =
          Carrying.runIn (next p.1) world p.2 t :=
        Carrying.runIn_bind_of_ok hrun
      exact ⟨hgoes ▸ hfirst.trans hrest.sends, fun hok ↦ hrest.answered (hgoes ▸ hok)⟩

/-- What answers and sends nothing comes first. -/
theorem after {act : Inserting α} {next : α → Inserting β} {a : α}
    (hact : Carrying.runIn act world i s = (.ok (a, j), s))
    (hnext : Vouched world past root j s given (next a)) :
    Vouched world past root i s given (act >>= next) := by
  have hgoes : Carrying.runIn (act >>= next) world i s = Carrying.runIn (next a) world j s :=
    Carrying.runIn_bind_of_ok hact
  exact ⟨hgoes ▸ hnext.sends, fun hrun ↦ hnext.answered (hgoes ▸ hrun)⟩

/-- A change of what the insertion has done so far. -/
theorem changing {change : Insertion → Insertion} (hs : Afoot world past (change i) s) :
    Vouched world past root i s (fun _ _ ↦ True) (modify change) where
  sends := .refl s
  answered hrun := by
    obtain ⟨rfl, rfl⟩ := Carrying.ok_of_modify hrun
    exact ⟨hs, trivial⟩

/-- A computation that carries no state of its own. -/
theorem lift {act : Act α} (hs : Afoot world past i s)
    (hact : Sends world (Licensed world past root) s (act.runIn world s).2)
    (hfound : ∀ a t, act.runIn world s = (.ok a, t) → found a t) :
    Vouched world past root i s found (liftM act) := by
  cases hrun : act.runIn world s with
  | mk answer t =>
    rw [hrun] at hact
    cases answer with
    | error e =>
      have hfails : Carrying.runIn (liftM act : Inserting α) world i s = (.error e, t) :=
        Carrying.runIn_lift_of_error hrun
      exact ⟨hfails ▸ hact, fun hok ↦ nomatch hfails.symm.trans hok⟩
    | ok a =>
      have hanswers : Carrying.runIn (liftM act : Inserting α) world i s = (.ok (a, i), t) :=
        Carrying.runIn_lift_of_ok hrun
      refine ⟨hanswers ▸ hact, fun hok ↦ ?_⟩
      cases hanswers.symm.trans hok
      exact ⟨hs.of_proceeds hact.proceeds, hfound a t hrun⟩

/-- What was found may be made less of. -/
theorem mono {act : Inserting α} {known : α → State → Prop}
    (hact : Vouched world past root i s found act) (hknown : ∀ a t, found a t → known a t) :
    Vouched world past root i s known act where
  sends := hact.sends
  answered hrun := (hact.answered hrun).imp_right (hknown _ _)

/-- What is known of an answer from the run alone is found with it. -/
theorem knowing {act : Inserting α} {known : α → Prop}
    (hact : Vouched world past root i s found act)
    (hknown : ∀ a j t, Carrying.runIn act world i s = (.ok (a, j), t) → known a) :
    Vouched world past root i s (fun a _ ↦ known a) act where
  sends := hact.sends
  answered hrun := ⟨(hact.answered hrun).1, hknown _ _ _ hrun⟩

/-- What is answered may be made from what a part comes to. -/
theorem answering {act : Inserting α} (f : α → β) (hact : Vouched world past root i s found act)
    (hgiven : ∀ a t, found a t → given (f a) t) :
    Vouched world past root i s given (act >>= fun a ↦ Pure.pure (f a)) :=
  hact.bind fun a _ t ha _ ht ↦ .pure ht (hgiven a t ha)

theorem mapM {f : β → Inserting α} {items : List β} {fits : β → α → Prop}
    (hf : ∀ c ∈ items, ∀ i s, Afoot world past i s →
      Vouched world past root i s (fun a _ ↦ fits c a) (f c))
    (hs : Afoot world past i s) :
    Vouched world past root i s (fun as _ ↦ List.Forall₂ fits items as) (items.mapM f) := by
  induction items generalizing i s with
  | nil => exact .pure hs .nil
  | cons c rest ih =>
    rw [List.mapM_cons]
    refine (hf c List.mem_cons_self i s hs).bind fun w j t hw _ ht ↦ ?_
    exact (ih (fun d hd ↦ hf d (List.mem_cons_of_mem c hd)) ht).answering _ fun _ _ hrest ↦
      .cons hw hrest

end Vouched

/-! ### Classes that are made ready -/

/-- Where classes are synthesized, a synthesis sends what is licensed. -/
theorem sends_synthesize (hsynthesizes : world.config.autoSynthesize = true) (h : Hint)
    (s : State) :
    Sends world (Licensed world past root) s ((synthesize h).runIn world s).2 := by
  refine Sends.keeps_synthesize permitsQuestions_licensed
    (fun _ schema pending ↦ ⟨nofun, fun construct hbuild ↦ ?_⟩) h s
  cases hbuild
  exact ⟨hsynthesizes, schema, pending, rfl⟩

variable {a : HintAtom} {schema : ClassSchema}

/-- The class of a type is ready that was verified against the schema that the type had in the
past. -/
def Readied (world : World) (past : State) (a : HintAtom) (schema : ClassSchema) (s : State) :
    Prop :=
  past.memo.schema? world.types world.config.tags (.atom a) = some schema ∧
    schema.Verified world past s

/-- A type is put down as prepared once its class was verified. -/
theorem vouched_verify (hs : Afoot world past i s)
    (hschema : past.memo.schema? world.types world.config.tags (.atom a) = some schema) :
    Vouched world past root i s (Readied world past a) (do
      verify schema
      modify fun i ↦ { i with prepared := .atom a :: i.prepared }
      return schema) := by
  refine (Vouched.lift hs (Sends.keeps_verify permitsQuestions_licensed schema s)
    fun _ _ hrun ↦ verified_of_verify hrun).bind ?_
  intro _ j t hverified hst ht
  have hsince := hverified.extend hs.proceeds (.refl t)
  refine .after rfl (.pure ⟨ht.proceeds, ?_⟩ ⟨hschema, hsince⟩)
  refine List.forall_mem_cons.mpr ⟨fun found hfound ↦ ?_, ht.verified⟩
  obtain rfl := Option.some.inj (hschema.symm.trans hfound)
  exact hsince

theorem vouched_prepare (hworld : world.Orderly) (hs : Afoot world past i s) (a : HintAtom) :
    Vouched world past root i s (Readied world past a) (prepare (.atom a)) := by
  have hschemaOf : ∀ schema t, (schemaOf (.atom a)).runIn world s = (.ok schema, t) →
      past.memo.schema? world.types world.config.tags (.atom a) = some schema := by
    intro schema t hrun
    rw [← hs.proceeds.memo_agrees hworld a]
    exact schema?_of_reflect (congrArg Prod.fst hrun)
  refine (Vouched.lift hs (Sends.keeps_schemaOf _ s) hschemaOf).bind fun schema j t hschema _ ht ↦
    .after rfl ?_
  split
  · rename_i hprepared
    obtain ⟨h, hmem, hsame⟩ := List.any_eq_true.mp hprepared
    rw [Hint.atom_same] at hsame
    exact .pure ht ⟨hschema, ht.verified h hmem schema (hsame ▸ hschema)⟩
  · refine .after rfl ?_
    dsimp only
    split
    · rename_i hsynthesizes
      have hsynthesize : Vouched world past root j t (fun _ _ ↦ True)
          (liftM (synthesize (.atom a))) :=
        .lift ht (sends_synthesize hsynthesizes (.atom a) t) fun _ _ _ ↦ trivial
      have hdiscards : Vouched world past root j t (fun _ _ ↦ True)
          (discard (liftM (synthesize (.atom a)))) :=
        hsynthesize.answering (fun _ ↦ PUnit.unit) fun _ _ ↦ id
      exact hdiscards.bind fun _ k u _ _ hu ↦ vouched_verify hu hschema
    · exact vouched_verify ht hschema

/-! ### References and slots -/

variable {slot : SlotSchema} {expected : Hint} {insertNested : Value → Inserting String}

/-- The insertion of nested objects, when that of each object that the insertion comes to is vouched
for. -/
def VouchesNested (world : World) (past : State) (root : Value)
    (insertNested : Value → Inserting String) : Prop :=
  ∀ {v : Value} {i : Insertion} {s : State}, ComesTo world past root v → Afoot world past i s →
    Vouched world past root i s (fun _ _ ↦ True) (insertNested v)

theorem vouched_referenceTo (hnested : VouchesNested world past root insertNested)
    (hv : ComesTo world past root v) (slot : SlotSchema) (expected : Hint)
    (hs : Afoot world past i s) :
    Vouched world past root i s (fun e _ ↦ ∃ heap, HeapSince world past heap ∧ StandsFor heap v e)
      (referenceTo insertNested slot expected v) := by
  refine Vouched.knowing (?_ : Vouched world past root i s (fun _ _ ↦ True) _)
    fun _ _ _ hrun ↦ ⟨s.heap, ⟨s, hs.proceeds, rfl⟩, standsFor_of_referenceTo hrun⟩
  refine .after rfl ?_
  split
  · exact .pure hs trivial
  · refine .after rfl ?_
    dsimp only
    split
    · exact .raising rfl
    · refine .after rfl ?_
      split
      · exact (Vouched.ofExcept hs _).answering _ fun _ _ ↦ id
      · exact (hnested hv hs).answering _ fun _ _ ↦ id

theorem vouched_slotValue (hnested : VouchesNested world past root insertNested) (slot : SlotSchema)
    (hslot : slot.reference.isSome = true → ∀ w ∈ slot.targets s.heap v, ComesTo world past root w)
    (hs : Afoot world past i s) :
    Vouched world past root i s (fun e _ ↦ slot.Puts (HeapSince world past) s.heap v e)
      (slotValue insertNested slot v) := by
  cases href : slot.reference with
  | none =>
    refine Vouched.knowing (?_ : Vouched world past root i s (fun _ _ ↦ True) _)
      fun _ _ _ hrun ↦ .plain href (given_of_slotValue href hrun)
    refine .after rfl ?_
    rw [href]
    dsimp only
    split
    · exact .pure hs trivial
    · exact .ofExcept hs _
  | some reference =>
    have hsome : slot.reference.isSome = true := by simp [href]
    have hcomes := hslot hsome
    unfold slotValue
    refine .after rfl ?_
    have hseveral {items : List Value} (hmulti : slot.multi = true)
        (htargets : slot.targets s.heap v = items) :
        Vouched world past root i s (fun e _ ↦ slot.Puts (HeapSince world past) s.heap v e)
          (do
            return EngineValue.multifield
              (← items.mapM (referenceTo insertNested slot reference.1))) := by
      refine (Vouched.mapM (fun w hw j t ht ↦
        vouched_referenceTo hnested (hcomes w (htargets ▸ hw)) slot _ ht) hs).answering _
          fun es _ hes ↦ ?_
      refine .reference hsome ?_ (htargets ▸ hes)
      rw [SlotSchema.Carries, if_pos hmulti]
    rw [href]
    dsimp only
    split
    · rename_i hmulti hopened
      refine .pure hs (.reference hsome (?_ : slot.Carries [] _) ?_)
      · rw [SlotSchema.Carries, if_pos hmulti]
      · rw [SlotSchema.targets, if_pos hmulti, hopened]
        exact .nil
    · rename_i hmulti hopened
      exact hseveral hmulti (by rw [SlotSchema.targets, if_pos hmulti, hopened, Value.elements])
    · rename_i hmulti hopened
      exact hseveral hmulti (by rw [SlotSchema.targets, if_pos hmulti, hopened, Value.elements])
    · exact .throw _
    · rename_i hmulti
      have htargets : slot.targets s.heap v = [v] := by simp [SlotSchema.targets, hmulti]
      have hv : ComesTo world past root v := hcomes v (htargets ▸ List.mem_singleton_self v)
      refine (vouched_referenceTo hnested hv slot _ hs).mono fun e _ he ↦ ?_
      refine .reference hsome (?_ : slot.Carries [e] _) ?_
      · rw [SlotSchema.Carries, if_neg (by simp [hmulti])]
      rw [htargets]
      exact .cons he .nil

/-- The slots of an object that the insertion comes to, one after the other. -/
theorem vouched_overrides (hnested : VouchesNested world past root insertNested)
    (hv : ComesTo world past root v)
    (hschema : HasSchema (past.objectGraph world) (HeapSince world past) v schema)
    {slots : List SlotSchema} (hslots : slots ⊆ schema.slots) (hs : Afoot world past i s) :
    Vouched world past root i s
      (fun given _ ↦ List.Forall₂ (PutsFor (HeapSince world past) v) slots given)
      (overrides insertNested v slots) := by
  induction slots generalizing i s with
  | nil => exact .pure hs .nil
  | cons slot rest ih =>
    obtain ⟨position, hposition⟩ := List.mem_iff_getElem?.mp (hslots List.mem_cons_self)
    obtain ⟨e, -, hrun⟩ := exists_runIn_attributeOf v slot.attr world s
    cases hattr : s.heap.attribute? v slot.attr with
    | none =>
      rw [hattr] at hrun
      exact .raising (Carrying.runIn_bind_of_error (Carrying.runIn_lift_of_error hrun))
    | some field =>
      rw [hattr] at hrun
      refine .after (Carrying.runIn_lift_of_ok hrun) ?_
      have hreads : ReadsSlot (past.objectGraph world) (HeapSince world past) v position
          slot s.heap field :=
        ⟨⟨schema, hschema, hposition⟩, ⟨s, hs.proceeds, rfl⟩, hattr⟩
      have hcomes (href : slot.reference.isSome = true) (w : Value)
          (hw : w ∈ slot.targets s.heap field) :
          ComesTo world past root w := hv.tail ⟨position, slot, s.heap, field, hreads, href, hw⟩
      refine (vouched_slotValue hnested slot hcomes hs).bind fun w j t hputs _ ht ↦ ?_
      have hterm : Vouched world past root j t (fun term _ ↦ term.value = w) (ofExcept w.term) :=
        (Vouched.ofExcept ht _).knowing fun term _ _ hrun ↦
          EngineValue.value_of_term (Carrying.ok_of_ofExcept hrun).1
      refine hterm.bind fun term k u hvalue _ hu ↦ ?_
      exact (ih (List.subset_of_cons_subset hslots) hu).answering _ fun others _ hrest ↦
        .cons ⟨rfl, s.heap, field, ⟨s, hs.proceeds, rfl⟩, hattr, hvalue ▸ hputs⟩ hrest

/-! ### Objects -/

theorem vouched_giveName (hs : Afoot world past i s) (v : Value) (name : Except Error String) :
    Vouched world past root i s (fun _ _ ↦ True) (giveName v name) := by
  unfold giveName
  split
  · exact .changing ⟨hs.proceeds, hs.verified⟩
  · exact .pure hs trivial

/-- An instance is ordered of a class that was verified before. -/
theorem vouched_insertNamed {depth : Nat}
    (hnested : VouchesNested world past root (insertNestedWithin depth))
    (hv : ComesTo world past root v)
    (hschema : HasSchema (past.objectGraph world) (HeapSince world past) v schema)
    (hverified : schema.Verified world past s) (hs : Afoot world past i s)
    (name : Except Error String) :
    Vouched world past root i s (fun _ _ ↦ True) (insertNamed depth v schema name) := by
  refine (vouched_giveName hs v name).bind fun _ j t _ hst ht ↦ ?_
  refine (vouched_overrides hnested hv hschema (List.Subset.refl _) ht).bind
    fun slots k u hslots htu hu ↦ ?_
  refine (Vouched.ofExcept hu _).bind fun given l w _ huw hw ↦ .lift hw (.of_createInstance ?_) ?_
  · refine ⟨fun order horder ↦ ?_, nofun⟩
    cases horder
    exact ⟨v, schema, hv, ⟨hschema, rfl, hslots⟩,
      hverified.extend (.refl past) (hst.trans (htu.trans huw))⟩
  · exact fun _ _ _ ↦ trivial

theorem vouches_insertNestedWithin {depth : Nat}
    (hinsert : ∀ {v : Value} {i : Insertion} {s : State} {type : Hint}, ComesTo world past root v →
      (s.heap.opened v).structType? world.types = some type → Afoot world past i s →
      Vouched world past root i s (fun _ _ ↦ True) (insertWithin depth v type .none)) :
    VouchesNested world past root (insertNestedWithin depth) := by
  intro v i s hv hs
  refine .after rfl (.after rfl ?_)
  dsimp only
  split
  · rename_i type htype
    exact (hinsert hv htype hs).answering _ fun _ _ ↦ id
  · exact .throw _

theorem vouched_nameFor (hs : Afoot world past i s) (name : Value) :
    Vouched world past root i s (fun _ _ ↦ True) (nameFor name) := by
  unfold nameFor
  split
  · have hfresh : Sends world (Licensed world past root) s (freshName.runIn world s).2 := by
      refine .bind (.of_eval (permitsQuestions_licensed s _ rfl)) fun v ↦ ?_
      split
      · exact .pure _
      · exact .throw _
    rw [map_eq_pure_bind]
    have hlifted : Vouched world past root i s (fun _ _ ↦ True) (liftM freshName) :=
      .lift hs hfresh fun _ _ _ ↦ trivial
    exact hlifted.answering _ fun _ _ ↦ id
  · exact .pure hs trivial

/-- An insertion orders instances of classes that it has verified only. -/
theorem vouched_insertWithin (hworld : world.Orderly) (depth : Nat) {type : Hint} {name : Value}
    (hv : ComesTo world past root v) (htype : (s.heap.opened v).structType? world.types = some type)
    (hs : Afoot world past i s) :
    Vouched world past root i s (fun _ _ ↦ True) (insertWithin depth v type name) := by
  induction depth generalizing v i s type name with
  | zero => exact .throw _
  | succ depth ih =>
    have hnested : VouchesNested world past root (insertNestedWithin depth) :=
      vouches_insertNestedWithin fun hv htype hs ↦ ih hv htype hs
    obtain ⟨a, rfl⟩ := atom_of_structType? htype
    rw [insertWithin_succ]
    refine (vouched_prepare hworld hs a).bind fun schema j t hready hst ht ↦ ?_
    have hschema : HasSchema (past.objectGraph world) (HeapSince world past) v schema :=
      ⟨s.heap, ⟨s, hs.proceeds, rfl⟩, (State.schemaOf_of_structType? htype).trans hready.1⟩
    refine (vouched_nameFor ht name).bind fun given k u _ htu hu ↦ ?_
    exact vouched_insertNamed hnested hv hschema (hready.2.extend (.refl past) htu) hu given

/-- An insertion sends what is licensed. -/
theorem sends_insert (hworld : world.Orderly) (v name : Value) (s : State) :
    Sends world (Licensed world s v) s ((insert v name).runIn world s).2 := by
  by_cases hrefused : s.closed = true ∨ 0 < s.depth
  · have hguard : ((insert v name).runIn world s).2 = s := by
      unfold insert
      rw [runIn_guardMutation_bind]
      split
      · rfl
      · rename_i hopen
        rw [if_pos (hrefused.resolve_left hopen)]
    rw [hguard]
    exact .refl s
  · rw [not_or, Bool.not_eq_true, Nat.not_lt, Nat.le_zero] at hrefused
    rw [runIn_insert v name hrefused.1 hrefused.2]
    split
    · exact .refl s
    · rename_i type htype
      have hbegin : Afoot world s {} s := ⟨.refl s, List.forall_mem_nil _⟩
      have hinsert : Vouched world s v {} s (fun _ _ ↦ True)
          (insertWithin callLimit v type (s.heap.content name)) :=
        vouched_insertWithin hworld callLimit .refl htype hbegin
      exact .bind hinsert.sends fun _ ↦ .pure _

end

/-- Whatever the engine answers, and whatever the functions do that it calls meanwhile, an insertion
orders an instance only once it has verified the class: the order is one for an object that it came
to, of the class of that object's schema and with what stands for the object's fields in the slots
of that schema, and since the insertion began, the engine has answered that this class is defined,
has every slot of this schema, and takes one value or many in each as the schema says. Where classes
are not synthesized, the insertion sends no definition. -/
theorem insert_verifies_before_ordering (types : TypeTable) (config : Config)
    (engine : Array Event → Command → Reply) (depth : Nat) (s : State) (v name : Value) :
    let world := World.ofDepth types config engine depth
    let t := ((insert v name).runIn world s).2
    (∀ before after given className slots, s.history.toList <+: before →
      t.history.toList = before ++
        .command (.evaluate (.makeInstance given className slots)) :: after →
      ∃ u w schema, u.history.toList = before ∧ Proceeds world s u ∧ ComesTo world s v w ∧
        OrderedFor (s.objectGraph world) (HeapSince world s) w schema className slots ∧
        schema.Verified world s u) ∧
    (config.autoSynthesize = false →
      Sends world (fun _ c ↦ ∀ construct, c ≠ .build construct) s t) := by
  intro world t
  have hworld : world.Orderly := World.ofDepth_orderly types config engine depth
  have hsends : Sends world (Licensed world s v) s t := sends_insert hworld v name s
  constructor
  · intro before after given className slots hgrows hsent
    obtain ⟨u, hu, hproceeds, hlicensed⟩ := hsends.exists_permitted_of_creation hworld
      (show (Event.command (.evaluate (.makeInstance given className slots))).creation?.isSome =
        true from rfl)
      (show s.history.toList <+: before.toArray.toList from hgrows) ⟨after, by simp [hsent]⟩
    obtain ⟨w, schema, hw, hordered, hverified⟩ := hlicensed.order _ rfl
    exact ⟨u, w, schema, by rw [hu], hproceeds, hw, hordered, hverified⟩
  · intro hnone
    have hconfig : world.config = config :=
      congrArg Setup.config (World.ofDepth_setup types config engine depth)
    refine hsends.mono fun _ c hlicensed construct hbuild ↦ ?_
    have hsynthesizes := (hlicensed.definition construct hbuild).1
    rw [hconfig, hnone] at hsynthesizes
    cases hsynthesizes

/-! ### Two types with one class -/

/-- Two struct types whose classes have one name. Objects of one have parts of the other, which may
have spare ones. -/
def namesakeTypes : TypeTable where
  types := [{ name := "Part", kind := .described, className := some "Node",
              fields := [{ attr := "spare", hint := .union .word [.struct "Part", .noneType] }] },
    { name := "Whole", kind := .described, className := some "Node",
      fields := [{ attr := "part", hint := .struct "Part" }] }]

/-- An object with a part. -/
def namesakeState : State where
  heap.cells := #[.object [("part", .object "Part" 1)], .object [("spare", .none)]]

/-- An engine with a class that has the slots of both types, and that makes every instance. -/
def namesakeEngine (_ : Array Event) : Command → Reply
  | .evaluate .freshName => { outcome := .ok (.symbol "gen1") }
  | .evaluate (.makeInstance (some name) _ _) => { outcome := .ok (.instanceName name) }
  | .evaluate (.classQuery _ _) => { outcome := .ok (.bool true) }
  | .evaluate (.classSlots _) => { outcome := .ok (.list [.symbol "part", .symbol "spare"]) }
  | .evaluate (.classFacet ..) => { outcome := .ok (.list [.symbol "SGL"]) }
  | _ => {}

theorem namesakeEngine_calls (history : Array Event) (c : Command) :
    (namesakeEngine history c).calls = [] := by
  unfold namesakeEngine
  split <;> rfl

/-- An object and its part become two instances of one class, which was verified against the schema
of each of them, and nothing is defined. -/
theorem insert_verifies_before_ordering_namesakes :
    let world := World.ofDepth namesakeTypes { autoSynthesize := false } namesakeEngine 0
    let t := ((insert (.object "Whole" 0) (.text "a")).runIn world namesakeState).2
    t.creations.map (fun order ↦ (order.className, order.slots.map fun p ↦ (p.1, p.2.text))) =
      [("Node", [("spare", "nil")]), ("Node", [("part", "[gen1]")])] ∧
    (∀ before after given className slots,
      t.history.toList = before ++
        .command (.evaluate (.makeInstance given className slots)) :: after →
      ∃ u w schema, u.history.toList = before ∧ Proceeds world namesakeState u ∧
        ComesTo world namesakeState (.object "Whole" 0) w ∧
        OrderedFor (namesakeState.objectGraph world) (HeapSince world namesakeState) w schema
          className slots ∧
        schema.Verified world namesakeState u) ∧
    ∀ construct, Event.command (.build construct) ∉ t.history.toList := by
  intro world t
  obtain ⟨hverifies, hdefines⟩ :=
    insert_verifies_before_ordering namesakeTypes { autoSynthesize := false }
    namesakeEngine 0 namesakeState (.object "Whole" 0) (.text "a")
  refine ⟨?_, fun before after given className slots ↦
    hverifies before after given className slots List.nil_prefix, ?_⟩
  · have hname : namesakeState.heap.content (.text "a") = .text "a" := by
      simp [Heap.content, Value.settledWithin]
    change
      ((insert (.object "Whole" 0) (.text "a")).runIn world namesakeState).2.creations.map _ = _
    rw [runIn_insert _ _ rfl rfl, hname]
    decide +kernel
  · have hcalls : ∀ history c, (world.engine history c).calls = [] := by
      rw [World.ofDepth_engine]
      exact namesakeEngine_calls
    obtain ⟨sent, hsent, hnone⟩ := (hdefines rfl).exists_commands hcalls
    intro construct hmem
    rw [hsent, List.mem_append] at hmem
    obtain ⟨c, hc, heq⟩ := List.mem_map.mp (hmem.resolve_left List.not_mem_nil)
    obtain ⟨u, hpermitted⟩ := hnone c hc
    exact hpermitted construct (Event.command.inj heq)

end RuleMarshal
