import RuleMarshal.Proofs.Insertion.Interruption
/-!
The course of an insertion. Step by step, from the value of one reference up to the slots of an
object (`courseInSlots_overrides`) and a whole object, a part of an insertion either answers, and
has made what it finished, or it is broken off. For whole objects this is an induction on the bound
of the nesting (`course_insertWithin`).
-/

set_option autoImplicit false
set_option relaxedAutoImplicit false

namespace RuleMarshal

open Act
open MonadExcept (ofExcept)

section

variable {world : World} {past s t : State} {keep : Heap → Prop} {i : Insertion}

/-! ### Values of references -/

/-- What a reference comes to: nil, or the name of an instance. -/
def EngineValue.IsReference (w : EngineValue) : Prop := w = .nil ∨ ∃ name, w = .instanceName name

theorem EngineValue.IsReference.exists_render {w : EngineValue} (hw : w.IsReference) :
    ∃ text, w.render = .ok text := by
  obtain rfl | ⟨name, rfl⟩ := hw
  · exact ⟨_, rfl⟩
  · exact ⟨_, rfl⟩

theorem exists_renderEach_of_isReference {ws : List EngineValue} (hws : ∀ w ∈ ws, w.IsReference) :
    ∃ texts, EngineValue.renderEach ws = .ok texts := by
  induction ws with
  | nil => exact ⟨[], rfl⟩
  | cons w rest ih =>
    obtain ⟨text, htext⟩ := (hws w List.mem_cons_self).exists_render
    obtain ⟨texts, htexts⟩ := ih fun v hv ↦ hws v (List.mem_cons_of_mem w hv)
    refine ⟨(" " ++ text) :: texts, ?_⟩
    rw [EngineValue.renderEach, htext, htexts]
    rfl

theorem EngineValue.exists_render_multifield {ws : List EngineValue}
    (hws : ∀ w ∈ ws, w.IsReference) :
    ∃ text, (EngineValue.multifield ws).render = .ok text := by
  obtain ⟨texts, htexts⟩ := exists_renderEach_of_isReference hws
  refine ⟨"(create$" ++ String.join texts ++ ")", ?_⟩
  rw [EngineValue.render, htexts]
  rfl

theorem EngineValue.term_ne_error {w : EngineValue} (hw : ∃ text, w.render = .ok text) (e : Error) :
    w.term ≠ .error e := by
  obtain ⟨text, htext⟩ := hw
  unfold term
  split
  · intro he
    cases he
  · rename_i refusal hrefused
    cases htext.symm.trans hrefused

/-! ### References -/

variable {g : ObjectGraph} {owner n : ObjectNode} {position item : Nat} {slot : SlotSchema}
variable {heap : Heap} {v : Value}
variable {expected : Hint} {className : String} {insertNested : Value → Inserting String}

/-- The insertion of nested objects, when each one goes as that of an object does. -/
def NestsIn (world : World) (past : State) (keep : Heap → Prop)
    (insertNested : Value → Inserting String) : Prop :=
  ∀ {n : ObjectNode} {i : Insertion} {s : State}, Ongoing world past keep i s →
    (∀ id, n.value.cell? = some id → id ∉ i.cells) →
    Course world past keep i s (FinishedFrom (past.objectGraph world) keep n) (fun _ ↦ True)
      (BreaksOff (past.objectGraph world) keep n) (insertNested n.value)

/-- A reference goes as the insertion of what stands in its place. -/
theorem course_referenceTo (hnests : NestsIn world past keep insertNested)
    (hreads : ReadsSlot (past.objectGraph world) keep owner.value position slot heap v)
    (href : slot.reference = some (expected, className))
    (hitem : (slot.targets heap v)[item]? = some n.value)
    (hplace : n.id = n.value.identityAt (owner.id.part position item))
    (hs : Ongoing world past keep i s) :
    Course world past keep i s (FinishedFrom (past.objectGraph world) keep n)
      EngineValue.IsReference
      (fun e under made ↦ BreaksAt (past.objectGraph world) keep e owner position item
        (owner :: under) made)
      (referenceTo insertNested slot expected n.value) := by
  have hstands : StandsAt (past.objectGraph world) keep owner n position item :=
    ⟨hplace, slot, heap, v, hreads, by simp [href], hitem⟩
  refine .after rfl ?_
  split
  · exact .pure hs (.inl rfl)
  · rename_i habsent
    refine .after rfl ?_
    dsimp only
    split
    · rename_i hother
      refine .raising hs rfl (.here (fun _ ↦ ⟨slot, heap, v, hreads, ?_⟩) (List.forall_mem_nil _))
      exact .object href hitem hs.amid.heap habsent (Bool.not_eq_true' _ ▸ hother)
    · refine .after rfl ?_
      cases hfound : n.value.cell?.bind (i.names.lookup ·) with
      | some name =>
        cases name with
        | ok name => exact .pure hs (.inr ⟨name, rfl⟩)
        | error e =>
          obtain ⟨id, -, hlookup⟩ := Option.bind_eq_some_iff.mp hfound
          obtain ⟨front, back, hnames, -⟩ := List.lookup_eq_some_iff.mp hlookup
          have hspared : e.refusesValue = false := hs.spared (id, .error e) (by simp [hnames]) e rfl
          exact .raising hs rfl
            (.here (fun he ↦ absurd he (by simp [hspared])) (List.forall_mem_nil _))
      | none =>
        have hnew : ∀ id, n.value.cell? = some id → id ∉ i.cells := by
          intro id hcell hmem
          obtain ⟨p, hp, rfl⟩ := List.mem_map.mp hmem
          rw [hcell] at hfound
          simpa using List.lookup_eq_none_iff.mp hfound p hp
        refine ((hnests hs hnew).mono (fun _ ↦ id)
          (fun _ ↦ id) ?_).answering fun name _ ↦ .inr ⟨name, rfl⟩
        rintro e under made (hspared | hbreaks)
        · exact .here (fun he ↦ absurd he (by simp [hspared])) (List.forall_mem_nil _)
        · have hinside := BreaksAt.inside hstands (List.forall_mem_nil _) hbreaks
          exact hinside

/-- References from one item on, one after the other. -/
theorem course_mapM_referenceTo (hnests : NestsIn world past keep insertNested)
    (hreads : ReadsSlot (past.objectGraph world) keep owner.value position slot heap v)
    (href : slot.reference = some (expected, className)) {items : List Value}
    (hitems : (slot.targets heap v).drop item = items) (hs : Ongoing world past keep i s) :
    Course world past keep i s
      (fun m ↦ ∃ n k, item ≤ k ∧ StandsAt (past.objectGraph world) keep owner n position k ∧
        FinishedFrom (past.objectGraph world) keep n m)
      (fun ws ↦ ∀ w ∈ ws, w.IsReference)
      (fun e under made ↦ ∃ k, item ≤ k ∧
        BreaksAt (past.objectGraph world) keep e owner position k (owner :: under) made)
      (items.mapM (referenceTo insertNested slot expected)) := by
  induction items generalizing item i s with
  | nil => exact .pure hs (List.forall_mem_nil _)
  | cons first rest ih =>
    have hitem : (slot.targets heap v)[item]? = some first := by
      rw [← List.head?_drop, hitems, List.head?_cons]
    have hdrop : (slot.targets heap v).drop (item + 1) = rest := by
      rw [← List.drop_drop, hitems, List.drop_one, List.tail_cons]
    let n : ObjectNode := ⟨first.identityAt (owner.id.part position item), first⟩
    have hstands : StandsAt (past.objectGraph world) keep owner n position item :=
      ⟨rfl, slot, heap, v, hreads, by simp [href], hitem⟩
    have hfirst : Course world past keep i s (FinishedFrom (past.objectGraph world) keep n) _ _
        (referenceTo insertNested slot expected first) :=
      course_referenceTo hnests hreads href hitem rfl hs
    rw [List.mapM_cons]
    refine hfirst.bind (fun w j t hw ht ↦ (ih hdrop ht).answering fun others hothers ↦ ?_)
      (fun m hm ↦ ?_) ?_ ?_ ?_
    · exact List.forall_mem_cons.mpr ⟨hw, hothers⟩
    · exact ⟨n, item, Nat.le_refl _, hstands, hm⟩
    · rintro m ⟨n, k, hk, hm⟩
      exact ⟨n, k, Nat.le_of_succ_le hk, hm⟩
    · exact fun e under made hbreaks ↦ ⟨item, Nat.le_refl _, hbreaks⟩
    · rintro e under made front hfront ⟨k, hk, hbreaks⟩
      refine ⟨k, Nat.le_of_succ_le hk, hbreaks.prepend fun m hm ↦ ?_⟩
      exact ⟨n, position, item, .inr ⟨rfl, hk⟩, hstands, hfront m hm⟩

/-- The value of a slot that refers to no objects is converted on the spot. -/
theorem course_slotValue_of_none (href : slot.reference = none)
    (hreads : ReadsSlot (past.objectGraph world) keep owner.value position slot s.heap v)
    (hs : Ongoing world past keep i s) :
    Course world past keep i s (fun _ ↦ False)
      (fun w ↦ ∀ e, w.term = .error e → Refusal (past.objectGraph world) keep slot s.heap v 0 e)
      (fun e under made ↦ BreaksAt (past.objectGraph world) keep e owner position 0
        (owner :: under) made)
      (slotValue insertNested slot v) := by
  unfold slotValue
  refine .after rfl ?_
  rw [href]
  dsimp only
  split
  · refine .pure hs fun e he ↦ ?_
    exact absurd he (EngineValue.term_ne_error
      (EngineValue.exists_render_multifield (List.forall_mem_nil _)) e)
  · rename_i hother
    cases hencode : slot.hint.encode (s.heap.content v) with
    | ok w => exact .pure hs fun e he ↦ .text href hencode he
    | error e =>
      refine .raising hs rfl (.here (fun _ ↦ ⟨slot, s.heap, v, hreads, ?_⟩) (List.forall_mem_nil _))
      exact .form href hother hencode

/-- The value of a slot that refers to objects goes as their insertion, and has a text. -/
theorem course_slotValue_of_some (hnests : NestsIn world past keep insertNested)
    (href : slot.reference = some (expected, className))
    (hreads : ReadsSlot (past.objectGraph world) keep owner.value position slot s.heap v)
    (hs : Ongoing world past keep i s) :
    Course world past keep i s
      (fun m ↦ ∃ n k, StandsAt (past.objectGraph world) keep owner n position k ∧
        FinishedFrom (past.objectGraph world) keep n m)
      (fun w ↦ ∃ text, w.render = .ok text)
      (fun e under made ↦ ∃ k,
        BreaksAt (past.objectGraph world) keep e owner position k (owner :: under) made)
      (slotValue insertNested slot v) := by
  have hseveral {items : List Value} (htargets : slot.targets s.heap v = items) :
      Course world past keep i s
        (fun m ↦ ∃ n k, StandsAt (past.objectGraph world) keep owner n position k ∧
          FinishedFrom (past.objectGraph world) keep n m)
        (fun w : EngineValue ↦ ∃ text, w.render = .ok text)
        (fun e under made ↦ ∃ k,
          BreaksAt (past.objectGraph world) keep e owner position k (owner :: under) made)
        (do return .multifield (← items.mapM (referenceTo insertNested slot expected))) := by
    have hdrop : (slot.targets s.heap v).drop 0 = items := htargets
    refine .answering
      ((course_mapM_referenceTo hnests hreads href hdrop hs).mono ?_ (fun _ ↦ id) ?_)
      fun ws hws ↦ EngineValue.exists_render_multifield hws
    · rintro m ⟨n, k, -, hm⟩
      exact ⟨n, k, hm⟩
    · rintro e under made ⟨k, -, hbreaks⟩
      exact ⟨k, hbreaks⟩
  unfold slotValue
  refine .after rfl ?_
  rw [href]
  dsimp only
  split
  · exact .pure hs (EngineValue.exists_render_multifield (List.forall_mem_nil _))
  · rename_i hmulti hopened
    exact hseveral (by rw [SlotSchema.targets, if_pos hmulti, hopened, Value.elements])
  · rename_i hmulti hopened
    exact hseveral (by rw [SlotSchema.targets, if_pos hmulti, hopened, Value.elements])
  · rename_i hmulti habsent hlist htuple
    refine .raising hs rfl
      ⟨0, .here (fun _ ↦ ⟨slot, s.heap, v, hreads, ?_⟩) (List.forall_mem_nil _)⟩
    exact .sequence href hmulti habsent fun items ↦ ⟨hlist items, htuple items⟩
  · rename_i hmulti
    have hitem : (slot.targets s.heap v)[0]? = some v := by simp [SlotSchema.targets, hmulti]
    let n : ObjectNode := ⟨v.identityAt (owner.id.part position 0), v⟩
    have hstands : StandsAt (past.objectGraph world) keep owner n position 0 :=
      ⟨rfl, slot, s.heap, v, hreads, by simp [href], hitem⟩
    have hone : Course world past keep i s (FinishedFrom (past.objectGraph world) keep n) _ _
        (referenceTo insertNested slot expected v) :=
          course_referenceTo hnests hreads href hitem rfl hs
    exact hone.mono (fun m hm ↦ ⟨n, 0, hstands, hm⟩) (fun w hw ↦ hw.exists_render)
      fun e under made hbreaks ↦ ⟨0, hbreaks⟩

/-! ### Objects -/

/-- An attribute is what the heap has for it; that an object lacks one refuses no value. -/
theorem exists_runIn_attributeOf (object : Value) (attr : String) (world : World) (s : State) :
    ∃ e : Error, e.refusesValue = false ∧
      (attributeOf object attr).runIn world s =
        ((s.heap.attribute? object attr).elim (.error e) .ok, s) := by
  refine
    ⟨.host (.noAttribute
      ("'" ++ (s.heap.opened object).typeName ++ "' object has no attribute '" ++ attr ++ "'")),
    rfl, ?_⟩
  unfold attributeOf
  rw [Act.runIn_bind_of_ok (show (get : Act State).runIn world s = (.ok s, s) from rfl)]
  dsimp only
  split
  · rename_i v hfound
    rw [show s.heap.attribute? object attr = some v from hfound]
    rfl
  · rename_i hfound
    rw [show s.heap.attribute? object attr = none from hfound]
    rfl

/-- How the slots of an owner go on from a position up to a last one, with the names that the values
are given. -/
def CourseInSlots (world : World) (past : State) (keep : Heap → Prop) (owner : ObjectNode)
    (position stop : Nat) (names : List String) (i : Insertion) (s : State)
    (act : Inserting (List (String × Term))) : Prop :=
  Course world past keep i s (FinishedInSlots (past.objectGraph world) keep owner position stop)
    (fun terms ↦ terms.map (·.1) = names)
    (BreaksInSlots (past.objectGraph world) keep owner position) act

section

variable {stop : Nat} {names : List String} {rest : Term → Inserting (List (String × Term))}
variable (hrest : ∀ t j u, Ongoing world past keep j u →
  CourseInSlots world past keep owner (position + 1) stop names j u (rest t))
include hrest

/-- A slot that refers to no objects finishes nothing, and then the rest goes on. -/
theorem courseInSlots_of_none (href : slot.reference = none)
    (hreads : ReadsSlot (past.objectGraph world) keep owner.value position slot s.heap v)
    (hs : Ongoing world past keep i s) :
    CourseInSlots world past keep owner position stop names i s
      (slotValue insertNested slot v >>= fun w ↦ ofExcept w.term >>= rest) := by
  have hnext : ∀ (w : EngineValue) (j : Insertion) (u : State),
      (∀ e, w.term = .error e → Refusal (past.objectGraph world) keep slot s.heap v 0 e) →
      Ongoing world past keep j u →
      CourseInSlots world past keep owner position stop names j u (ofExcept w.term >>= rest) := by
    intro w j u hw hu
    cases hterm : w.term with
    | ok t =>
      exact .after rfl ((hrest t j u hu).mono (fun _ ↦ .mono (Nat.le_succ _)) (fun _ ↦ id)
        fun _ _ _ ↦ .mono (Nat.le_succ _))
    | error e =>
      refine .raising hu rfl
        ⟨position, 0, Nat.le_refl _, .here (fun _ ↦ ?_) (List.forall_mem_nil _)⟩
      exact ⟨slot, s.heap, v, hreads, hw e hterm⟩
  refine (course_slotValue_of_none href hreads hs).bind hnext (fun _ ↦ False.elim)
    (fun _ ↦ id) ?_ ?_
  · exact fun e under made hbreaks ↦ ⟨position, 0, Nat.le_refl _, hbreaks⟩
  · rintro e under made front hfront ⟨k, l, hk, hbreaks⟩
    exact ⟨k, l, hk, hbreaks.prepend fun m hm ↦ (hfront m hm).elim⟩

/-- A slot that refers to objects finishes what it refers to before the rest goes on. -/
theorem courseInSlots_of_some (hnests : NestsIn world past keep insertNested)
    (href : slot.reference = some (expected, className)) (hstop : position < stop)
    (hreads : ReadsSlot (past.objectGraph world) keep owner.value position slot s.heap v)
    (hs : Ongoing world past keep i s) :
    CourseInSlots world past keep owner position stop names i s
      (slotValue insertNested slot v >>= fun w ↦ ofExcept w.term >>= rest) := by
  have hnext : ∀ (w : EngineValue) (j : Insertion) (u : State), (∃ text, w.render = .ok text) →
      Ongoing world past keep j u →
      CourseInSlots world past keep owner (position + 1) stop names j u
        (ofExcept w.term >>= rest) := by
    intro w j u hw hu
    cases hterm : w.term with
    | ok t => exact .after rfl (hrest t j u hu)
    | error e => exact absurd hterm (EngineValue.term_ne_error hw e)
  refine (course_slotValue_of_some hnests href hreads hs).bind hnext ?_
    (fun m ↦ .mono (Nat.le_succ _)) ?_ ?_
  · rintro m ⟨n, l, hm⟩
    exact ⟨n, position, l, Nat.le_refl _, hstop, hm⟩
  · rintro e under made ⟨l, hbreaks⟩
    exact ⟨position, l, Nat.le_refl _, hbreaks⟩
  · rintro e under made front hfront ⟨k, l, hk, hbreaks⟩
    refine ⟨k, l, Nat.le_of_succ_le hk, hbreaks.prepend fun m hm ↦ ?_⟩
    obtain ⟨n, item, hstands, hfinished⟩ := hfront m hm
    exact ⟨n, position, item, .inl hk, hstands, hfinished⟩

end

/-- The slots of an object from a position on go one after the other, each as what it refers to. -/
theorem courseInSlots_overrides (hnests : NestsIn world past keep insertNested)
    {schema : ClassSchema} (hschema : HasSchema (past.objectGraph world) keep owner.value schema)
    {slots : List SlotSchema} (hslots : schema.slots.drop position = slots)
    (hs : Ongoing world past keep i s) :
    CourseInSlots world past keep owner position schema.slots.length (slots.map (·.name)) i s
      (overrides insertNested owner.value slots) := by
  induction slots generalizing position i s with
  | nil => exact .pure hs rfl
  | cons slot rest ih =>
    have hposition : schema.slots[position]? = some slot := by
      rw [← List.head?_drop, hslots, List.head?_cons]
    have hdrop : schema.slots.drop (position + 1) = rest := by
      rw [← List.drop_drop, hslots, List.drop_one, List.tail_cons]
    have hrest (t : Term) (j : Insertion) (u : State) (hu : Ongoing world past keep j u) :
        CourseInSlots world past keep owner (position + 1) schema.slots.length
          ((slot :: rest).map (·.name)) j u
          (overrides insertNested owner.value rest >>= fun others ↦
            pure ((slot.name, t) :: others)) :=
      Course.answering (ih hdrop hu) fun others hothers ↦ by
        rw [List.map_cons, hothers, List.map_cons]
    obtain ⟨e, he, hrun⟩ := exists_runIn_attributeOf owner.value slot.attr world s
    cases hattr : s.heap.attribute? owner.value slot.attr with
    | none =>
      rw [hattr] at hrun
      refine .raising hs (Carrying.runIn_bind_of_error (Carrying.runIn_lift_of_error hrun)) ?_
      exact ⟨position, 0, Nat.le_refl _,
        .here (fun hrefuses ↦ absurd hrefuses (by simp [he])) (List.forall_mem_nil _)⟩
    | some v =>
      rw [hattr] at hrun
      have hreads : ReadsSlot (past.objectGraph world) keep owner.value position slot s.heap v :=
        ⟨⟨schema, hschema, hposition⟩, hs.amid.heap, hattr⟩
      refine .after (Carrying.runIn_lift_of_ok hrun) ?_
      cases href : slot.reference with
      | none => exact courseInSlots_of_none hrest href hreads hs
      | some reference =>
        exact courseInSlots_of_some hrest hnests href
          (List.getElem?_eq_some_iff.mp hposition).1 hreads hs

/-- The name of an object that was not named before is put down. -/
theorem exists_runIn_giveName {name : Except Error String}
    (hname : ∀ e, name = .error e → e.refusesValue = false)
    (hnew : ∀ id, n.value.cell? = some id → id ∉ i.cells) (hs : Ongoing world past keep i s) :
    ∃ j, Carrying.runIn (giveName n.value name) world i s = (.ok (⟨⟩, j), s) ∧
      Ongoing world past keep j s ∧
      j.cells = cellsOf [n] ++ i.cells := by
  unfold giveName
  cases hcell : n.value.cell? with
  | none => exact ⟨i, rfl, hs, by simp [cellsOf, hcell]⟩
  | some id =>
    refine ⟨{ i with names := (id, name) :: i.names }, rfl, ?_,
      by simp [cellsOf, Insertion.cells, hcell]⟩
    exact
      { amid := hs.amid
        parks := hs.parks
        nodup := List.nodup_cons.mpr ⟨hnew id hcell, hs.nodup⟩
        spared := List.forall_mem_cons.mpr ⟨hname, hs.spared⟩ }

/-- An insertion under a name that is known goes as the slots of the object do, and an instance is
ordered when they are all through. -/
theorem course_insertNamed (hworld : Followable world past keep) {depth : Nat}
    (hnests : NestsIn world past keep (insertNestedWithin depth)) {schema : ClassSchema}
    (hschema : HasSchema (past.objectGraph world) keep n.value schema) {name : Except Error String}
    (hname : ∀ e, name = .error e → e.refusesValue = false)
    (hnew : ∀ id, n.value.cell? = some id → id ∉ i.cells) (hs : Ongoing world past keep i s) :
    Course world past keep i s (FinishedFrom (past.objectGraph world) keep n) (fun _ ↦ True)
      (BreaksOff (past.objectGraph world) keep n) (insertNamed depth n.value schema name) := by
  obtain ⟨j, hgive, hbegun, hcells⟩ := exists_runIn_giveName hname hnew hs
  have hslots := courseInSlots_overrides hnests hschema List.drop_zero hbegun
  constructor
  · intro handle k t hrun
    unfold insertNamed at hrun
    rw [Carrying.runIn_bind_of_ok hgive] at hrun
    obtain ⟨terms, _, u, hoverrides, hcreate⟩ := Carrying.ok_of_bind hrun
    obtain ⟨given, _, _, hgiven, hinstance⟩ := Carrying.ok_of_bind hcreate
    obtain ⟨rfl, rfl, rfl⟩ := Carrying.ok_of_ofExcept hgiven
    obtain ⟨hcreated, rfl⟩ := Carrying.ok_of_lift hinstance
    obtain ⟨hterms, hu, made, hmade, hordered, hnamed⟩ := hslots.answered hoverrides
    have hcreation := creations_of_createInstance hworld.orderly hcreated
    let last : Made := ⟨n, given, schema.name, terms⟩
    have hlast : FinishedFrom (past.objectGraph world) keep n last :=
      ⟨⟨schema, hschema, rfl, hterms⟩, .refl⟩
    refine ⟨trivial, ?_, made ++ [last], ?_, ?_, ?_⟩
    · exact
        { amid := (hworld.calm.keeps_createInstance hworld.orderly _).of_runIn hcreated hu.amid
          parks := (failsByCommands_createInstance hworld.endsCalls hworld.fits _).passesOn.of_runIn
            hcreated hu.parks
          nodup := hu.nodup
          spared := hu.spared }
    · exact fun m hm ↦ (List.mem_append.mp hm).elim (fun hm ↦ (hmade m hm).finishedFrom)
        fun hm ↦ List.mem_singleton.mp hm ▸ hlast
    · rw [hcreation, hordered, List.map_append, List.append_assoc]
      rfl
    · rwa [List.map_append, cellsOf_append, List.append_assoc, List.map_singleton, ← hcells]
  · intro e t hrun he
    have hunder (nodes : List ObjectNode) :
        (cellsOf nodes ++ j.cells).Perm (cellsOf (n :: nodes) ++ i.cells) := by
      have hfirst : cellsOf (n :: nodes) = cellsOf [n] ++ cellsOf nodes := cellsOf_append [n] nodes
      rw [hcells, hfirst, ← List.append_assoc]
      exact List.perm_append_comm.append_right _
    unfold insertNamed at hrun
    rw [Carrying.runIn_bind_of_ok hgive] at hrun
    obtain hoverrides | ⟨terms, k, u, hoverrides, hcreate⟩ := Carrying.cases_of_bind_error hrun
    · obtain ⟨under, made, ⟨k, l, -, hbreaks⟩, hordered, hapart⟩ := hslots.failed hoverrides he
      exact ⟨n :: under, made, .begun hbreaks, hordered, (hunder _).nodup_iff.mp hapart⟩
    · obtain ⟨-, hu, made, hmade, hordered, hnamed⟩ := hslots.answered hoverrides
      obtain hgiven | ⟨given, _, _, hgiven, hinstance⟩ := Carrying.cases_of_bind_error hcreate
      · obtain ⟨hnameless, rfl⟩ := Carrying.error_of_ofExcept hgiven
        have hbreaks : BreaksAt (past.objectGraph world) keep e n schema.slots.length 0 [n] made :=
          .here (fun hrefuses ↦ absurd hrefuses (by simp [hname e hnameless])) fun m hm ↦
            (hmade m hm).finishedBefore
        exact ⟨[n], made, .begun hbreaks, hordered, (hnamed.trans (hunder _)).nodup_iff.mp hu.nodup⟩
      · obtain ⟨rfl, rfl, rfl⟩ := Carrying.ok_of_ofExcept hgiven
        have hanswers :=
          (failsByCommands_createInstance hworld.endsCalls hworld.fits _).raised hu.parks
          (Carrying.error_of_lift hinstance)
        simp [hanswers] at he

/-- That an object is of no struct type refuses no value. -/
theorem Value.refusesValue_unfit (types : TypeTable) (object : Value) :
    (Error.unsupported (object.unfit types)).refusesValue = false := by
  unfold unfit
  split
  · split <;> rfl
  · rfl

/-- Nested objects go as objects do. -/
theorem nestsIn_insertNestedWithin {depth : Nat}
    (hinsert : ∀ {n : ObjectNode} {i : Insertion} {s : State} {type : Hint},
      (s.heap.opened n.value).structType? world.types = some type → Ongoing world past keep i s →
      (∀ id, n.value.cell? = some id → id ∉ i.cells) →
      Course world past keep i s (FinishedFrom (past.objectGraph world) keep n) (fun _ ↦ True)
        (BreaksOff (past.objectGraph world) keep n) (insertWithin depth n.value type .none)) :
    NestsIn world past keep (insertNestedWithin depth) := by
  intro n i s hs hnew
  refine .after rfl (.after rfl ?_)
  dsimp only
  split
  · rename_i type htype
    exact (hinsert htype hs hnew).answering fun _ _ ↦ trivial
  · exact .raising hs rfl (.unbegun (Value.refusesValue_unfit _ _))

theorem Value.refusesValue_of_matchable {v : Value} {e : Error}
    (hrefused : v.matchable = .error e) :
    e.refusesValue = false := by
  unfold matchable at hrefused
  split at hrefused <;> cases hrefused <;> rfl

/-- An insertion either has made instances of what it reached, one each, or it is broken off where a
value is refused. -/
theorem course_insertWithin (hworld : Followable world past keep) (depth : Nat) {type : Hint}
    {name : Value} (htype : (s.heap.opened n.value).structType? world.types = some type)
    (hs : Ongoing world past keep i s) (hnew : ∀ id, n.value.cell? = some id → id ∉ i.cells) :
    Course world past keep i s (FinishedFrom (past.objectGraph world) keep n) (fun _ ↦ True)
      (BreaksOff (past.objectGraph world) keep n) (insertWithin depth n.value type name) := by
  induction depth generalizing n i s type name with
  | zero => exact .raising hs rfl (.unbegun rfl)
  | succ depth ih =>
    have hnests : NestsIn world past keep (insertNestedWithin depth) :=
      nestsIn_insertNestedWithin fun htype hs hnew ↦ ih htype hs hnew
    have hframe := hworld.orderly.frame .asking
    have hstays := hworld.calm.frame hworld.orderly
    rw [insertWithin_succ]
    refine .asking hs (hframe.prepare type) (hstays.prepare type)
      (spares_prepare hworld.endsCalls hworld.fits type) (fun hrun ↦ (ok_of_prepare hrun).2)
      (fun _ ↦ .unbegun) ?_
    intro schema j t hprepare ht
    obtain ⟨hreflected, hnames⟩ := ok_of_prepare hprepare
    have hschema : HasSchema (past.objectGraph world) keep n.value schema := by
      obtain ⟨a, rfl⟩ := atom_of_structType? htype
      exact ⟨s.heap, hs.amid.heap,
        (State.schemaOf_of_structType? htype).trans (hs.amid.schemas a ▸ hreflected)⟩
    have hunnamed : ∀ id, n.value.cell? = some id → id ∉ j.cells := by
      rwa [Insertion.cells, hnames]
    unfold nameFor
    split
    · have hfresh {given : Except Error String} {k : Insertion} {u : State}
          (hrun : Carrying.runIn (Except.ok <$> liftM freshName : Inserting (Except Error String))
            world j t = (.ok (given, k), u)) : (∃ fresh, given = .ok fresh) ∧ k = j := by
        obtain ⟨fresh, rfl, hlift⟩ := Carrying.ok_of_map hrun
        exact ⟨⟨fresh, rfl⟩, (Carrying.ok_of_lift hlift).2.symm⟩
      refine .asking ht (Carrying.Meets.iff_keeps.mp (.map _ (.lift hframe.inquiring.freshName)))
        (Carrying.Meets.iff_keeps.mp (.map _ (.lift hstays.inquiring.freshName)))
        (.map _ (.lift (spares_freshName hworld.endsCalls hworld.fits)))
        (fun hrun ↦ by rw [(hfresh hrun).2])
        (fun _ ↦ .unbegun) ?_
      intro given k u hgiven hu
      obtain ⟨⟨fresh, rfl⟩, rfl⟩ := hfresh hgiven
      exact course_insertNamed hworld hnests hschema (fun _ he ↦ by cases he) hunnamed hu
    · exact .after rfl
        (course_insertNamed hworld hnests hschema
        (fun e ↦ Value.refusesValue_of_matchable) hunnamed ht)

end

end RuleMarshal
