import RuleMarshal.Proofs.Environment.Sparing
import RuleMarshal.Proofs.Insertion.Simulation
/-!
Insertions that are broken off. An insertion that fails is broken off in the midst of objects under
way, each of which stands in a slot of the one before, down to the one that holds what could not be
gone on with, such as a value that is refused. Instances were made of what was finished before: each
was reached from something that stands in an object under way, in a place before the one that the
insertion had come to there (`BreaksAt`).

The run is followed from both ends at once: a part of it either answers, and has made what it
finished, or it is broken off (`Course`). A failure that answers a command is left out, since the
command may have been the order of an instance. Courses are put together by rules, one for each way
of building a computation. Nothing is counted on but that the host functions which the engine calls
keep some part of the heap, which may be none at all.
-/

set_option autoImplicit false
set_option relaxedAutoImplicit false

namespace RuleMarshal

open Act

/-! ### What is finished and what is refused -/

section

variable (g : ObjectGraph) (keep : Heap → Prop)

/-- A value has a schema on some heap that was kept. -/
def HasSchema (v : Value) (schema : ClassSchema) : Prop :=
  ∃ heap, keep heap ∧ ObjectGraph.schemaOf { g with heap } v = some schema

/-- A slot of an object, and what its field holds on a heap that was kept. -/
structure ReadsSlot (owner : Value) (position : Nat) (slot : SlotSchema) (heap : Heap) (v : Value) :
    Prop where
  schema : ∃ schema, HasSchema g keep owner schema ∧ schema.slots[position]? = some slot
  kept : keep heap
  holds : heap.attribute? owner slot.attr = some v

/-- What stands in a slot of an object that refers to objects, and where. -/
structure StandsAt (owner n : ObjectNode) (position item : Nat) : Prop where
  place : n.id = n.value.identityAt (owner.id.part position item)
  value : ∃ slot heap v, ReadsSlot g keep owner.value position slot heap v ∧ slot.reference.isSome ∧
    (slot.targets heap v)[item]? = some n.value

/-- Why what a field holds is refused, and which item of it. -/
inductive Refusal (slot : SlotSchema) (heap : Heap) (v : Value) : Nat → Error → Prop
  /-- It has no form under the declared type. -/
  | form {e : Error} (href : slot.reference = none)
      (hpresent : slot.multi = true → heap.content v ≠ .none)
      (hencode : slot.hint.encode (heap.content v) = .error e) : Refusal slot heap v 0 e
  /-- Its form has no text. -/
  | text {w : EngineValue} {e : Error} (href : slot.reference = none)
      (hencode : slot.hint.encode (heap.content v) = .ok w) (hterm : w.term = .error e) :
        Refusal slot heap v 0 e
  /-- It is no sequence of objects. -/
  | sequence {expected : Hint} {className : String}
      (href : slot.reference = some (expected, className))
      (hmulti : slot.multi = true) (hpresent : heap.opened v ≠ .none)
      (hother : ∀ items, heap.opened v ≠ .list items ∧ heap.opened v ≠ .tuple items) :
      Refusal slot heap v 0 (.mismatch (.sequenceExpected slot.name className))
  /-- An object is not of the struct type that the slot refers to. -/
  | object {expected : Hint} {className : String} {n : Value} {item : Nat} {now : Heap}
      (href : slot.reference = some (expected, className))
      (hitem : (slot.targets heap v)[item]? = some n)
      (hkept : keep now) (hpresent : now.opened n ≠ .none)
      (hother : (now.opened n).isOfType g.types expected = false) :
      Refusal slot heap v item
        (.mismatch (.structExpected slot.name expected.shortName (now.opened n).typeName))

/-- In a place of an object stands a value that is refused. -/
def RefusesAt (owner : ObjectNode) (position item : Nat) (e : Error) : Prop :=
  ∃ slot heap v, ReadsSlot g keep owner.value position slot heap v ∧
    Refusal g keep slot heap v item e

/-- An instance that was ordered with a value for every slot of its object, in order. -/
def Made.IsComplete (m : Made) : Prop :=
  ∃ schema, HasSchema g keep m.node.value schema ∧ m.className = schema.name ∧
    m.slots.map (·.1) = schema.slots.map (·.name)

/-- An instance that was finished of an object that is reached from another one. -/
def FinishedFrom (n : ObjectNode) (m : Made) : Prop :=
  m.IsComplete g keep ∧
    Relation.ReflTransGen (fun a b ↦ ∃ position item, StandsAt g keep a b position item) n m.node

/-- An instance that was finished of an object that is reached from an earlier place of an owner. -/
def FinishedBefore (owner : ObjectNode) (position item : Nat) (m : Made) : Prop :=
  ∃ n k l, (k < position ∨ k = position ∧ l < item) ∧ StandsAt g keep owner n k l ∧
    FinishedFrom g keep n m

/-- An insertion broken off in a place of an object, with the objects under way from there on, and
the instances that were finished before. -/
inductive BreaksAt (e : Error) : ObjectNode → Nat → Nat → List ObjectNode → List Made → Prop
  /-- The insertion goes no further; if a value is refused, it is the one that stands there. -/
  | here {owner : ObjectNode} {position item : Nat} {made : List Made}
      (hrefused : e.refusesValue = true → RefusesAt g keep owner position item e)
      (hbefore : ∀ m ∈ made, FinishedBefore g keep owner position item m) :
      BreaksAt e owner position item [owner] made
  /-- The insertion of the object that stands there is broken off. -/
  | inside {owner n : ObjectNode} {position item k l : Nat} {under : List ObjectNode}
      {earlier made : List Made}
      (hstands : StandsAt g keep owner n position item)
      (hbefore : ∀ m ∈ earlier, FinishedBefore g keep owner position item m)
      (hinside : BreaksAt e n k l under made) :
      BreaksAt e owner position item (owner :: under) (earlier ++ made)

/-- An insertion of an object broken off before it was begun, or in a place of the object. -/
inductive BreaksOff (n : ObjectNode) (e : Error) : List ObjectNode → List Made → Prop
  | unbegun (hspared : e.refusesValue = false) : BreaksOff n e [] []
  | begun {position item : Nat} {under : List ObjectNode} {made : List Made}
      (hbreaks : BreaksAt g keep e n position item under made) : BreaksOff n e under made

/-- An instance that was finished of an object that is reached from an owner's slots between two
positions. -/
def FinishedInSlots (owner : ObjectNode) (position stop : Nat) (m : Made) : Prop :=
  ∃ n k l, position ≤ k ∧ k < stop ∧ StandsAt g keep owner n k l ∧ FinishedFrom g keep n m

/-- An insertion broken off in the slots of an object from a position on, with the objects that
stand in one another under it. -/
def BreaksInSlots (owner : ObjectNode) (position : Nat) (e : Error) (under : List ObjectNode)
    (made : List Made) :
    Prop :=
  ∃ k l, position ≤ k ∧ BreaksAt g keep e owner k l (owner :: under) made

end

section

variable {g : ObjectGraph} {keep : Heap → Prop} {e : Error} {owner n : ObjectNode}
variable {position item : Nat}
variable {under : List ObjectNode} {made : List Made} {m : Made} {stop : Nat}

theorem StandsAt.finishedFrom (hstands : StandsAt g keep owner n position item)
    (hm : FinishedFrom g keep n m) :
    FinishedFrom g keep owner m :=
  ⟨hm.1, .head ⟨position, item, hstands⟩ hm.2⟩

theorem FinishedInSlots.finishedFrom (hm : FinishedInSlots g keep owner position stop m) :
    FinishedFrom g keep owner m := by
  obtain ⟨n, k, l, -, -, hstands, hfrom⟩ := hm
  exact hstands.finishedFrom hfrom

theorem FinishedInSlots.finishedBefore (hm : FinishedInSlots g keep owner position stop m) :
    FinishedBefore g keep owner stop 0 m := by
  obtain ⟨n, k, l, -, hstop, hstands, hfrom⟩ := hm
  exact ⟨n, k, l, .inl hstop, hstands, hfrom⟩

theorem FinishedInSlots.mono {earlier : Nat} (hle : earlier ≤ position)
    (hm : FinishedInSlots g keep owner position stop m) :
    FinishedInSlots g keep owner earlier stop m := by
  obtain ⟨n, k, l, hk, hm⟩ := hm
  exact ⟨n, k, l, hle.trans hk, hm⟩

theorem BreaksInSlots.mono {earlier : Nat} (hle : earlier ≤ position)
    (hbreaks : BreaksInSlots g keep owner position e under made) :
    BreaksInSlots g keep owner earlier e under made := by
  obtain ⟨k, l, hk, hbreaks⟩ := hbreaks
  exact ⟨k, l, hle.trans hk, hbreaks⟩

/-- What was finished before the place may be put in front. -/
theorem BreaksAt.prepend {front : List Made}
    (hbreaks : BreaksAt g keep e owner position item under made)
    (hfront : ∀ m ∈ front, FinishedBefore g keep owner position item m) :
    BreaksAt g keep e owner position item under (front ++ made) := by
  cases hbreaks with
  | here hrefused hbefore =>
    exact .here hrefused fun m hm ↦ (List.mem_append.mp hm).elim (hfront m) (hbefore m)
  | inside hstands hbefore hinside =>
    rw [← List.append_assoc]
    exact .inside hstands (fun m hm ↦ (List.mem_append.mp hm).elim (hfront m) (hbefore m)) hinside

end

/-! ### Courses -/

/-- The cells of objects. -/
def cellsOf (nodes : List ObjectNode) : List Nat := nodes.filterMap (·.value.cell?)

/-- The cells that were given names. -/
def Insertion.cells (i : Insertion) : List Nat := i.names.map (·.1)

/-- What is counted on while an insertion is followed: the calls of host functions end and keep some
part of the heap, and the engine hands over no integers but such as it takes. -/
structure Followable (world : World) (past : State) (keep : Heap → Prop) : Prop where
  orderly : world.Orderly
  endsCalls : world.EndsCalls
  calm : Calm world past keep
  fits : AnswersFit world.engine

/-- A state in the midst of an insertion, with what was named so far. -/
structure Ongoing (world : World) (past : State) (keep : Heap → Prop) (i : Insertion) (s : State) :
    Prop where
  amid : Amid world past keep s
  parks : s.ParksCall
  nodup : i.cells.Nodup
  spared : ∀ p ∈ i.names, ∀ e, p.2 = .error e → e.refusesValue = false

/-- How a part of an insertion goes on from a state. If it answers, it has made instances of what it
has named; if it fails otherwise than by the answer to a command, it has made instances that were
finished, and of none of the objects that are then under way. -/
structure Course {α : Type} (world : World) (past : State) (keep : Heap → Prop) (i : Insertion)
    (s : State) (finished : Made → Prop) (found : α → Prop)
    (broken : Error → List ObjectNode → List Made → Prop) (act : Inserting α) : Prop where
  answered : ∀ {a j t}, Carrying.runIn act world i s = (.ok (a, j), t) →
    found a ∧ Ongoing world past keep j t ∧ ∃ made : List Made, (∀ m ∈ made, finished m) ∧
      t.creations = s.creations ++ made.map Made.creation ∧
      j.cells.Perm (cellsOf (made.map (·.node)) ++ i.cells)
  failed : ∀ {e t}, Carrying.runIn act world i s = (.error e, t) → e.answersCommand = false →
    ∃ (under : List ObjectNode) (made : List Made), broken e under made ∧
      t.creations = s.creations ++ made.map Made.creation ∧
      (cellsOf (under ++ made.map (·.node)) ++ i.cells).Nodup

section

variable {world : World} {past s t : State} {keep : Heap → Prop} {i j : Insertion} {α β : Type}
variable {finished first second : Made → Prop} {found : α → Prop} {given : β → Prop}
variable {broken breaking failing : Error → List ObjectNode → List Made → Prop}

theorem cellsOf_append (xs ys : List ObjectNode) : cellsOf (xs ++ ys) = cellsOf xs ++ cellsOf ys :=
  List.filterMap_append

namespace Course

theorem pure {a : α} (hs : Ongoing world past keep i s) (ha : found a) :
    Course world past keep i s finished found broken (pure a) where
  answered hrun := by
    obtain ⟨rfl, rfl, rfl⟩ := Carrying.ok_of_pure hrun
    exact ⟨ha, hs, [], nofun, by simp, by simp [cellsOf]⟩
  failed hrun := nomatch hrun

/-- What fails at once has made nothing. -/
theorem raising {act : Inserting α} {e : Error} (hs : Ongoing world past keep i s)
    (hact : Carrying.runIn act world i s = (.error e, s)) (hbroken : broken e [] []) :
    Course world past keep i s finished found broken act where
  answered hrun := nomatch hact.symm.trans hrun
  failed hrun _ := by
    cases hact.symm.trans hrun
    exact ⟨[], [], hbroken, by simp, by simpa [cellsOf] using hs.nodup⟩

/-- One part after the other. What the first part has finished stands in front of what the second
one is broken off with. -/
theorem bind {act : Inserting α} {next : α → Inserting β}
    (hact : Course world past keep i s first found breaking act)
    (hnext : ∀ a j t, found a → Ongoing world past keep j t →
      Course world past keep j t second given failing (next a))
    (hfirst : ∀ m, first m → finished m) (hsecond : ∀ m, second m → finished m)
    (hbreaking : ∀ e under made, breaking e under made → broken e under made)
    (hfailing : ∀ e under made front, (∀ m ∈ front, first m) → failing e under made →
      broken e under (front ++ made)) :
    Course world past keep i s finished given broken (act >>= next) where
  answered hrun := by
    obtain ⟨a, k, u, hhead, htail⟩ := Carrying.ok_of_bind hrun
    obtain ⟨ha, hu, front, hfront, hordered, hnamed⟩ := hact.answered hhead
    obtain ⟨hb, ht, made, hmade, hmore, hlater⟩ := (hnext a k u ha hu).answered htail
    refine ⟨hb, ht, front ++ made, fun m hm ↦ ?_, ?_, ?_⟩
    · exact (List.mem_append.mp hm).elim (hfirst m ∘ hfront m) (hsecond m ∘ hmade m)
    · rw [hmore, hordered, List.map_append, List.append_assoc]
    · rw [List.map_append, cellsOf_append]
      refine (hlater.trans (hnamed.append_left _)).trans ?_
      rw [← List.append_assoc]
      exact List.perm_append_comm.append_right _
  failed hrun he := by
    obtain hhead | ⟨a, k, u, hhead, htail⟩ := Carrying.cases_of_bind_error hrun
    · obtain ⟨under, made, hbroken, hordered, hapart⟩ := hact.failed hhead he
      exact ⟨under, made, hbreaking _ _ _ hbroken, hordered, hapart⟩
    · obtain ⟨ha, hu, front, hfront, hordered, hnamed⟩ := hact.answered hhead
      obtain ⟨under, made, hbroken, hmore, hapart⟩ := (hnext a k u ha hu).failed htail he
      refine ⟨under, front ++ made, hfailing _ _ _ _ hfront hbroken, ?_, ?_⟩
      · rw [hmore, hordered, List.map_append, List.append_assoc]
      · refine (List.Perm.nodup_iff ?_).mp hapart
        simp only [List.map_append, cellsOf_append, List.append_assoc]
        refine .append_left _ ((hnamed.append_left _).trans ?_)
        rw [← List.append_assoc, ← List.append_assoc]
        exact List.perm_append_comm.append_right _

/-- What follows may be known of what a part comes to. -/
theorem mono {act : Inserting α} {known : α → Prop}
    (hact : Course world past keep i s first found breaking act)
    (hfirst : ∀ m, first m → finished m) (hknown : ∀ a, found a → known a)
    (hbreaking : ∀ e under made, breaking e under made → broken e under made) :
    Course world past keep i s finished known broken act where
  answered hrun := by
    obtain ⟨ha, ht, made, hmade, hrest⟩ := hact.answered hrun
    exact ⟨hknown _ ha, ht, made, fun m hm ↦ hfirst m (hmade m hm), hrest⟩
  failed hrun he := by
    obtain ⟨under, made, hbroken, hrest⟩ := hact.failed hrun he
    exact ⟨under, made, hbreaking _ _ _ hbroken, hrest⟩

/-- What is answered may be made from what a part comes to. -/
theorem answering {act : Inserting α} {f : α → β}
    (hact : Course world past keep i s finished found broken act)
    (hf : ∀ a, found a → given (f a)) :
    Course world past keep i s finished given broken (act >>= fun a ↦ Pure.pure (f a)) where
  answered hrun := by
    obtain ⟨a, j, t, hfirst, hreturn⟩ := Carrying.ok_of_bind hrun
    obtain ⟨rfl, rfl, rfl⟩ := Carrying.ok_of_pure hreturn
    obtain ⟨ha, hrest⟩ := hact.answered hfirst
    exact ⟨hf a ha, hrest⟩
  failed hrun he := by
    obtain hfirst | ⟨a, j, t, -, hreturn⟩ := Carrying.cases_of_bind_error hrun
    · exact hact.failed hfirst he
    · cases hreturn

/-- What answers and leaves everything as it is comes first. -/
theorem after {act : Inserting α} {next : α → Inserting β} {a : α}
    (hact : Carrying.runIn act world i s = (.ok (a, i), s))
    (hnext : Course world past keep i s finished given broken (next a)) :
    Course world past keep i s finished given broken (act >>= next) where
  answered hrun := hnext.answered (by rwa [Carrying.runIn_bind_of_ok hact] at hrun)
  failed hrun := hnext.failed (by rwa [Carrying.runIn_bind_of_ok hact] at hrun)

/-- What only asks, names nothing and spares values comes first. -/
theorem asking {act : Inserting α} {next : α → Inserting β} (hs : Ongoing world past keep i s)
    (hasks : Carrying.Keeps (Evolves world.setup .asking) world act)
    (hstays : Carrying.Keeps (StaysAmid world past keep) world act)
    (hspares : Carrying.Spares world act)
    (hnames : ∀ {a j t}, Carrying.runIn act world i s = (.ok (a, j), t) → j.names = i.names)
    (hbroken : ∀ e, e.refusesValue = false → broken e [] [])
    (hnext : ∀ a j t, Carrying.runIn act world i s = (.ok (a, j), t) → Ongoing world past keep j t →
      Course world past keep j t finished given broken (next a)) :
    Course world past keep i s finished given broken (act >>= next) := by
  have hgoes : ∀ {a j t}, Carrying.runIn act world i s = (.ok (a, j), t) →
      t.creations = s.creations ∧ j.cells = i.cells ∧
        Course world past keep j t finished given broken (next a) := by
    intro a j t hrun
    have hcells : j.cells = i.cells := by rw [Insertion.cells, hnames hrun, Insertion.cells]
    refine ⟨((hasks i).of_runIn hrun).creations_eq (.inl rfl), hcells, hnext a j t hrun ?_⟩
    exact
      { amid := (hstays i).of_runIn hrun hs.amid
        parks := (hspares i).passesOn.of_runIn hrun hs.parks
        nodup := hcells ▸ hs.nodup
        spared := hnames hrun ▸ hs.spared }
  constructor
  · intro b k u hrun
    obtain ⟨a, j, t, hfirst, hrest⟩ := Carrying.ok_of_bind hrun
    obtain ⟨hcreations, hcells, hcourse⟩ := hgoes hfirst
    have hanswered := hcourse.answered hrest
    rwa [hcreations, hcells] at hanswered
  · intro e u hrun he
    obtain hfirst | ⟨a, j, t, hfirst, hrest⟩ := Carrying.cases_of_bind_error hrun
    · refine ⟨[], [], hbroken e ((hspares i).raised hs.parks hfirst), ?_,
        by simpa [cellsOf] using hs.nodup⟩
      rw [((hasks i).of_runIn hfirst).creations_eq (.inl rfl), List.map_nil, List.append_nil]
    · obtain ⟨hcreations, hcells, hcourse⟩ := hgoes hfirst
      have hfailed := hcourse.failed hrest he
      rwa [hcreations, hcells] at hfailed

end Course

end

end RuleMarshal
