import RuleMarshal.Proofs.Extraction.Building
import RuleMarshal.Proofs.RoundTrip.Record
/-!
New objects in the course of an extraction. Reading the defaults of a type makes cells and labels,
and nothing else (`MakesOnly`), so a state in which a new object was made goes on from the one
before (`State.Continues`). A type whose defaults can be read whatever was made before can be made
over and over (`World.Makes`); an instance that was not visited before is then extracted into a new
object (`exists_anew`).
-/

set_option autoImplicit false
set_option relaxedAutoImplicit false

namespace RuleMarshal

open Act

/-! ### States that go on -/

/-- What lies between two states if cells were made, or filled, and labels were given to objects. -/
def MakesOnly (s t : State) : Prop :=
  ∃ heap labels, t = { s with heap := heap, labels := labels } ∧
    ∀ label, (s.labels.lookup label).isSome → (labels.lookup label).isSome

instance MakesOnly.isPreorder : IsPreorder State MakesOnly where
  refl s := ⟨s.heap, s.labels, rfl, fun _ hknown ↦ hknown⟩
  trans s t u hst htu := by
    obtain ⟨_, _, rfl, hknown⟩ := hst
    obtain ⟨heap, labels, rfl, hstill⟩ := htu
    exact ⟨heap, labels, rfl, fun label hlabel ↦ hstill label (hknown label hlabel)⟩

theorem MakesOnly.of_heap (s : State) (heap : Heap) : MakesOnly s { s with heap := heap } :=
  ⟨heap, s.labels, rfl, fun _ hknown ↦ hknown⟩

theorem MakesOnly.building {world : World} : Building world MakesOnly fun _ ↦ True where
  labels s label object := by
    refine ⟨s.heap, _, rfl, fun other hknown ↦ ?_⟩
    by_cases hsame : other = label
    · simp [hsame]
    · rwa [lookup_putNamed_ne _ _ hsame]
  alloc cell next hnext s :=
    trans_of MakesOnly (.of_heap s (s.heap.alloc cell).1) (hnext s.heap.cells.size trivial _)
  fill _ _ s := .of_heap s _

/-- Whether a state goes on from another: names stand for the same, labels are known still, and
cells that were there are as they were. -/
structure State.Continues (s t : State) : Prop where
  named : t.named = s.named
  labels : ∀ label, (s.labels.lookup label).isSome → (t.labels.lookup label).isSome
  size : s.heap.cells.size ≤ t.heap.cells.size
  cells : ∀ id < s.heap.cells.size, t.heap.get? id = s.heap.get? id

/-- Whether new objects of a struct type can be made in every state that goes on from one. -/
def World.Makes (world : World) (s : State) (struct : String) : Prop :=
  ∀ t, s.Continues t → ∃ o u,
    Act.runIn (do blank (.struct struct) (← fieldsAnew (.struct struct))) world t = (.ok o, u)

namespace State.Continues

variable {s t u : State}

theorem refl (s : State) : s.Continues s :=
  ⟨rfl, fun _ hknown ↦ hknown, Nat.le_refl _, fun _ _ ↦ rfl⟩

/-- A state that has the same names, labels and heap as one that goes on. -/
theorem of_eq (hst : s.Continues t) (hnamed : u.named = t.named) (hlabels : u.labels = t.labels)
    (hheap : u.heap = t.heap) : s.Continues u where
  named := hnamed.trans hst.named
  labels := hlabels ▸ hst.labels
  size := hheap ▸ hst.size
  cells := hheap ▸ hst.cells

/-- What fills a cell that is made meanwhile goes on. -/
theorem put (hst : s.Continues t) {id : Nat} (hid : s.heap.cells.size ≤ id) (cell : Cell) :
    s.Continues { t with heap := t.heap.put id cell } where
  named := hst.named
  labels := hst.labels
  size := by simpa [Heap.put] using hst.size
  cells other hother := by
    rw [t.heap.get?_put_ne cell (Nat.ne_of_gt (Nat.lt_of_lt_of_le hother hid))]
    exact hst.cells other hother

end State.Continues

/-! ### New objects -/

/-- A new object in a state: in a cell of its own, with all other cells as they were. -/
structure Anew (s : State) (id : Nat) (t : State) : Prop where
  only : ∃ heap labels readings,
    t = { s with heap := heap, labels := labels, readings := readings } ∧
    ∀ label, (s.labels.lookup label).isSome → (labels.lookup label).isSome
  size : s.heap.cells.size ≤ t.heap.cells.size
  cells : ∀ other < s.heap.cells.size, t.heap.get? other = s.heap.get? other
  fresh : s.heap.cells.size ≤ id
  object : ∃ attrs, t.heap.get? id = some (.object attrs)

section

variable {world : World} {s t : State} {struct : String} {declared : List Field}

/-- The fields of a type in another reading. -/
def fieldsInReading (number : Nat) (fields : List Field) : List Field :=
  fields.map fun f ↦ { f with hint := f.hint.inReading number }

theorem attrs_fieldsInReading (number : Nat) (fields : List Field) :
    (fieldsInReading number fields).map (·.attr) = fields.map (·.attr) := by
  simp [fieldsInReading, Function.comp_def]

theorem runIn_fieldsAnew
    (hfields : world.types.fields world.config.tags (.struct struct) = .ok declared) :
    (fieldsAnew (.struct struct)).runIn world s =
      (.ok (fieldsInReading (s.readings + 1) declared), { s with readings := s.readings + 1 }) := by
  have hread : (read : Act World).runIn world s = (.ok world, s) := rfl
  unfold fieldsAnew
  rw [runIn_bind_of_ok hread, hfields]
  rfl

/-- A type that can be made is made in a cell of its own. -/
theorem World.Makes.exists_anew (hmakes : world.Makes s struct) (hst : s.Continues t)
    (hfields : world.types.fields world.config.tags (.struct struct) = .ok declared) :
    ∃ number id u, (fieldsAnew (.struct struct)).runIn world t =
        (.ok (fieldsInReading number declared), { t with readings := t.readings + 1 }) ∧
      (blank (.struct struct) (fieldsInReading number declared)).runIn world
        { t with readings := t.readings + 1 } = (.ok (.object struct id), u) ∧
      Anew t id u := by
  obtain ⟨o, u, hrun⟩ := hmakes t hst
  rw [runIn_bind_of_ok (runIn_fieldsAnew hfields)] at hrun
  obtain ⟨found, id, attrs, rfl, hname, hid, hget⟩ := ok_of_blank hrun
  obtain rfl := hname struct rfl
  have hcells := (keeps_blank Builds.building _ _).of_runIn hrun (Nat.le_refl _)
  obtain ⟨heap, labels, hu, hlabels⟩ := (keeps_blank MakesOnly.building _ _).of_runIn hrun
  refine ⟨t.readings + 1, id, u, runIn_fieldsAnew hfields, hrun, ?_⟩
  exact ⟨⟨heap, labels, _, hu, hlabels⟩, hcells.size, hcells.cells, hid, attrs, hget⟩

theorem Anew.continues {begun : State} {id : Nat} (hanew : Anew s id t) (hs : begun.Continues s) :
    begun.Continues t := by
  obtain ⟨⟨heap, labels, readings, rfl, hlabels⟩, hsize, hcells, -, -⟩ := hanew
  exact ⟨hs.named, fun label hknown ↦ hlabels label (hs.labels label hknown),
    Nat.le_trans hs.size hsize,
    fun id hid ↦ (hcells id (Nat.lt_of_lt_of_le hid hs.size)).trans (hs.cells id hid)⟩

end

/-! ### Types that can be made -/

/-- Whether a computation ends with an answer, wherever it begins. -/
def Act.Succeeds {α : Type} (world : World) (act : Act α) : Prop :=
  ∀ s, ∃ a t, act.runIn world s = (.ok a, t)

namespace Act.Succeeds

variable {world : World} {α β γ : Type}

theorem bind {act : Act α} {next : α → Act β} (hact : Succeeds world act)
    (hnext : ∀ a, Succeeds world (next a)) : Succeeds world (act >>= next) := by
  intro s
  obtain ⟨a, t, hrun⟩ := hact s
  obtain ⟨b, u, hlater⟩ := hnext a t
  exact ⟨b, u, by rw [runIn_bind_of_ok hrun, hlater]⟩

theorem pure (a : α) : Succeeds world (pure a : Act α) := fun s ↦ ⟨a, s, rfl⟩

theorem forM {f : γ → Act PUnit} {items : List γ} (hf : ∀ c ∈ items, Succeeds world (f c)) :
    Succeeds world (items.forM f) := by
  induction items with
  | nil => exact pure _
  | cons c rest ih =>
    exact (hf c List.mem_cons_self).bind fun _ ↦ ih fun d hd ↦ hf d (List.mem_cons_of_mem c hd)

end Act.Succeeds

/-- A type can be made if its fields have values at first that can be read anywhere. -/
theorem World.makes_of_initial {world : World} {struct : String} {declared : List Field}
    {declaration : StructType}
    (hfields : world.types.fields world.config.tags (.struct struct) = .ok declared)
    (hdeclared : world.types.find? struct = some declaration)
    (hkind : world.types.kindOf declaration ≠ .model)
    (hinitial : ∀ number, ∀ f ∈ fieldsInReading number declared, ∃ initial,
      f.initial = .ok initial ∧ initial.value.Succeeds world)
    (s : State) : world.Makes s struct := by
  intro t _
  rw [runIn_bind_of_ok (runIn_fieldsAnew hfields)]
  have hblank : (blank (.struct struct) (fieldsInReading (t.readings + 1) declared)).Succeeds
      world := by
    intro u
    unfold blank
    dsimp only
    rw [runIn_bind_of_ok (runIn_read world u), hdeclared]
    dsimp only
    rw [if_neg hkind]
    unfold blank.filled
    refine Act.Succeeds.bind (fun u ↦ ⟨_, _, runIn_alloc world u _⟩) (fun id ↦ ?_) u
    refine Act.Succeeds.bind (.forM fun f hf ↦ ?_) fun _ ↦ .pure _
    obtain ⟨initial, hvalue, hread⟩ := hinitial _ f hf
    dsimp only
    rw [hvalue]
    exact hread.bind fun v u ↦ ⟨_, _, rfl⟩
  exact hblank _

end RuleMarshal
