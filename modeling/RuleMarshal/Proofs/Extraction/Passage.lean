import RuleMarshal.Proofs.Extraction.Presentation
/-!
What an extraction does between two of its states (`Passage`). It visits more, makes cells and
writes no others than its own, and reads slots no more often than the passes of what it visits do.
While it is under way, every instance was visited once for each destination and what was built for
it presents a part of it (`Underway`); what was visited and ended well presents the whole
(`WholeSince`).
-/

set_option autoImplicit false
set_option relaxedAutoImplicit false

namespace RuleMarshal

open Act

/-! ### Under way -/

/-- What has been built for an instance under a destination. -/
def State.built (s : State) (key : String × Destination) : Option Value := s.visited.lookup key

/-- What an object that is built for an instance under a destination makes of a state. -/
def State.visiting (s : State) (key : String × Destination) (o : Value) : State :=
  { s with visited := (key, o) :: s.visited }

@[simp]
theorem State.visiting_visited (s : State) (key : String × Destination) (o : Value) :
    (s.visiting key o).visited = (key, o) :: s.visited := rfl

@[simp]
theorem State.visiting_reads (s : State) (key : String × Destination) (o : Value)
    (name slot : String) : (s.visiting key o).reads name slot = s.reads name slot := rfl

/-- An extraction is under way: the engine answers from the store, no instance was visited twice for
one destination, and what was built for it is an object of its own that presents a part of it. -/
structure Underway (world : World) (store : Store) (s : State) : Prop where
  answers : Answers world.engine store s.history
  keys : (s.visited.map (·.1)).Nodup
  cells : ∀ p ∈ s.visited, ∀ q ∈ s.visited, ∀ id, p.2.storage? = some id →
    q.2.storage? = some id → p = q
  presents : ∀ p ∈ s.visited, Presents world store s.built s.heap False p.1 p.2

/-- What lies between two states of an extraction, if the cells that it wrote are new or its own and
slots were read as often as allowed besides the passes of what was visited. -/
structure Passage (world : World) (store : Store) (own : Option Nat)
    (allowed : String → String → Nat) (s t : State) : Prop where
  underway : Underway world store t
  size : s.heap.cells.size ≤ t.heap.cells.size
  cells : ∀ id < s.heap.cells.size, own ≠ some id → t.heap.get? id = s.heap.get? id
  visited : ∃ new, t.visited = new ++ s.visited
  fresh : ∀ p ∈ t.visited, p ∉ s.visited → ∀ id, p.2.storage? = some id →
    own = some id ∨ s.heap.cells.size ≤ id
  reads : ∀ name slot, t.reads name slot + world.quota store s.visited name slot ≤
    s.reads name slot + world.quota store t.visited name slot + allowed name slot

/-- A step before a visit: nothing is visited in it, and no cell is written that was there. -/
structure Prepares (world : World) (store : Store) (s t : State) : Prop where
  passage : Passage world store none 0 s t
  visited : t.visited = s.visited

/-- Whether what was visited between two states presents the whole of its instance, unless some
field offers a choice. -/
def WholeSince (world : World) (store : Store) (s t : State) : Prop :=
  ¬world.Declares .choice → ∀ p ∈ t.visited, p ∉ s.visited →
    Presents world store t.built t.heap True p.1 p.2

section

variable {world : World} {store : Store} {own : Option Nat} {allowed more : String → String → Nat}
variable {s t u : State}

/-! ### What was built -/

namespace Underway

theorem built_of_mem (hs : Underway world store s) {key : String × Destination} {o : Value}
    (hmem : (key, o) ∈ s.visited) : s.built key = some o :=
  lookup_of_mem_of_nodup hs.keys hmem

theorem presents_of_built (hs : Underway world store s) {key : String × Destination} {o : Value}
    (hbuilt : s.built key = some o) : Presents world store s.built s.heap False key o :=
  hs.presents _ (mem_of_lookup hbuilt)

/-- A state with the same heap and the same objects, after a history that the engine answers
after. -/
theorem of_eq (hs : Underway world store s) (hanswers : Answers world.engine store t.history)
    (hheap : t.heap = s.heap) (hvisited : t.visited = s.visited) : Underway world store t where
  answers := hanswers
  keys := hvisited ▸ hs.keys
  cells := hvisited ▸ hs.cells
  presents := by
    have hbuilt : t.built = s.built := by
      funext key
      rw [State.built, State.built, hvisited]
    rw [hvisited, hbuilt, hheap]
    exact hs.presents

/-- An object is filled, which leaves the others as they are. -/
theorem put (hs : Underway world store s) {p : (String × Destination) × Value} {id : Nat}
    {cell : Cell} (hp : p ∈ s.visited) (hstorage : p.2.storage? = some id)
    (hpresents : Presents world store s.built (s.heap.put id cell) False p.1 p.2) :
    Underway world store { s with heap := s.heap.put id cell } where
  answers := hs.answers
  keys := hs.keys
  cells := hs.cells
  presents q hq := by
    by_cases heq : q = p
    · exact heq ▸ hpresents
    · refine (hs.presents q hq).mono (fun other hother ↦ ?_) fun _ _ hbuilt ↦ hbuilt
      refine s.heap.get?_put_ne _ fun hsame ↦ heq ?_
      subst hsame
      exact hs.cells q hq p hp id hother hstorage

/-- A cell is filled that nothing was built in. -/
theorem put_apart (hs : Underway world store s) {id : Nat} {cell : Cell}
    (happart : ∀ p ∈ s.visited, p.2.storage? ≠ some id) :
    Underway world store { s with heap := s.heap.put id cell } where
  answers := hs.answers
  keys := hs.keys
  cells := hs.cells
  presents p hp := (hs.presents p hp).mono (fun _ hother ↦ s.heap.get?_put_ne _ fun heq ↦
    happart p hp (heq ▸ hother)) fun _ _ hbuilt ↦ hbuilt

/-- An instance is visited for the first time under a destination. -/
theorem visit (hs : Underway world store s) {key : String × Destination} {o : Value}
    (hnew : s.built key = none)
    (happart : ∀ id, o.storage? = some id → ∀ q ∈ s.visited, q.2.storage? ≠ some id)
    (hpresents : ∀ objects, Presents world store objects s.heap False key o) :
    Underway world store (s.visiting key o) where
  answers := hs.answers
  keys := by
    refine List.nodup_cons.mpr ⟨fun hmem ↦ ?_, hs.keys⟩
    obtain ⟨⟨found, built⟩, hfound, rfl⟩ := List.mem_map.mp hmem
    rw [hs.built_of_mem hfound] at hnew
    cases hnew
  cells := by
    intro p hp q hq id hpid hqid
    rcases List.mem_cons.mp hp with rfl | hp
    · rcases List.mem_cons.mp hq with rfl | hq
      · rfl
      · exact absurd hqid (happart id hpid q hq)
    · rcases List.mem_cons.mp hq with rfl | hq
      · exact absurd hpid (happart id hqid p hp)
      · exact hs.cells p hp q hq id hpid hqid
  presents := by
    intro p hp
    rcases List.mem_cons.mp hp with rfl | hp
    · exact hpresents _
    · refine (hs.presents p hp).mono (fun _ _ ↦ rfl) fun found built hbuilt ↦ ?_
      have hne : found ≠ key := by
        rintro rfl
        rw [hnew] at hbuilt
        cases hbuilt
      have hfalse : (found == key) = false := by simpa using hne
      show List.lookup found ((key, o) :: s.visited) = some built
      rw [List.lookup_cons, hfalse]
      exact hbuilt

end Underway

/-! ### Passages -/

namespace Passage

theorem refl (hs : Underway world store s) : Passage world store own 0 s s where
  underway := hs
  size := Nat.le_refl _
  cells _ _ _ := rfl
  visited := ⟨[], rfl⟩
  fresh _ hp hnew := absurd hp hnew
  reads _ _ := Nat.le_refl _

theorem trans (hst : Passage world store own allowed s t) (htu : Passage world store own more t u) :
    Passage world store own (allowed + more) s u where
  underway := htu.underway
  size := Nat.le_trans hst.size htu.size
  cells id hid hown :=
    (htu.cells id (Nat.lt_of_lt_of_le hid hst.size) hown).trans (hst.cells id hid hown)
  visited := by
    obtain ⟨new, hnew⟩ := hst.visited
    obtain ⟨newer, hnewer⟩ := htu.visited
    exact ⟨newer ++ new, by rw [hnewer, hnew, List.append_assoc]⟩
  fresh p hp hnew id hid := by
    by_cases hmem : p ∈ t.visited
    · exact hst.fresh p hmem hnew id hid
    · exact (htu.fresh p hp hmem id hid).imp_right (Nat.le_trans hst.size)
  reads name slot := by
    have hfirst := hst.reads name slot
    have hsecond := htu.reads name slot
    have hsum : (allowed + more) name slot = allowed name slot + more name slot := rfl
    omega

theorem after (hst : Passage world store own 0 s t) (htu : Passage world store own allowed t u) :
    Passage world store own allowed s u := by
  simpa using hst.trans htu

theorem before (hst : Passage world store own allowed s t) (htu : Passage world store own 0 t u) :
    Passage world store own allowed s u := by
  simpa using hst.trans htu

/-- What writes no cell but new ones writes none besides its own. -/
theorem widen (hst : Passage world store none allowed s t) : Passage world store own allowed s t :=
  { hst with
    cells := fun id hid _ ↦ hst.cells id hid nofun
    fresh := fun p hp hnew id hid ↦ .inr ((hst.fresh p hp hnew id hid).resolve_left nofun) }

/-- What writes a new cell of its own writes no cell but new ones. -/
theorem narrow {id : Nat} (hst : Passage world store (some id) allowed s t)
    (hid : s.heap.cells.size ≤ id) : Passage world store none allowed s t :=
  { hst with
    cells := fun other hother _ ↦ hst.cells other hother fun heq ↦ by
      cases heq
      omega
    fresh := fun p hp hnew other hother ↦ .inr <| (hst.fresh p hp hnew other hother).elim
      (fun heq ↦ by cases heq; exact hid) fun hle ↦ hle }

theorem mono (hst : Passage world store own allowed s t)
    (hle : ∀ name slot, allowed name slot ≤ more name slot) : Passage world store own more s t where
  underway := hst.underway
  size := hst.size
  cells := hst.cells
  visited := hst.visited
  fresh := hst.fresh
  reads name slot := Nat.le_trans (hst.reads name slot) (Nat.add_le_add_left (hle name slot) _)

theorem of_inquires (hs : Underway world store s) (hst : Inquires store allowed s t) :
    Passage world store own allowed s t where
  underway := hs.of_eq (hst.answers hs.answers) hst.heap_eq hst.visited_eq
  size := Nat.le_of_eq (by rw [hst.heap_eq])
  cells _ _ _ := by rw [hst.heap_eq]
  visited := ⟨[], hst.visited_eq⟩
  fresh p hp hnew := absurd (hst.visited_eq ▸ hp) hnew
  reads name slot := by
    have hreads := hst.reads_le name slot
    rw [hst.visited_eq]
    omega

theorem subset (hst : Passage world store own allowed s t) : s.visited ⊆ t.visited := by
  obtain ⟨new, hnew⟩ := hst.visited
  rw [hnew]
  exact List.subset_append_right _ _

theorem built (hst : Passage world store own allowed s t) {key : String × Destination} {o : Value}
    (hbuilt : s.built key = some o) : t.built key = some o :=
  hst.underway.built_of_mem (hst.subset (mem_of_lookup hbuilt))

/-- What an object presented before a passage that wrote none of its cells, it presents after it. -/
theorem presents (hst : Passage world store own allowed s t) {key : String × Destination}
    {o : Value} {whole : Prop} (hpresents : Presents world store s.built s.heap whole key o)
    (hown : ∀ id, o.storage? = some id → own ≠ some id) :
    Presents world store t.built t.heap whole key o := by
  refine hpresents.mono (fun id hid ↦ ?_) fun _ _ ↦ hst.built
  exact hst.cells id (hpresents.storage_lt hid) (hown id hid)

/-- A step that asks nothing, visits nothing and leaves the cells that are there as they are. -/
theorem of_building (hs : Underway world store s) (hsize : s.heap.cells.size ≤ t.heap.cells.size)
    (hcells : ∀ id < s.heap.cells.size, t.heap.get? id = s.heap.get? id)
    (hvisited : t.visited = s.visited) (hhistory : t.history = s.history) :
    Passage world store own 0 s t := by
  have hbuilt : t.built = s.built := by
    funext key
    rw [State.built, State.built, hvisited]
  have hreads : ∀ name slot, t.reads name slot = s.reads name slot := fun name slot ↦ by
    rw [State.reads, State.reads, hhistory]
  refine
    { underway :=
        { answers := hhistory ▸ hs.answers
          keys := hvisited ▸ hs.keys
          cells := hvisited ▸ hs.cells
          presents := ?_ }
      size := hsize
      cells := fun id hid _ ↦ hcells id hid
      visited := ⟨[], hvisited⟩
      fresh := fun p hp hnew ↦ absurd (hvisited ▸ hp) hnew
      reads := fun name slot ↦ by simp [hreads, hvisited] }
  intro p hp
  rw [hvisited] at hp
  have hpresents := hs.presents p hp
  refine hpresents.mono (fun id hid ↦ hcells id (hpresents.storage_lt hid)) fun key o ho ↦ ?_
  rw [hbuilt]
  exact ho

/-- An object of one's own is filled. -/
theorem put {id : Nat} {cell : Cell}
    (ht : Underway world store { s with heap := s.heap.put id cell }) :
    Passage world store (some id) 0 s { s with heap := s.heap.put id cell } where
  underway := ht
  size := by simp [Heap.put]
  cells other _ hown := s.heap.get?_put_ne cell fun heq ↦ hown (heq ▸ rfl)
  visited := ⟨[], rfl⟩
  fresh _ hp hnew := absurd hp hnew
  reads _ _ := Nat.le_refl _

end Passage

namespace Prepares

theorem refl (hs : Underway world store s) : Prepares world store s s :=
  ⟨.refl hs, rfl⟩

theorem trans (hst : Prepares world store s t) (htu : Prepares world store t u) :
    Prepares world store s u :=
  ⟨hst.passage.after htu.passage, htu.visited.trans hst.visited⟩

theorem of_inquires (hs : Underway world store s) (hst : Inquires store 0 s t) :
    Prepares world store s t :=
  ⟨.of_inquires hs hst, hst.visited_eq⟩

theorem built_eq (hst : Prepares world store s t) : t.built = s.built := by
  funext key
  rw [State.built, State.built, hst.visited]

end Prepares

/-! ### Visits -/

theorem World.quota_cons (key : String × Destination) (o : Value) (visited : Visited)
    (name slot : String) :
    world.quota store ((key, o) :: visited) name slot =
      (if key.1 = name then (world.pass store key).count slot else 0) +
        world.quota store visited name slot := by
  rw [World.quota, List.map_cons, List.sum_cons]
  rfl

/-- A visit allows for the readings of its pass. -/
theorem Passage.of_pass {key : String × Destination} {o : Value}
    (hown : ∀ id, o.storage? = some id → own = some id)
    (hpass : Passage world store own allowed (s.visiting key o) t)
    (hallowed : ∀ name slot, allowed name slot ≤
      if key.1 = name then (world.pass store key).count slot else 0) :
    Passage world store own 0 s t where
  underway := hpass.underway
  size := hpass.size
  cells := hpass.cells
  visited := by
    obtain ⟨new, hnew⟩ := hpass.visited
    exact ⟨new ++ [(key, o)], by rw [hnew, State.visiting_visited, List.append_assoc]; rfl⟩
  fresh p hp hnew other hother := by
    by_cases heq : p = (key, o)
    · subst heq
      exact .inl (hown other hother)
    · exact hpass.fresh p hp (fun hmem ↦ (List.mem_cons.mp hmem).elim heq hnew) other hother
  reads name slot := by
    have hcount := hpass.reads name slot
    have hle := hallowed name slot
    rw [State.visiting_visited, World.quota_cons, State.visiting_reads] at hcount
    have hzero : (0 : String → String → Nat) name slot = 0 := rfl
    omega

/-! ### Whole instances -/

namespace WholeSince

theorem refl (s : State) : WholeSince world store s s :=
  fun _ _ hp hnew ↦ absurd hp hnew

theorem of_choice (hchoice : world.Declares .choice) : WholeSince world store s t :=
  fun hnone ↦ absurd hchoice hnone

/-- What was visited first is whole when it is, and what was visited on the way. -/
theorem of_pass {key : String × Destination} {o : Value}
    (hwhole : WholeSince world store (s.visiting key o) t)
    (hpresents : Presents world store t.built t.heap True key o) : WholeSince world store s t := by
  intro hnone p hp hnew
  by_cases heq : p = (key, o)
  · exact heq ▸ hpresents
  · exact hwhole hnone p hp fun hmem ↦ (List.mem_cons.mp hmem).elim heq hnew

theorem of_subset (hsubset : t.visited ⊆ s.visited) : WholeSince world store s t :=
  fun _ _ hp hnew ↦ absurd (hsubset hp) hnew

theorem trans (hst : WholeSince world store s t) (hpassage : Passage world store none allowed t u)
    (htu : WholeSince world store t u) : WholeSince world store s u := by
  intro hnone p hp hnew
  by_cases hmem : p ∈ t.visited
  · exact hpassage.presents (hst hnone p hmem hnew) nofun
  · exact htu hnone p hp hmem

/-- What was visited stays whole when a cell is filled that nothing was built in on the way. -/
theorem put (hst : WholeSince world store s t) {id : Nat} {cell : Cell}
    (happart : ∀ p ∈ t.visited, p ∉ s.visited → p.2.storage? ≠ some id) :
    WholeSince world store s { t with heap := t.heap.put id cell } := by
  intro hnone p hp hnew
  refine (hst hnone p hp hnew).mono (fun other hother ↦ ?_) fun _ _ hbuilt ↦ hbuilt
  exact t.heap.get?_put_ne _ fun heq ↦ happart p hp hnew (heq ▸ hother)

end WholeSince

end

end RuleMarshal
