import RuleMarshal.Proofs.Extraction.Visit
/-!
Instances within an extraction. An instance that was visited is what was built for it; one that was
not is visited, and its slots are transferred one by one (`converts_extractInstance`). What is
converted on the way comes after fewer are left to visit, or under a hint with fewer turns
(`Follows`).
-/

set_option autoImplicit false
set_option relaxedAutoImplicit false

namespace RuleMarshal

open Act

/-- Whether every turn of a hint is a mapping with a place or one that some field offers. -/
def Hint.IsOffered (world : World) (h : Hint) : Prop :=
  ∀ turn ∈ h.turns, turn ≠ .mapping → world.Declares turn

/-- Whether the fields of declared types have at most so many turns each. -/
def World.Spans (world : World) (width : Nat) : Prop :=
  ∀ struct fields, world.types.fields world.config.tags (.struct struct) = .ok fields →
    ∀ f ∈ fields, f.hint.turns.length ≤ width

/-- Whether fewer are left to visit, or as many at most under a hint with fewer turns. -/
def Follows (world : World) (store : Store) (width : Nat) (t : State) (inner : Hint) (s : State)
    (outer : Hint) : Prop :=
  (unvisited world store t.visited < unvisited world store s.visited ∧ inner.turns.length ≤ width) ∨
    (unvisited world store t.visited ≤ unvisited world store s.visited ∧
      inner.turns.length < outer.turns.length)

section

variable {world : World} {store : Store} {s t u start : State} {name : String} {id width : Nat}

/-! ### Fields and entries -/

theorem find?_isSome_of_fields {struct : String} {fields : List Field}
    (hfields : world.types.fields world.config.tags (.struct struct) = .ok fields) :
    (world.types.find? struct).isSome := by
  unfold TypeTable.fields at hfields
  dsimp only at hfields
  cases hfound : world.types.find? struct with
  | none =>
    rw [hfound] at hfields
    cases hfields
  | some t => rfl

/-- The slots that the fields of a type go to, as far as an instance has them. -/
def presentSlots (store : Store) (name : String) (fields : List Field) : List String :=
  (fields.map Field.engineName).filter (· ∈ store.slotsOf name)

theorem flatMap_slots (fields : List Field) :
    (fields.flatMap fun f ↦ if f.engineName ∈ store.slotsOf name then [f.engineName] else []) =
      presentSlots store name fields := by
  unfold presentSlots
  induction fields with
  | nil => rfl
  | cons f rest ih =>
    rw [List.flatMap_cons, ih, List.map_cons, List.filter_cons]
    by_cases hf : f.engineName ∈ store.slotsOf name <;> simp [hf]

variable {f g : EngineValue → Hint → Act Value}

theorem yields_fillFields (h : InstanceHandle) (struct : String) {fields : List Field}
    (hfacts : store.IsFactFree) (hattrs : (fields.map (·.attr)).Nodup)
    (hstart : Underway world store start)
    (hcell : ∃ attrs, start.heap.get? id = some (.object attrs))
    (hput : ∀ done c rest, fields = done ++ c :: rest → ∀ u,
      Filled world store start id (ShowsObject store h.name id done) u → ∀ cell,
      ShowsObject store h.name id (done ++ [c]) u.built (u.heap.put id cell) →
      Underway world store { u with heap := u.heap.put id cell })
    (hextract : ∀ c ∈ fields, ∀ e u, Underway world store u →
      unvisited world store u.visited ≤ unvisited world store start.visited → e.IsFactFree →
      Converts world store e c.hint (f e c.hint) (g e c.hint) u) :
    Yields world
      (Passage world store (some id) (readings h.name (presentSlots store h.name fields)) start)
      (fun _ t ↦ Filled world store start id (ShowsObject store h.name id fields) t)
      (fillFields f (.object struct id) fields (fun slot ↦ h.slot (.text slot))
        (store.slotsOf h.name))
      (fillFields g (.object struct id) fields (fun slot ↦ h.slot (.text slot))
        (store.slotsOf h.name))
      start := by
  rw [← flatMap_slots]
  have hunderway : ∀ done t, Filled world store start id (ShowsObject store h.name id done) t →
    Underway world store t := fun done t ht ↦ ht.passage.elim fun _ h ↦ h.underway
  refine yields_pass hunderway (fun done c rest hitems t ht ↦ ?_)
    ⟨hcell.elim fun _ ↦ Heap.lt_size_of_get?, ⟨0, .refl hstart⟩, .refl start,
      fun p hp hnew ↦ absurd hp hnew, hcell, fun c hc ↦ nomatch hc⟩
  have hc : c ∈ fields := hitems ▸ List.mem_append_right _ List.mem_cons_self
  have happart : ∀ d ∈ done, d.attr ≠ c.attr := by
    intro d hd
    rw [hitems, List.map_append, List.nodup_append] at hattrs
    exact hattrs.2.2 _ (List.mem_map_of_mem hd) _ List.mem_cons_self
  obtain ⟨allowed, hpassage⟩ := ht.passage
  by_cases hslot : c.engineName ∈ store.slotsOf h.name
  · rw [if_pos (List.contains_iff_mem.mpr hslot), if_pos (List.contains_iff_mem.mpr hslot),
      if_pos hslot]
    refine yields_transfer hpassage.underway hfacts hslot (fun e u hu hvisited he ↦ ?_)
      fun w u htu hwhole hshown ↦ ?_
    · exact hextract c hc e u hu (hvisited ▸ hpassage.unvisited_le) he
    · have hu := ht.after htu hwhole ShowsObject.mono
      exact hu.yields_assign (hput done c rest hitems u hu) happart hshown
  · have hcontains : ¬(store.slotsOf h.name).contains c.engineName = true := fun hmem ↦
      hslot (List.contains_iff_mem.mp hmem)
    rw [if_neg hcontains, if_neg hcontains, if_neg hslot]
    refine .pure ((Passage.refl hpassage.underway).mono fun _ _ ↦ Nat.zero_le _)
      { ht with shows := ⟨ht.shows.1, fun d hd hpresent ↦ ?_⟩ }
    rcases List.mem_append.mp hd with hdone | hlast
    · exact ht.shows.2 d hdone hpresent
    · obtain rfl := List.mem_singleton.mp hlast
      exact absurd hpresent hslot

theorem yields_fillMapping {h : InstanceHandle} {item : Hint} (hfacts : store.IsFactFree)
    (hstart : Underway world store start)
    (hcell : ∃ entries, start.heap.get? id = some (.mapping entries))
    (hput : ∀ done slot rest, store.slotsOf h.name = done ++ slot :: rest → ∀ u,
      Filled world store start id (ShowsMapping store h.name id item done) u → ∀ cell,
      ShowsMapping store h.name id item (done ++ [slot]) u.built (u.heap.put id cell) →
      Underway world store { u with heap := u.heap.put id cell })
    (hextract : ∀ e u, Underway world store u →
      unvisited world store u.visited ≤ unvisited world store start.visited → e.IsFactFree →
      Converts world store e item (f e item) (g e item) u) :
    Yields world (Passage world store (some id) (readings h.name (store.slotsOf h.name)) start)
      (fun _ t ↦ Filled world store start id
        (ShowsMapping store h.name id item (store.slotsOf h.name)) t)
      (fillMapping f (.mapping id) item (fun slot ↦ h.slot (.text slot)) (store.slotsOf h.name))
      (fillMapping g (.mapping id) item (fun slot ↦ h.slot (.text slot)) (store.slotsOf h.name))
      start := by
  have hslots : (store.slotsOf h.name).flatMap (fun slot ↦ [slot]) = store.slotsOf h.name := by simp
  conv =>
    arg 2
    rw [← hslots]
  have hunderway : ∀ done t,
      Filled world store start id (ShowsMapping store h.name id item done) t →
    Underway world store t := fun done t ht ↦ ht.passage.elim fun _ h ↦ h.underway
  refine yields_pass hunderway (fun done slot rest hitems t ht ↦ ?_)
    ⟨hcell.elim fun _ ↦ Heap.lt_size_of_get?, ⟨0, .refl hstart⟩, .refl start,
      fun p hp hnew ↦ absurd hp hnew, hcell, fun c hc ↦ nomatch hc⟩
  have hslot : slot ∈ store.slotsOf h.name := hitems ▸ List.mem_append_right _ List.mem_cons_self
  obtain ⟨allowed, hpassage⟩ := ht.passage
  refine yields_transfer hpassage.underway hfacts hslot (fun e u hu hvisited he ↦ ?_)
    fun w u htu hwhole hshown ↦ ?_
  · exact hextract e u hu (hvisited ▸ hpassage.unvisited_le) he
  · have hu := ht.after htu hwhole ShowsMapping.mono
    exact hu.yields_putKey (hput done slot rest hitems u hu) hshown

/-! ### Visits -/

/-- A cell that an extraction fills: its own, or a new one. -/
structure Site (world : World) (store : Store) (own : Option Nat) (s b : State) (id : Nat) :
    Prop where
  prepares : Prepares world store s b
  own : own = some id ∨ own = none ∧ s.heap.cells.size ≤ id
  apart : ∀ p ∈ b.visited, p.2.storage? ≠ some id

/-- Whether a value is what was built for an instance under a destination and presents the whole of
it. -/
structure Settles (world : World) (store : Store) (s : State) (key : String × Destination)
    (w : Value) (t : State) : Prop where
  built : t.built key = some w
  presents : Presents world store t.built t.heap True key w
  whole : WholeSince world store s t

variable {own : Option Nat} {b : State} {allowed : String → String → Nat}

theorem Site.anew (hs : Underway world store s) (hsb : Prepares world store s b)
    (hid : s.heap.cells.size ≤ id) : Site world store none s b id := by
  refine ⟨hsb, .inr ⟨rfl, hid⟩, fun p hp hstorage ↦ ?_⟩
  rw [hsb.visited] at hp
  have hlt := (hs.presents p hp).storage_lt hstorage
  omega

theorem Site.passage (hsite : Site world store own s b id)
    (hbt : Passage world store (some id) 0 b t) : Passage world store own 0 s t := by
  have hst : Passage world store (some id) 0 s t := hsite.prepares.passage.widen.after hbt
  rcases hsite.own with rfl | ⟨rfl, hid⟩
  · exact hst
  · exact hst.narrow hid

theorem Site.passage_of_pass (hsite : Site world store own s b id) (key : String × Destination)
    {o : Value} (hid : o.storage? = some id)
    (hpass : Passage world store (some id) (readings key.1 (world.pass store key))
      (b.visiting key o) t) :
    Passage world store own 0 s t :=
  hsite.passage (.of_pass (fun _ hother ↦ hid ▸ hother) hpass fun _ _ ↦ Nat.le_refl _)

/-- What was visited with an object in a cell, and then filled in one pass, is settled. -/
theorem Site.settles {key : String × Destination} {o : Value}
    {shown : (String × Destination → Option Value) → Heap → Prop}
    (hsite : Site world store own s b id)
    (hpass : Passage world store (some id) (readings key.1 (world.pass store key))
      (b.visiting key o) t)
    (hfilled : Filled world store (b.visiting key o) id shown t)
    (hpresents : shown t.built t.heap → Presents world store t.built t.heap True key o) :
    Settles world store s key o t := by
  have hmem : (key, o) ∈ t.visited := hpass.subset List.mem_cons_self
  have hwhole : WholeSince world store b t := .of_pass hfilled.whole (hpresents hfilled.shows)
  refine ⟨hpass.underway.built_of_mem hmem, hpresents hfilled.shows, ?_⟩
  intro hnone p hp hnew
  exact hwhole hnone p hp (hsite.prepares.visited ▸ hnew)

theorem pass_of_reads {dest : Hint} {fields : List Field} (hreads : world.Reads dest fields) :
    World.pass.ofFields world store name dest = presentSlots store name fields := by
  obtain ⟨declared, number, hfields, rfl⟩ := hreads
  rw [World.pass.ofFields, hfields, presentSlots, List.map_map]
  rfl

theorem attr_nodup_of_reads {dest : Hint} {fields : List Field} (hreads : world.Reads dest fields) :
    (fields.map (·.attr)).Nodup := by
  obtain ⟨declared, number, hfields, rfl⟩ := hreads
  rw [List.map_map]
  exact TypeTable.attr_nodup_of_fields hfields

theorem pass_of_takes {d : Destination} {item : Hint} (htakes : d.Takes item) :
    world.pass store (name, d) = store.slotsOf name := by
  cases htakes with
  | mapping => rfl
  | mappingAt place item => rfl

theorem yields_visit {α : Type} {reached : State → Prop} {found : α → State → Prop} {dest : Hint}
    {d : Destination} {o : Value} {next follow : Act α} (hdest : dest.destination? = some d)
    (hnext : Yields world reached found next follow (s.visiting (name, d) o)) :
    Yields world reached found (visit name dest o >>= fun _ ↦ next)
      (visit name dest o >>= fun _ ↦ follow) s := by
  unfold visit
  rw [hdest]
  exact hnext

theorem yields_asEngineValue {reached : State → Prop} {found : Value → State → Prop}
    {struct : String} (hstruct : (world.types.find? struct).isSome) (hreached : reached s)
    (hfound : found (.object struct id) s) :
    Yields world reached found (asEngineValue (.object struct id))
      (asEngineValue (.object struct id)) s := by
  unfold asEngineValue
  refine .reading ?_
  rw [if_pos hstruct]
  exact .pure hreached hfound

/-- An object is filled, and becomes an engine value then if it is to. -/
theorem yields_fillingObject {reached : State → Prop} {given : PUnit → State → Prop}
    {found : Value → State → Prop} {struct : String} {fill refill : Value → Act PUnit}
    (hfill : Yields world reached given (fill (.object struct id)) (refill (.object struct id)) s)
    (hfound : ∀ t, reached t → given ⟨⟩ t →
      Yields world reached found (asEngineValue (.object struct id))
      (asEngineValue (.object struct id)) t) :
    Yields world reached found (filling (.object struct id) fill)
      (filling (.object struct id) refill) s := by
  show Yields world reached found
    (fill (.object struct id) >>= fun _ ↦ asEngineValue (.object struct id))
    (refill (.object struct id) >>= fun _ ↦ asEngineValue (.object struct id)) s
  exact hfill.bind (fun _ t hst ht ↦ hfound t hst ht) fun _ hreached ↦ hreached

/-- An object of a declared type is filled as it is. -/
theorem yields_filling {reached : State → Prop} {found : Value → State → Prop} {struct : String}
    {fill refill : Value → Act PUnit} (hstruct : (world.types.find? struct).isSome)
    (hfill : Yields world reached (fun _ ↦ found (.object struct id)) (fill (.object struct id))
      (refill (.object struct id)) s) :
    Yields world reached found (filling (.object struct id) fill)
      (filling (.object struct id) refill) s :=
  yields_fillingObject hfill fun _ ↦ yields_asEngineValue hstruct

/-- An instance is visited for a struct type, and the fields of the object are filled. -/
theorem yields_visitStruct {h : InstanceHandle} {struct : String} {fields : List Field}
    (hsite : Site world store own s b id) (hfacts : store.IsFactFree)
    (hnew : b.built (h.name, .struct struct) = none)
    (hcell : ∃ attrs, b.heap.get? id = some (.object attrs))
    (hreads : world.Reads (.struct struct) fields)
    (hextract : ∀ c ∈ fields, ∀ e u, Underway world store u →
      unvisited world store u.visited ≤
      unvisited world store (((h.name, .struct struct), .object struct id) :: b.visited) →
      e.IsFactFree → Converts world store e c.hint (f e c.hint) (g e c.hint) u) :
    Yields world (Passage world store own 0 s)
      (fun w t ↦ w = .object struct id ∧ Settles world store s (h.name, .struct struct) w t)
      (visit h.name (.struct struct) (.object struct id) >>= fun _ ↦
        filling (.object struct id) fun object ↦
          fillFields f object fields (fun slot ↦ h.slot (.text slot)) (store.slotsOf h.name))
      (visit h.name (.struct struct) (.object struct id) >>= fun _ ↦
        filling (.object struct id) fun object ↦
          fillFields g object fields (fun slot ↦ h.slot (.text slot))
            (store.slotsOf h.name)) b := by
  have hb : Underway world store b := hsite.prepares.passage.underway
  obtain ⟨attrs, hget⟩ := hcell
  have hunderway : Underway world store
      (b.visiting (h.name, .struct struct) (.object struct id)) := by
    have hnone : world.Reads (.struct struct) ([] ++ fields) := hreads
    refine hb.visit hnew (fun other hother ↦ ?_) fun objects ↦
      .struct hget hnone nofun fun c hc ↦ nomatch hc
    cases hother
    exact hsite.apart
  have hput : ∀ done c rest, fields = done ++ c :: rest → ∀ u,
      Filled world store (b.visiting (h.name, .struct struct) (.object struct id)) id
        (ShowsObject store h.name id done) u → ∀ cell,
      ShowsObject store h.name id (done ++ [c]) u.built (u.heap.put id cell) →
      Underway world store { u with heap := u.heap.put id cell } := by
    intro done c rest hitems u hu cell hshows
    obtain ⟨used, hpassage⟩ := hu.passage
    obtain ⟨⟨after, hafter⟩, hfields⟩ := hshows
    refine hpassage.underway.put (hpassage.subset List.mem_cons_self) rfl ?_
    exact .struct hafter (by rwa [List.append_assoc, List.singleton_append, ← hitems]) nofun hfields
  have hpass : ∀ t, Passage world store (some id)
      (readings h.name (presentSlots store h.name fields))
      (b.visiting (h.name, .struct struct) (.object struct id)) t →
      Passage world store (some id)
        (readings h.name (world.pass store (h.name, .struct struct)))
        (b.visiting (h.name, .struct struct) (.object struct id)) t := by
    intro t hst
    rwa [World.pass, pass_of_reads hreads]
  refine yields_visit rfl
    (yields_filling ?_ ((yields_fillFields h struct hfacts (attr_nodup_of_reads hreads)
    hunderway ⟨attrs, hget⟩ hput hextract).mono (fun t hst ↦ ?_) fun _ t hst ht ↦ ?_))
  · exact hreads.elim fun _ ⟨_, hfields, _⟩ ↦ find?_isSome_of_fields hfields
  · exact hsite.passage_of_pass (h.name, .struct struct) rfl (hpass t hst)
  · refine ⟨rfl, hsite.settles (hpass t hst) ht fun hshows ↦ ?_⟩
    obtain ⟨⟨after, hafter⟩, hfields⟩ := hshows
    exact .struct hafter (by rwa [List.append_nil]) (fun _ ↦ rfl) hfields

theorem unvisited_cons_le {visited : Visited} {key : String × Destination} {o : Value} :
    unvisited world store ((key, o) :: visited) ≤ unvisited world store visited := by
  refine Finset.card_le_card fun p hp ↦ ?_
  rw [Finset.mem_filter] at hp ⊢
  refine ⟨hp.1, ?_⟩
  by_cases heq : (p.1, Destination.struct p.2) = key
  · have hlookup := hp.2
    rw [heq, List.lookup_cons_self] at hlookup
    cases hlookup
  · rw [← lookup_cons_ne heq]
    exact hp.2

/-- An instance is visited for a mapping, and the entries of the mapping are filled. -/
theorem yields_visitMapping {h : InstanceHandle} {dest : Hint} {d : Destination} {item : Hint}
    (hsite : Site world store own s b id) (hfacts : store.IsFactFree)
    (hdest : dest.destination? = some d) (htakes : d.Takes item)
    (hnew : b.built (h.name, d) = none)
    (hcell : ∃ entries, b.heap.get? id = some (.mapping entries))
    (hextract : ∀ e u, Underway world store u →
      unvisited world store u.visited ≤ unvisited world store b.visited → e.IsFactFree →
      Converts world store e item (f e item) (g e item) u) :
    Yields world (Passage world store own 0 s)
      (fun w t ↦ w = .mapping id ∧ Settles world store s (h.name, d) w t)
      (visit h.name dest (.mapping id) >>= fun _ ↦ do
        fillMapping f (.mapping id) item (fun slot ↦ h.slot (.text slot)) (store.slotsOf h.name)
        return .mapping id)
      (visit h.name dest (.mapping id) >>= fun _ ↦ do
        fillMapping g (.mapping id) item (fun slot ↦ h.slot (.text slot)) (store.slotsOf h.name)
        return .mapping id) b := by
  have hb : Underway world store b := hsite.prepares.passage.underway
  obtain ⟨entries, hget⟩ := hcell
  have hunderway : Underway world store (b.visiting (h.name, d) (.mapping id)) := by
    have hnone : store.slotsOf h.name = [] ++ store.slotsOf h.name := rfl
    refine hb.visit hnew (fun other hother ↦ ?_) fun objects ↦
      .mapping htakes hget hnone nofun fun c hc ↦ nomatch hc
    cases hother
    exact hsite.apart
  have hput : ∀ done slot rest, store.slotsOf h.name = done ++ slot :: rest → ∀ u,
      Filled world store (b.visiting (h.name, d) (.mapping id)) id
        (ShowsMapping store h.name id item done) u → ∀ cell,
      ShowsMapping store h.name id item (done ++ [slot]) u.built (u.heap.put id cell) →
      Underway world store { u with heap := u.heap.put id cell } := by
    intro done slot rest hitems u hu cell hshows
    obtain ⟨used, hpassage⟩ := hu.passage
    obtain ⟨⟨after, hafter⟩, hentries⟩ := hshows
    refine hpassage.underway.put (hpassage.subset List.mem_cons_self) rfl ?_
    exact .mapping htakes hafter (by rw [List.append_assoc, List.singleton_append, ← hitems]) nofun
      hentries
  have hpass : ∀ t, Passage world store (some id) (readings h.name (store.slotsOf h.name))
      (b.visiting (h.name, d) (.mapping id)) t →
      Passage world store (some id) (readings h.name (world.pass store (h.name, d)))
        (b.visiting (h.name, d) (.mapping id)) t := by
    intro t hst
    rwa [pass_of_takes htakes]
  refine yields_visit hdest ((yields_fillMapping hfacts hunderway ⟨entries, hget⟩ hput
    fun e u hu hle he ↦ hextract e u hu (Nat.le_trans hle unvisited_cons_le) he).bind
    (fun _ t hst ht ↦ ?_) fun t hst ↦ ?_)
  · refine .pure (hsite.passage_of_pass (h.name, d) rfl (hpass t hst))
      ⟨rfl, hsite.settles (hpass t hst) ht fun hshows ↦ ?_⟩
    obtain ⟨⟨after, hafter⟩, hentries⟩ := hshows
    exact .mapping htakes hafter (List.append_nil _).symm (fun _ ↦ rfl) hentries
  · exact hsite.passage_of_pass (h.name, d) rfl (hpass t hst)

end

end RuleMarshal
