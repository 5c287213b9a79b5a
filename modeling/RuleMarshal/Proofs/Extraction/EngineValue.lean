import RuleMarshal.Proofs.Extraction.Reference
/-!
Engine values as destinations. An engine value is filled as an object of its attributes, in a new
cell, and takes the place of what is to be filled. No field of its type refers to an instance, so
nothing else is visited for it (`yields_ofEngineValue`).
-/

set_option autoImplicit false
set_option relaxedAutoImplicit false

namespace RuleMarshal

open Act

section

variable {world : World} {store : Store} {own : Option Nat} {s t b start : State} {id : Nat}
variable {f g : EngineValue → Hint → Act Value}

theorem turns_of_engineValue {kind : ValueKind} {fields : List Field} {c : Field}
    (hreads : world.Reads (.engineValue (some kind)) fields) (hc : c ∈ fields) :
    c.hint.turns = [] := by
  obtain ⟨declared, number, hfields, rfl⟩ := hreads
  obtain ⟨d, hd, rfl⟩ := List.mem_map.mp hc
  rw [Hint.turns_inReading]
  cases kind <;> cases hfields <;> obtain rfl := List.mem_singleton.mp hd <;> rfl

/-- The attributes of an engine value are filled in a cell where nothing was built. -/
theorem yields_fillApart (h : InstanceHandle) (struct : String) {dest : Hint} {fields : List Field}
    (hfacts : store.IsFactFree) (hstart : Underway world store start)
    (hcell : ∃ attrs, start.heap.get? id = some (.object attrs))
    (happart : ∀ p ∈ start.visited, p.2.storage? ≠ some id) (hreads : world.Reads dest fields)
    (hextract : ∀ c ∈ fields, ∀ e u, Underway world store u →
      unvisited world store u.visited ≤ unvisited world store start.visited → e.IsFactFree →
      Converts world store e c.hint (f e c.hint) (g e c.hint) u) :
    Yields world
      (Passage world store (some id)
        (readings h.name (World.pass.ofFields world store h.name dest)) start)
      (fun _ t ↦ ∀ p ∈ t.visited, p.2.storage? ≠ some id)
      (fillFields f (.object struct id) fields (fun slot ↦ h.slot (.text slot))
        (store.slotsOf h.name))
      (fillFields g (.object struct id) fields (fun slot ↦ h.slot (.text slot))
        (store.slotsOf h.name))
      start := by
  have hkept : ∀ {shown : (String × Destination → Option Value) → Heap → Prop} u,
      Filled world store start id shown u → ∀ p ∈ u.visited, p.2.storage? ≠ some id := by
    intro shown u hu p hp
    by_cases hmem : p ∈ start.visited
    · exact happart p hmem
    · exact hu.apart p hp hmem
  rw [pass_of_reads hreads]
  refine (yields_fillFields h struct hfacts (attr_nodup_of_reads hreads) hstart hcell
    (fun done c rest _ u hu cell _ ↦ ?_) hextract).mono (fun _ hst ↦ hst) fun _ t _ ht ↦ hkept t ht
  obtain ⟨used, hpassage⟩ := hu.passage
  exact hpassage.underway.put_apart (hkept u hu)

theorem yields_asEngineValue_eq (object : Value) (s : State) :
    Yields world (s = ·) (fun _ _ ↦ True) (asEngineValue object) (asEngineValue object) s :=
  .of_keeps (keeps_asEngineValue object) fun _ heq ↦ heq

theorem yields_alloc (cell : Cell) (s : State) :
    Yields world ({ s with heap := (s.heap.alloc cell).1 } = ·) (fun id _ ↦ id = s.heap.cells.size)
      (alloc cell) (alloc cell) s :=
  .of_runIn (fun _ _ hrun ↦ by cases hrun; rfl) fun _ _ hrun ↦ by cases hrun; rfl

/-- An engine value is filled as an object in a new cell, and put where it is held. -/
theorem yields_fillingEngineValue {h : InstanceHandle} {target : Value} {v : EngineValue}
    {dest : Hint} {fields : List Field} (hfacts : store.IsFactFree)
    (hstart : Underway world store start) (hopened : start.heap.opened target = .engine v)
    (hown : ∀ id, target = .held id → own = some id ∧ id < start.heap.cells.size ∧
      ∀ p ∈ start.visited, p.2.storage? ≠ some id)
    (hreads : world.Reads dest fields)
    (hextract : ∀ c ∈ fields, ∀ e u, Underway world store u →
      unvisited world store u.visited ≤ unvisited world store start.visited → e.IsFactFree →
      Converts world store e c.hint (f e c.hint) (g e c.hint) u) :
    Yields world
      (Passage world store own
        (readings h.name (World.pass.ofFields world store h.name dest)) start)
      (fun w _ ↦ ∀ id, target = .held id → w = .held id)
      (filling target fun object ↦ fillFields f object fields (fun slot ↦ h.slot (.text slot))
        (store.slotsOf h.name))
      (filling target fun object ↦ fillFields g object fields (fun slot ↦ h.slot (.text slot))
        (store.slotsOf h.name)) start := by
  generalize hattrs :
    (engineAttributes.filterMap fun attr ↦ (v.attribute? attr).map fun w ↦ (attr, w)) = attrs
  generalize halloc : ({ start with heap := (start.heap.alloc (.object attrs)).1 } : State) = begun
  have hbegun : Prepares world store start begun := by
    rw [← halloc]
    refine ⟨.of_building hstart ?_ (fun id hid ↦ ?_) rfl rfl, rfl⟩
    · simp [Heap.alloc]
    · exact start.heap.get?_alloc_of_lt _ hid
  have hcell : ∃ attrs, begun.heap.get? start.heap.cells.size = some (.object attrs) := by
    rw [← halloc]
    exact ⟨attrs, start.heap.get?_alloc_self (.object attrs)⟩
  have happart : ∀ p ∈ begun.visited, p.2.storage? ≠ some start.heap.cells.size := by
    intro p hp hstorage
    rw [hbegun.visited] at hp
    exact absurd ((hstart.presents p hp).storage_lt hstorage) (Nat.lt_irrefl _)
  have hfill := yields_fillApart h v.typeName hfacts hbegun.passage.underway hcell happart hreads
    (hbegun.visited ▸ hextract)
  have hpassage : ∀ t, Passage world store (some start.heap.cells.size)
      (readings h.name (World.pass.ofFields world store h.name dest)) begun t →
      Passage world store none
        (readings h.name (World.pass.ofFields world store h.name dest)) start t :=
    fun t ht ↦ (hbegun.passage.widen.after ht).narrow (Nat.le_refl _)
  unfold filling
  refine .getting ?_
  rw [hopened]
  dsimp only
  rw [hattrs]
  refine (yields_alloc (.object attrs) start).bind (fun id t heq hid ↦ ?_) fun t heq ↦ ?_
  · rw [halloc] at heq
    subst heq hid
    refine hfill.bind (fun _ t ht _ ↦ ?_) fun t ht ↦ (hpassage t ht).widen
    refine (yields_asEngineValue_eq _ t).bind (fun filled u heq _ ↦ ?_) fun u heq ↦ ?_
    · subst heq
      split
      · rename_i hid
        obtain ⟨rfl, hlt, hkept⟩ := hown hid rfl
        have hafter : ∀ p ∈ t.visited, p.2.storage? ≠ some hid := by
          intro p hp hstorage
          by_cases hmem : p ∈ start.visited
          · exact hkept p hmem hstorage
          · have hfresh := ((hpassage t ht).fresh p hp hmem hid hstorage).resolve_left (by simp)
            omega
        have hput : Passage world store (some hid) 0 t
            { t with heap := t.heap.put hid (.value filled) } :=
          .put (ht.underway.put_apart hafter)
        refine .of_runIn (fun _ u hrun ↦ ?_) fun w u hrun ↦ ?_
        · cases hrun
          exact (hpassage t ht).widen.before hput
        · cases hrun
          exact fun _ heq ↦ heq
      · rename_i hother
        exact .pure (hpassage t ht).widen fun id heq ↦ absurd heq (hother id)
    · subst heq
      exact (hpassage t ht).widen
  · rw [halloc] at heq
    subst heq
    exact hbegun.passage.widen.mono fun _ _ ↦ Nat.zero_le _

/-- What was visited for an engine value stays built, and its pass is allowed for. -/
theorem built_of_engineValue {name : String} {kind : ValueKind} {o : Value}
    (hown : ∀ id, o.storage? = some id → own = some id)
    (hpass : Passage world store own
      (readings name (World.pass.ofFields world store name (.engineValue (some kind))))
      (b.visiting (name, .engineValue (some kind)) o) t) :
    Passage world store own 0 b t ∧ ∃ o, t.built (name, .engineValue (some kind)) = some o :=
  ⟨.of_pass hown hpass fun _ _ ↦ Nat.le_refl _,
    o, hpass.underway.built_of_mem (hpass.subset List.mem_cons_self)⟩

/-- An engine value that is to be filled is visited and filled. -/
theorem yields_visitEngineValue {h : InstanceHandle} {kind : ValueKind} {o : Value}
    {v : EngineValue} {fields : List Field} (hb : Underway world store b)
    (hfacts : store.IsFactFree) (hopened : b.heap.opened o = .engine v)
    (hstorage : o.storage? = none)
    (hown : ∀ id, o = .held id → own = some id ∧ id < b.heap.cells.size ∧ ∀ p ∈ b.visited,
      p.2.storage? ≠ some id)
    (hnew : b.built (h.name, .engineValue (some kind)) = none)
    (hreads : world.Reads (.engineValue (some kind)) fields)
    (hextract : ∀ c ∈ fields, ∀ e u, Underway world store u →
      unvisited world store u.visited ≤ unvisited world store b.visited → e.IsFactFree →
      Converts world store e c.hint (f e c.hint) (g e c.hint) u) :
    Yields world (Passage world store own 0 b)
      (fun w t ↦ (∃ o, t.built (h.name, .engineValue (some kind)) = some o) ∧
        ∀ id, o = .held id → w = .held id)
      (visit h.name (.engineValue (some kind)) o >>= fun _ ↦ filling o fun object ↦
        fillFields f object fields (fun slot ↦ h.slot (.text slot)) (store.slotsOf h.name))
      (visit h.name (.engineValue (some kind)) o >>= fun _ ↦ filling o fun object ↦
        fillFields g object fields (fun slot ↦ h.slot (.text slot)) (store.slotsOf h.name)) b := by
  have hnone : ∀ id, o.storage? = some id → own = some id := by
    intro id hid
    rw [hstorage] at hid
    cases hid
  have hunderway : Underway world store (b.visiting (h.name, .engineValue (some kind)) o) := by
    refine hb.visit hnew (fun id hid ↦ ?_) fun objects ↦ .engineValue fun id hid ↦ ?_
    · rw [hstorage] at hid
      cases hid
    · rw [hstorage] at hid
      cases hid
  refine yields_visit rfl
    ((yields_fillingEngineValue hfacts hunderway hopened (fun id heq ↦ ?_) hreads
    fun c hc e u hu hle he ↦ ?_).mono (fun t hst ↦ (built_of_engineValue hnone hst).1)
    fun w t hst hw ↦ ⟨(built_of_engineValue hnone hst).2, hw⟩)
  · obtain ⟨hsome, hlt, happart⟩ := hown id heq
    refine ⟨hsome, hlt, fun p hp ↦ ?_⟩
    rcases List.mem_cons.mp hp with rfl | hp
    · rw [hstorage]
      nofun
    · exact happart p hp
  · exact hextract c hc e u hu (Nat.le_trans hle unvisited_cons_le) he

/-- A new object of the attributes of an engine value is visited and filled. -/
theorem yields_visitBlank {h : InstanceHandle} {kind : ValueKind} {struct : String}
    {fields : List Field} (hsite : Site world store own s b id) (hfacts : store.IsFactFree)
    (hcell : ∃ attrs, b.heap.get? id = some (.object attrs))
    (hnew : b.built (h.name, .engineValue (some kind)) = none)
    (hreads : world.Reads (.engineValue (some kind)) fields)
    (hextract : ∀ c ∈ fields, ∀ e u, Underway world store u →
      unvisited world store u.visited ≤ unvisited world store b.visited → e.IsFactFree →
      Converts world store e c.hint (f e c.hint) (g e c.hint) u) :
    Yields world (Passage world store own 0 s)
      (fun _ t ↦ ∃ o, t.built (h.name, .engineValue (some kind)) = some o)
      (visit h.name (.engineValue (some kind)) (.object struct id) >>= fun _ ↦
        filling (.object struct id) fun object ↦
          fillFields f object fields (fun slot ↦ h.slot (.text slot)) (store.slotsOf h.name))
      (visit h.name (.engineValue (some kind)) (.object struct id) >>= fun _ ↦
        filling (.object struct id) fun object ↦
          fillFields g object fields (fun slot ↦ h.slot (.text slot))
            (store.slotsOf h.name)) b := by
  have hown : ∀ other, (Value.object struct id).storage? = some other → some id = some other :=
    fun _ heq ↦ heq
  obtain ⟨attrs, hget⟩ := hcell
  have hunderway : Underway world store
      (b.visiting (h.name, .engineValue (some kind)) (.object struct id)) := by
    refine hsite.prepares.passage.underway.visit hnew (fun other hother ↦ ?_) fun objects ↦
      .engineValue fun other hother ↦ ?_
    · cases hother
      exact hsite.apart
    · cases hother
      rw [hget]
      rfl
  have hput : ∀ done c rest, fields = done ++ c :: rest → ∀ u,
      Filled world store (b.visiting (h.name, .engineValue (some kind)) (.object struct id)) id
        (ShowsObject store h.name id done) u → ∀ cell,
      ShowsObject store h.name id (done ++ [c]) u.built (u.heap.put id cell) →
      Underway world store { u with heap := u.heap.put id cell } := by
    intro done c rest _ u hu cell hshows
    obtain ⟨used, hpassage⟩ := hu.passage
    obtain ⟨⟨after, hafter⟩, -⟩ := hshows
    refine hpassage.underway.put (hpassage.subset List.mem_cons_self) rfl (.engineValue ?_)
    intro other hother
    cases hother
    rw [hafter]
    rfl
  have hfill := yields_fillFields h struct hfacts (attr_nodup_of_reads hreads) hunderway
    ⟨attrs, hget⟩ hput fun c hc e u hu hle he ↦
      hextract c hc e u hu (Nat.le_trans hle unvisited_cons_le) he
  rw [← pass_of_reads hreads] at hfill
  have hafter : ∀ t, Passage world store (some id)
      (readings h.name (World.pass.ofFields world store h.name (.engineValue (some kind))))
      (b.visiting (h.name, .engineValue (some kind)) (.object struct id)) t →
      Passage world store own 0 s t := fun t hst ↦ hsite.passage (built_of_engineValue hown hst).1
  have hkept : ∀ t, Passage world store (some id)
      (readings h.name (World.pass.ofFields world store h.name (.engineValue (some kind))))
      (b.visiting (h.name, .engineValue (some kind)) (.object struct id)) t →
      Yields world (Passage world store own 0 s)
        (fun _ t ↦ ∃ o, t.built (h.name, .engineValue (some kind)) = some o)
        (asEngineValue (.object struct id)) (asEngineValue (.object struct id)) t := fun t hst ↦
    (yields_asEngineValue_eq _ t).mono (fun u heq ↦ heq ▸ hafter t hst) fun _ u heq _ ↦
      heq ▸ (built_of_engineValue hown hst).2
  exact yields_visit rfl (hfill.bind (fun _ t hst _ ↦ hkept t hst) hafter)

/-- An instance becomes an engine value. -/
theorem yields_ofEngineValue {h : InstanceHandle} {kind : ValueKind} {target : Option Value}
    (hs : Underway world store s) (hfacts : store.IsFactFree)
    (haccepts : Accepts s (.engineValue (some kind)) target own)
    (hnew : s.built (h.name, .engineValue (some kind)) = none)
    (hextract : ∀ e inner u, Underway world store u →
      unvisited world store u.visited ≤ unvisited world store s.visited → inner.turns = [] →
      e.IsFactFree → Converts world store e inner (f e inner) (g e inner) u) :
    Yields world (Passage world store own 0 s)
      (fun w t ↦ (∃ o, t.built (h.name, .engineValue (some kind)) = some o) ∧
        ∀ id, target = some (.held id) → w = .held id)
      (extractInstance f h (.engineValue (some kind)) target)
      (extractInstance g h (.engineValue (some kind)) target) s := by
  refine yields_ofFields hs rfl hnew fun fields b _ hsb hknows hreads ↦ ?_
  have hitems : ∀ c ∈ fields, ∀ e u, Underway world store u →
      unvisited world store u.visited ≤ unvisited world store s.visited → e.IsFactFree →
      Converts world store e c.hint (f e c.hint) (g e c.hint) u := fun c hc e u hu hle he ↦
    hextract e c.hint u hu hle (turns_of_engineValue hreads hc) he
  cases haccepts with
  | anew =>
    refine (yields_blank hsb.passage.underway (.engineValue (some kind)) fields).bind
      (fun o t hbt ho ↦ ?_) fun t hbt ↦ (hsb.trans hbt).passage
    obtain ⟨struct, id, attrs, rfl, -, hid, hget⟩ := ho
    have hst : Prepares world store s t := hsb.trans hbt
    have hsite : Site world store none s t id := .anew hs hst (Nat.le_trans hsb.passage.size hid)
    refine (yields_visitBlank hsite hfacts ⟨attrs, hget⟩ (by rw [hst.built_eq, hnew]) hreads
      fun c hc e u hu hle he ↦ ?_).mono (fun _ hreached ↦ hreached) fun _ _ _ ho ↦ ⟨ho, nofun⟩
    exact hitems c hc e u hu (hst.visited ▸ hle) he
  | @engineValue _ v =>
    have hnone : ∀ id, Value.engine v = .held id → none = some id ∧ id < b.heap.cells.size ∧
      ∀ p ∈ b.visited, p.2.storage? ≠ some id := nofun
    rw [Option.elim_some, pure_bind, pure_bind]
    refine (yields_visitEngineValue hsb.passage.underway hfacts rfl rfl hnone
      (by rw [hsb.built_eq, hnew]) hreads fun c hc e u hu hle he ↦ ?_).mono
      (fun _ hbt ↦ hsb.passage.widen.after hbt) fun _ _ _ hw ↦ ⟨hw.1, nofun⟩
    exact hitems c hc e u hu (hsb.visited ▸ hle) he
  | @held _ hid v hheld hlt happart =>
    have hkept : b.heap.opened (.held hid) = .engine v := by
      rw [Heap.opened, Heap.heldIn, hsb.passage.cells hid hlt nofun]
      exact hheld
    have hown : ∀ id, Value.held hid = .held id → some hid = some id ∧ id < b.heap.cells.size ∧
        ∀ p ∈ b.visited, p.2.storage? ≠ some id := by
      rintro id heq
      cases heq
      exact ⟨rfl, Nat.lt_of_lt_of_le hlt hsb.passage.size, hsb.visited ▸ happart⟩
    rw [Option.elim_some, pure_bind, pure_bind]
    refine (yields_visitEngineValue hsb.passage.underway hfacts hkept rfl hown
      (by rw [hsb.built_eq, hnew]) hreads fun c hc e u hu hle he ↦ ?_).mono
      (fun _ hbt ↦ hsb.passage.widen.after hbt) fun _ _ _ hw ↦ ⟨hw.1, fun id heq ↦ ?_⟩
    · exact hitems c hc e u hu (hsb.visited ▸ hle) he
    · exact hw.2 id (Option.some.inj heq)
  | mapping hdest htakes _ _ =>
    cases hdest
    cases htakes

end

end RuleMarshal
