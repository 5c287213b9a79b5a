import Mathlib.Data.Finset.Prod
import RuleMarshal.Proofs.Extraction.Conversion
import RuleMarshal.Proofs.Extraction.Building
import RuleMarshal.Proofs.Schema.Field
/-!
Visits. When an instance is visited for the first time, fewer are left (`unvisited_lt`), its slots
are read in one pass, and what they hold is put into the object that was built for it: a transfer
reads a slot and writes what it was converted to (`yields_transfer`), and a pass is one transfer
after the other (`yields_pass`). The readings of a pass are those that the visit allows
(`Passage.of_pass`).
-/

set_option autoImplicit false
set_option relaxedAutoImplicit false

namespace RuleMarshal

open Act

/-! ### What is left to visit -/

/-- How many instances of a store have not been visited, counted for each declared type. -/
def unvisited (world : World) (store : Store) (visited : Visited) : Nat :=
  (((store.instances.map (·.1)).toFinset ×ˢ (world.types.types.map (·.name)).toFinset).filter
    fun p ↦ visited.lookup (p.1, .struct p.2) = none).card

section

variable {world : World} {store : Store} {own : Option Nat} {allowed : String → String → Nat}
variable {s t u : State} {name : String}

theorem lookup_cons_ne {visited : Visited} {key other : String × Destination} {o : Value}
    (hne : other ≠ key) : List.lookup other ((key, o) :: visited) = visited.lookup other := by
  have hfalse : (other == key) = false := by simpa using hne
  rw [List.lookup_cons, hfalse]

theorem Passage.unvisited_le (hst : Passage world store own allowed s t) :
    unvisited world store t.visited ≤ unvisited world store s.visited := by
  refine Finset.card_le_card fun p hp ↦ ?_
  rw [Finset.mem_filter] at hp ⊢
  refine ⟨hp.1, ?_⟩
  cases hbuilt : s.visited.lookup (p.1, .struct p.2) with
  | none => rfl
  | some o =>
    have hfound : t.visited.lookup (p.1, .struct p.2) = some o := hst.built hbuilt
    rw [hp.2] at hfound
    cases hfound

theorem Store.Knows.mem (hknows : store.Knows name) : name ∈ store.instances.map (·.1) := by
  obtain ⟨className, hclass⟩ := Option.isSome_iff_exists.mp hknows
  obtain ⟨first, rest, hinstances, -⟩ := List.lookup_eq_some_iff.mp hclass
  simp [hinstances]

theorem TypeTable.mem_of_find? {table : TypeTable} {struct : String}
    (hfound : (table.find? struct).isSome) : struct ∈ table.types.map (·.name) := by
  obtain ⟨t, ht⟩ := Option.isSome_iff_exists.mp hfound
  have hname : t.name = struct := by simpa using List.find?_some ht
  exact List.mem_map.mpr ⟨t, List.mem_of_find?_eq_some ht, hname⟩

/-- A visit for a struct type leaves fewer to visit. -/
theorem unvisited_lt {visited : Visited} {struct : String} {o : Value} (hknows : store.Knows name)
    (hstruct : (world.types.find? struct).isSome)
    (hnew : visited.lookup (name, .struct struct) = none) :
    unvisited world store (((name, .struct struct), o) :: visited) <
      unvisited world store visited := by
  refine Finset.card_lt_card (Finset.ssubset_iff_of_subset (fun p hp ↦ ?_) |>.mpr
    ⟨(name, struct), ?_, fun hmem ↦ ?_⟩)
  · rw [Finset.mem_filter] at hp ⊢
    refine ⟨hp.1, ?_⟩
    by_cases heq : (p.1, Destination.struct p.2) = (name, .struct struct)
    · rw [heq]
      exact hnew
    · rw [← lookup_cons_ne heq]
      exact hp.2
  · rw [Finset.mem_filter, Finset.mem_product, List.mem_toFinset, List.mem_toFinset]
    exact ⟨⟨hknows.mem, TypeTable.mem_of_find? hstruct⟩, hnew⟩
  · have hfound := (Finset.mem_filter.mp hmem).2
    rw [List.lookup_cons_self] at hfound
    cases hfound

/-! ### Passes -/

/-- Readings of some slots of one instance. -/
def readings (name : String) (slots : List String) (owner slot : String) : Nat :=
  if name = owner then slots.count slot else 0

theorem readings_append (name : String) (first rest : List String) :
    readings name (first ++ rest) = readings name first + readings name rest := by
  funext owner slot
  show (if name = owner then (first ++ rest).count slot else 0) =
    (if name = owner then first.count slot else 0) + if name = owner then rest.count slot else 0
  split
  · rw [List.count_append]
  · rfl

theorem share_le_readings (name slot : String) (owner read : String) :
    (Expression.readSlot name slot).share owner read ≤ readings name [slot] owner read := by
  unfold Expression.share Expression.reads readings
  by_cases howner : name = owner
  · subst howner
    by_cases hread : slot = read
    · simp [hread]
    · simp [hread]
  · simp [howner]

/-- A walk along a list that keeps to what the part done so far says. -/
theorem yields_pass {γ : Type} {slots : γ → List String} {Done : List γ → State → Prop}
    {items : List γ} {body other : γ → Act PUnit}
    (hunderway : ∀ done t, Done done t → Underway world store t)
    (hbody : ∀ done c rest, items = done ++ c :: rest → ∀ t, Done done t →
      Yields world (Passage world store own (readings name (slots c)) t)
        (fun _ u ↦ Done (done ++ [c]) u) (body c) (other c) t) (hs : Done [] s) :
    Yields world (Passage world store own (readings name (items.flatMap slots)) s)
      (fun _ t ↦ Done items t) (items.forM body) (items.forM other) s := by
  suffices hrest : ∀ rest done s, items = done ++ rest → Done done s →
      Yields world (Passage world store own (readings name (rest.flatMap slots)) s)
        (fun _ t ↦ Done items t) (rest.forM body) (rest.forM other) s from hrest items [] s rfl hs
  intro rest
  induction rest with
  | nil =>
    intro done s hitems hdone
    have hall : done = items := by rw [hitems, List.append_nil]
    refine .pure ((Passage.refl (hunderway done s hdone)).mono fun _ _ ↦ Nat.zero_le _) ?_
    exact hall ▸ hdone
  | cons c rest ih =>
    intro done s hitems hdone
    have hslots : readings name ((c :: rest).flatMap slots) =
        readings name (slots c) + readings name (rest.flatMap slots) := by
      rw [List.flatMap_cons, readings_append]
    rw [hslots]
    refine (hbody done c rest hitems s hdone).bind (fun _ t hst ht ↦ ?_) fun t hst ↦
      hst.mono fun _ _ ↦ Nat.le_add_right _ _
    exact (ih (done ++ [c]) t (by rw [hitems, List.append_assoc]; rfl) ht).mono
      (fun u htu ↦ hst.trans htu) fun _ _ _ ↦ id

/-! ### Transfers -/

/-- A slot is read, and what it is converted to is written. -/
theorem yields_transfer {h : InstanceHandle} {slot : String} {item : Hint}
    {f g : EngineValue → Hint → Act Value} {write : Value → Act PUnit} {Done : State → Prop}
    (ht : Underway world store t) (hfacts : store.IsFactFree) (hslot : slot ∈ store.slotsOf h.name)
    (hextract : ∀ e u, Underway world store u → u.visited = t.visited → e.IsFactFree →
      Converts world store e item (f e item) (g e item) u)
    (hwrite : ∀ w u, Passage world store none (readings h.name [slot]) t u →
      WholeSince world store t u → ShowsSlot store u.built h.name slot item w →
      Yields world (Passage world store own 0 u) (fun _ x ↦ Done x) (write w) (write w) u) :
    Yields world (Passage world store own (readings h.name [slot]) t) (fun _ x ↦ Done x)
      (h.slot (.text slot) >>= fun e ↦ f e item >>= write)
      (h.slot (.text slot) >>= fun e ↦ g e item >>= write) t := by
  have hread : ∀ {own : Option Nat} u, Inquires store (Expression.readSlot h.name slot).share t u →
      Passage world store own (readings h.name [slot]) t u := fun u htu ↦
    (Passage.of_inquires ht htu).mono (share_le_readings h.name slot)
  refine (yields_slot ht.answers h hslot).bind (fun e u htu hgives ↦ ?_) hread
  have hu : Underway world store u :=
    ht.of_eq (htu.answers ht.answers) htu.heap_eq htu.visited_eq
  refine (hextract e u hu htu.visited_eq ⟨_, hfacts h.name slot hslot, hgives⟩).bind
    (fun w x hux hw ↦ ?_) fun x hux ↦ (hread u htu).before hux.widen
  have htx : Passage world store none (readings h.name [slot]) t x := (hread u htu).before hux
  have hwhole : WholeSince world store t x :=
    (WholeSince.of_subset (by rw [htu.visited_eq]; exact fun _ ↦ id)).trans hux hw.2
  exact (hwrite w x htx hwhole ⟨e, hgives, hw.1⟩).mono (fun y hxy ↦ htx.widen.before hxy)
    fun _ _ _ ↦ id

theorem scalarEq_text (v : Value) (key : String) :
    v.scalarEq (.text key) = true ↔ v.text? = some key := by
  cases v <;> simp [Value.scalarEq, Value.text?]

theorem find?_putEntry_self (entries : List (Value × Value)) (key : String) (w : Value) :
    ((putEntry entries (.text key) w).find? fun p ↦ p.1.scalarEq (.text key)).map (·.2) =
      some w := by
  have hself : (Value.text key).scalarEq (.text key) = true := (scalarEq_text _ key).mpr rfl
  induction entries with
  | nil => simp [putEntry, hself]
  | cons p rest ih =>
    rw [putEntry]
    split
    case isTrue heq => simp [heq]
    case isFalse hne => simpa [hne] using ih

theorem find?_putEntry_ne {key other : String} (entries : List (Value × Value)) (w : Value)
    (hne : other ≠ key) :
    ((putEntry entries (.text key) w).find? fun p ↦ p.1.scalarEq (.text other)).map (·.2) =
      (entries.find? fun p ↦ p.1.scalarEq (.text other)).map (·.2) := by
  have hapart : ∀ v : Value, v.scalarEq (.text key) = true → v.scalarEq (.text other) = false := by
    intro v hv
    rw [Bool.eq_false_iff]
    intro hother
    rw [scalarEq_text, (scalarEq_text v key).mp hv] at hother
    exact hne (Option.some.inj hother).symm
  induction entries with
  | nil => simp [putEntry, hapart (.text key) ((scalarEq_text _ key).mpr rfl)]
  | cons p rest ih =>
    rw [putEntry]
    split
    case isTrue heq => simp [hapart _ heq]
    case isFalse =>
      by_cases hfound : p.1.scalarEq (.text other)
      · simp [hfound]
      · simpa [hfound] using ih

/-! ### Filling -/

/-- What a cell holds is filled as far as it shows something, in the passage from a state on. -/
structure Filled (world : World) (store : Store) (start : State) (id : Nat)
    (shown : (String × Destination → Option Value) → Heap → Prop) (t : State) : Prop where
  stored : id < start.heap.cells.size
  passage : ∃ allowed, Passage world store (some id) allowed start t
  whole : WholeSince world store start t
  apart : ∀ p ∈ t.visited, p ∉ start.visited → p.2.storage? ≠ some id
  shows : shown t.built t.heap

/-- Whether a cell is an object's whose attributes show the slots that fields go to. -/
def ShowsObject (store : Store) (name : String) (id : Nat) (done : List Field)
    (objects : String × Destination → Option Value) (heap : Heap) : Prop :=
  (∃ attrs, heap.get? id = some (.object attrs)) ∧ ShowsFields store objects heap name id done

/-- Whether a cell is a mapping's whose entries show slots. -/
def ShowsMapping (store : Store) (name : String) (id : Nat) (item : Hint) (done : List String)
    (objects : String × Destination → Option Value) (heap : Heap) : Prop :=
  (∃ entries, heap.get? id = some (.mapping entries)) ∧
    ShowsEntries store objects heap name id item done

section

variable {start : State} {id : Nat}
variable {shown more : (String × Destination → Option Value) → Heap → Prop}

theorem ShowsObject.mono {done : List Field} {objects known : String × Destination → Option Value}
    {heap after : Heap} (hshows : ShowsObject store name id done objects heap)
    (hcell : after.get? id = heap.get? id)
    (hknown : ∀ key o, objects key = some o → known key = some o) :
    ShowsObject store name id done known after := by
  obtain ⟨⟨attrs, hget⟩, hfields⟩ := hshows
  exact ⟨⟨attrs, hcell.trans hget⟩, hfields.mono hcell hknown⟩

theorem ShowsMapping.mono {item : Hint} {done : List String}
    {objects known : String × Destination → Option Value} {heap after : Heap}
    (hshows : ShowsMapping store name id item done objects heap)
    (hcell : after.get? id = heap.get? id)
    (hknown : ∀ key o, objects key = some o → known key = some o) :
    ShowsMapping store name id item done known after := by
  obtain ⟨⟨entries, hget⟩, hentries⟩ := hshows
  exact ⟨⟨entries, hcell.trans hget⟩, hentries.mono hcell hknown⟩

/-- What has been filled stays while other cells are filled. -/
theorem Filled.after (ht : Filled world store start id shown t)
    (htu : Passage world store none allowed t u) (hwhole : WholeSince world store t u)
    (hmono : shown t.built t.heap → u.heap.get? id = t.heap.get? id →
      (∀ key o, t.built key = some o → u.built key = some o) → more u.built u.heap) :
    Filled world store start id more u := by
  obtain ⟨used, hpassage⟩ := ht.passage
  have hstored : id < t.heap.cells.size := Nat.lt_of_lt_of_le ht.stored hpassage.size
  refine ⟨ht.stored, ⟨_, hpassage.trans htu.widen⟩, ht.whole.trans htu hwhole,
    fun p hp hnew hstorage ↦ ?_, hmono ht.shows (htu.cells id hstored nofun) fun _ _ ↦ htu.built⟩
  by_cases hmem : p ∈ t.visited
  · exact ht.apart p hmem hnew hstorage
  · have hfresh := (htu.fresh p hp hmem id hstorage).resolve_left nofun
    omega

/-- The cell is written, where that leaves what is under way as it is. -/
theorem Filled.yields_put {cell : Cell} {write : Act PUnit}
    (hu : Filled world store start id shown u)
    (hrun : write.runIn world u = (.ok ⟨⟩, { u with heap := u.heap.put id cell }))
    (hafter : Underway world store { u with heap := u.heap.put id cell })
    (hshows : more u.built (u.heap.put id cell)) :
    Yields world (Passage world store (some id) 0 u) (fun _ x ↦ Filled world store start id more x)
      write write u := by
  obtain ⟨used, hpassage⟩ := hu.passage
  refine .of_runIn (fun _ x hx ↦ ?_) fun _ x hx ↦ ?_
  · rw [hrun] at hx
    cases hx
    exact .put hafter
  · rw [hrun] at hx
    cases hx
    exact ⟨hu.stored, ⟨_, hpassage.trans (.put hafter)⟩, hu.whole.put hu.apart, hu.apart, hshows⟩

/-- One more field of an object is filled. -/
theorem Filled.yields_assign {struct : String} {done : List Field} {f : Field} {w : Value}
    (hu : Filled world store start id (ShowsObject store name id done) u)
    (hput : ∀ cell, ShowsObject store name id (done ++ [f]) u.built (u.heap.put id cell) →
      Underway world store { u with heap := u.heap.put id cell })
    (hattrs : ∀ g ∈ done, g.attr ≠ f.attr)
    (hshown : ShowsSlot store u.built name f.engineName f.hint w) :
    Yields world (Passage world store (some id) 0 u)
      (fun _ x ↦ Filled world store start id (ShowsObject store name id (done ++ [f])) x)
      (assign (.object struct id) f.attr w) (assign (.object struct id) f.attr w) u := by
  obtain ⟨⟨attrs, hget⟩, hfields⟩ := hu.shows
  have hheld : u.heap.attrs id = attrs := by rw [Heap.attrs, hget]
  have hcell : (u.heap.put id (.object (putNamed attrs f.attr w))).get? id =
      some (.object (putNamed attrs f.attr w)) := u.heap.get?_put_self _ (Heap.lt_size_of_get? hget)
  have hshows : ShowsObject store name id (done ++ [f]) u.built
      (u.heap.put id (.object (putNamed attrs f.attr w))) := by
    refine ⟨⟨_, hcell⟩, fun g hg hslot ↦ ?_⟩
    have hafter : (u.heap.put id (.object (putNamed attrs f.attr w))).attrs id =
        putNamed attrs f.attr w := by rw [Heap.attrs, hcell]
    rw [hafter]
    rcases List.mem_append.mp hg with hdone | hlast
    · obtain ⟨v, hattr, hv⟩ := hfields g hdone hslot
      rw [lookup_putNamed_ne _ _ (hattrs g hdone)]
      exact ⟨v, hheld ▸ hattr, hv⟩
    · obtain rfl := List.mem_singleton.mp hlast
      exact ⟨w, lookup_putNamed_self _ _ _, hshown⟩
  refine hu.yields_put ?_ (hput _ hshows) hshows
  rw [← hheld]
  rfl

/-- One more entry of a mapping is filled. -/
theorem Filled.yields_putKey {item : Hint} {done : List String} {slot : String} {w : Value}
    (hu : Filled world store start id (ShowsMapping store name id item done) u)
    (hput : ∀ cell, ShowsMapping store name id item (done ++ [slot]) u.built (u.heap.put id cell) →
      Underway world store { u with heap := u.heap.put id cell })
    (hshown : ShowsSlot store u.built name slot item w) :
    Yields world (Passage world store (some id) 0 u)
      (fun _ x ↦ Filled world store start id (ShowsMapping store name id item (done ++ [slot])) x)
      (putKey (.mapping id) slot w) (putKey (.mapping id) slot w) u := by
  obtain ⟨⟨entries, hget⟩, hentries⟩ := hu.shows
  have hheld : u.heap.entries id = entries := by rw [Heap.entries, hget]
  have hcell : (u.heap.put id (.mapping (putEntry entries (.text slot) w))).get? id =
      some (.mapping (putEntry entries (.text slot) w)) :=
    u.heap.get?_put_self _ (Heap.lt_size_of_get? hget)
  have hshows : ShowsMapping store name id item (done ++ [slot]) u.built
      (u.heap.put id (.mapping (putEntry entries (.text slot) w))) := by
    refine ⟨⟨_, hcell⟩, fun key hkey ↦ ?_⟩
    have hafter : (u.heap.put id (.mapping (putEntry entries (.text slot) w))).entries id =
        putEntry entries (.text slot) w := by rw [Heap.entries, hcell]
    rw [Heap.entry?, hafter]
    by_cases heq : key = slot
    · subst heq
      exact ⟨w, find?_putEntry_self entries key w, hshown⟩
    · have hdone : key ∈ done := (List.mem_append.mp hkey).resolve_right fun hlast ↦
        heq (List.mem_singleton.mp hlast)
      obtain ⟨v, hentry, hv⟩ := hentries key hdone
      rw [Heap.entry?, hheld] at hentry
      exact ⟨v, (find?_putEntry_ne entries w heq).trans hentry, hv⟩
  refine hu.yields_put ?_ (hput _ hshows) hshows
  rw [← hheld]
  rfl

end

end

end RuleMarshal
