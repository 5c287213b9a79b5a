import RuleMarshal.Proofs.Extraction.Instance
/-!
References within an extraction. A reference to an instance that was visited is what was built for
it; for one that was not, something is built or taken, and its slots are transferred
(`yields_ofStruct`, `yields_ofMapping`). What is converted on the way comes after fewer are left to
visit, or under a hint with fewer turns (`Follows`), so depth runs out only where a whole number of
visits has been made (`converts_extractWithin`).
-/

set_option autoImplicit false
set_option relaxedAutoImplicit false

namespace RuleMarshal

open Act

/-- Whether a target, if there is one, is what a destination fills, in a cell where nothing was
built. -/
inductive Accepts (s : State) : Hint → Option Value → Option Nat → Prop
  | anew {dest : Hint} : Accepts s dest none none
  | object {struct : String} {id : Nat} {attrs : List (String × Value)} :
      s.heap.get? id = some (.object attrs) → (∀ p ∈ s.visited, p.2.storage? ≠ some id) →
      Accepts s (.struct struct) (some (.object struct id)) (some id)
  | mapping {dest : Hint} {d : Destination} {item : Hint} {id : Nat}
      {entries : List (Value × Value)} :
      dest.destination? = some d → d.Takes item → s.heap.get? id = some (.mapping entries) →
      (∀ p ∈ s.visited, p.2.storage? ≠ some id) → Accepts s dest (some (.mapping id)) (some id)
  | engineValue {kind : Option ValueKind} {v : EngineValue} :
      Accepts s (.engineValue kind) (some (.engine v)) none
  | held {kind : Option ValueKind} {id : Nat} {v : EngineValue} :
      s.heap.heldIn id = .engine v → id < s.heap.cells.size →
      (∀ p ∈ s.visited, p.2.storage? ≠ some id) →
      Accepts s (.engineValue kind) (some (.held id)) (some id)

section

variable {world : World} {store : Store} {own : Option Nat} {s t b : State} {name : String}
variable {width : Nat} {f g : EngineValue → Hint → Act Value}

theorem yields_visitedFor (name : String) (dest : Hint) (s : State) :
    Yields world (s = ·) (fun o _ ↦ o = dest.destination?.bind fun d ↦ s.built (name, d))
      (visitedFor name dest) (visitedFor name dest) s := by
  refine .of_runIn (fun _ t hrun ↦ ?_) fun o t hrun ↦ ?_
  · cases hrun
    rfl
  · cases hrun
    rfl

/-- Reading a declaration again asks nothing. -/
theorem yields_fieldsAnew (hs : Underway world store s) (dest : Hint) :
    Yields world (Prepares world store s) (fun fields _ ↦ world.Reads dest fields) (fieldsAnew dest)
      (fieldsAnew dest) s := by
  have hagain : Prepares world store s { s with readings := s.readings + 1 } :=
    ⟨.of_building hs (Nat.le_refl _) (fun _ _ ↦ rfl) rfl rfl, rfl⟩
  have hdeclared : Yields world (· = s)
      (fun fields _ ↦ world.types.fields world.config.tags dest = .ok fields)
      (MonadExcept.ofExcept (world.types.fields world.config.tags dest))
      (MonadExcept.ofExcept (world.types.fields world.config.tags dest)) s :=
        .ofExcept rfl fun _ ↦ id
  unfold fieldsAnew
  refine .reading (hdeclared.bind (fun fields t heq hfields ↦ ?_) fun t heq ↦ ?_)
  · subst heq
    refine .of_runIn (fun _ u hrun ↦ ?_) fun _ u hrun ↦ ?_
    · cases hrun
      exact hagain
    · cases hrun
      exact ⟨fields, _, hfields, rfl⟩
  · rw [heq]
    exact .refl hs

theorem turns_of_reads {struct : String} {fields : List Field} {c : Field}
    (hreads : world.Reads (.struct struct) fields) (hc : c ∈ fields) : ∃ declared,
      world.types.fields world.config.tags (.struct struct) = .ok declared ∧
        ∃ d ∈ declared, c.hint.turns = d.hint.turns := by
  obtain ⟨declared, number, hfields, rfl⟩ := hreads
  obtain ⟨d, hd, rfl⟩ := List.mem_map.mp hc
  exact ⟨declared, hfields, d, hd, Hint.turns_inReading number d.hint⟩

/-- What the fields of a type that is visited are converted to comes after fewer are left to
visit. -/
theorem follows_of_reads {struct : String} {fields : List Field} {c : Field} {u : State} {o : Value}
    {outer : Hint} (hspans : world.Spans width) (hreads : world.Reads (.struct struct) fields)
    (hc : c ∈ fields) (hknows : store.Knows name) (hnew : s.built (name, .struct struct) = none)
    (hle : unvisited world store u.visited ≤
      unvisited world store (((name, .struct struct), o) :: s.visited)) :
    Follows world store width u c.hint s outer ∧ c.hint.IsOffered world := by
  obtain ⟨declared, hfields, d, hd, hturns⟩ := turns_of_reads hreads hc
  refine ⟨.inl ⟨?_, ?_⟩, fun turn hturn _ ↦ ⟨struct, declared, hfields, d, hd, hturns ▸ hturn⟩⟩
  · exact Nat.lt_of_le_of_lt hle (unvisited_lt hknows (find?_isSome_of_fields hfields) hnew)
  · rw [hturns]
    exact hspans struct declared hfields d hd

/-- An object is taken or made before it is visited. -/
theorem yields_objectTarget {β : Type} {struct : String} {target : Option Value}
    {fields : List Field} {next follow : Value → Act β} {found : β → State → Prop}
    (hs : Underway world store s) (hsb : Prepares world store s b)
    (haccepts : Accepts s (.struct struct) target own)
    (hnext : ∀ id t, Site world store own s t id →
      (∃ attrs, t.heap.get? id = some (.object attrs)) →
      (∀ o, target = some o → .object struct id = o) →
      Yields world (Passage world store own 0 s) found (next (.object struct id))
      (follow (.object struct id)) t) :
    Yields world (Passage world store own 0 s) found
      (target.elim (blank (.struct struct) fields) pure >>= next)
      (target.elim (blank (.struct struct) fields) pure >>= follow) b := by
  cases haccepts with
  | anew =>
    refine (yields_blank hsb.passage.underway (.struct struct) fields).bind (fun o t hbt ho ↦ ?_)
      fun t hbt ↦ (hsb.trans hbt).passage
    obtain ⟨found, id, attrs, rfl, hname, hid, hget⟩ := ho
    obtain rfl := hname struct rfl
    have hnew : s.heap.cells.size ≤ id := Nat.le_trans hsb.passage.size hid
    exact hnext id t (.anew hs (hsb.trans hbt) hnew) ⟨attrs, hget⟩ nofun
  | object hget happart =>
    have hkept := (hsb.passage.cells _ (Heap.lt_size_of_get? hget) nofun).trans hget
    exact hnext _ b ⟨hsb, .inl rfl, hsb.visited ▸ happart⟩ ⟨_, hkept⟩ fun o heq ↦
      Option.some.inj heq
  | mapping hdest htakes _ _ =>
    cases hdest
    cases htakes

/-- A mapping is taken or made before it is visited. -/
theorem yields_mappingTarget {β : Type} {dest item : Hint} {target : Option Value}
    {next follow : Value → Act β} {found : β → State → Prop} (hs : Underway world store s)
    (hsb : Prepares world store s b) (haccepts : Accepts s dest target own)
    (hitem : dest.mappingValue? = some item)
    (hnext : ∀ id t, Site world store own s t id →
      (∃ entries, t.heap.get? id = some (.mapping entries)) →
      (∀ o, target = some o → .mapping id = o) →
      Yields world (Passage world store own 0 s) found (next (.mapping id))
      (follow (.mapping id)) t) :
    Yields world (Passage world store own 0 s) found (mappingTarget target >>= next)
      (mappingTarget target >>= follow) b := by
  cases haccepts with
  | anew =>
    have hmade : Prepares world store b { b with heap := (b.heap.alloc (.mapping [])).1 } := by
      refine ⟨.of_building hsb.passage.underway ?_ (fun id hid ↦ ?_) rfl rfl, rfl⟩
      · simp [Heap.alloc]
      · exact b.heap.get?_alloc_of_lt _ hid
    exact hnext _ _ (.anew hs (hsb.trans hmade) hsb.passage.size)
      ⟨[], b.heap.get?_alloc_self (.mapping [])⟩ fun _ ho ↦ by cases ho
  | mapping _ _ hget happart =>
    have hkept := (hsb.passage.cells _ (Heap.lt_size_of_get? hget) (by simp)).trans hget
    exact hnext _ b ⟨hsb, .inl rfl, hsb.visited ▸ happart⟩ ⟨_, hkept⟩ fun o heq ↦
      Option.some.inj heq
  | _ => cases hitem

section

variable {dest : Hint} (hs : Underway world store s) (hfacts : store.IsFactFree)
include hs

/-- An instance that was not visited becomes what has fields, or nothing. -/
theorem yields_ofFields {h : InstanceHandle} {target : Option Value} {found : Value → State → Prop}
    (hitem : dest.mappingValue? = none)
    (hnew : (dest.destination?.bind fun d ↦ s.built (h.name, d)) = none)
    (hnext : ∀ fields b, world.types.isStruct dest → Prepares world store s b → store.Knows h.name →
      world.Reads dest fields → Yields world (Passage world store own 0 s) found
        (target.elim (blank dest fields) pure >>= fun object ↦ do
          visit h.name dest object
          filling object fun object ↦
            fillFields f object fields (fun slot ↦ h.slot (.text slot)) (store.slotsOf h.name))
        (target.elim (blank dest fields) pure >>= fun object ↦ do
          visit h.name dest object
          filling object fun object ↦
            fillFields g object fields (fun slot ↦ h.slot (.text slot)) (store.slotsOf h.name)) b) :
    Yields world (Passage world store own 0 s) found (extractInstance f h dest target)
      (extractInstance g h dest target) s := by
  unfold extractInstance
  refine (yields_visitedFor h.name dest s).bind (fun found b heq hfound ↦ ?_) fun t heq ↦ ?_
  · subst heq
    obtain rfl : found = none := by rw [hfound]; exact hnew
    refine (yields_slotNames hs.answers h).bind (fun names b hsb hnames ↦ ?_) fun b hsb ↦ ?_
    · obtain ⟨hknows, rfl⟩ := hnames
      have hprepares : Prepares world store s b := .of_inquires hs hsb
      refine .reading ?_
      rw [hitem]
      by_cases hstruct : world.types.isStruct dest
      · rw [hstruct]
        refine (yields_fieldsAnew hprepares.passage.underway dest).bind
          (fun fields c hbc hreads ↦ ?_)
          fun c hbc ↦ (hprepares.trans hbc).passage.widen
        have hmade := hnext fields c hstruct (hprepares.trans hbc) hknows hreads
        cases target with
        | none => exact hmade
        | some v => exact hmade
      · rw [Bool.eq_false_iff.mpr hstruct]
        exact .throw hprepares.passage.widen
    · exact Passage.widen (.of_inquires hs hsb)
  · subst heq
    exact .refl hs

include hfacts

/-- An instance that was not visited becomes an object of a struct type. -/
theorem yields_ofStruct {h : InstanceHandle} {struct : String} {target : Option Value}
    (haccepts : Accepts s (.struct struct) target own) (hspans : world.Spans width)
    (hnew : s.built (h.name, .struct struct) = none)
    (hextract : ∀ e inner u, Underway world store u →
      Follows world store width u inner s (.struct struct) → inner.IsOffered world → e.IsFactFree →
      Converts world store e inner (f e inner) (g e inner) u) :
    Yields world (Passage world store own 0 s)
      (fun w t ↦ Settles world store s (h.name, .struct struct) w t ∧ ∀ o, target = some o → w = o)
      (extractInstance f h (.struct struct) target)
        (extractInstance g h (.struct struct) target) s := by
  refine yields_ofFields hs rfl hnew fun fields b _ hsb hknows hreads ↦ ?_
  refine yields_objectTarget hs hsb haccepts fun id x hsite hcell hsame ↦ ?_
  have hbuilt : x.built (h.name, .struct struct) = none := by rw [hsite.prepares.built_eq, hnew]
  refine (yields_visitStruct hsite hfacts hbuilt hcell hreads fun c hc e u hu hle he ↦ ?_).mono
    (fun _ ↦ fun hst ↦ hst) fun w t _ hw ↦ ⟨hw.2, fun o ho ↦ hw.1.trans (hsame o ho)⟩
  rw [hsite.prepares.visited] at hle
  obtain ⟨hfollows, hoffered⟩ := follows_of_reads hspans hreads hc hknows hnew hle
  exact hextract e c.hint u hu hfollows hoffered he

/-- An instance that was not visited becomes a mapping. -/
theorem yields_ofMapping {h : InstanceHandle} {d : Destination} {item : Hint}
    {target : Option Value} (haccepts : Accepts s dest target own)
    (hdest : dest.destination? = some d) (htakes : d.Takes item)
    (hitem : dest.mappingValue? = some item) (hnew : s.built (h.name, d) = none)
    (hextract : ∀ e u, Underway world store u →
      unvisited world store u.visited ≤ unvisited world store s.visited → e.IsFactFree →
      Converts world store e item (f e item) (g e item) u) :
    Yields world (Passage world store own 0 s)
      (fun w t ↦ Settles world store s (h.name, d) w t ∧ ∀ o, target = some o → w = o)
      (extractInstance f h dest target) (extractInstance g h dest target) s := by
  unfold extractInstance
  refine (yields_visitedFor h.name dest s).bind (fun found b heq hfound ↦ ?_) fun t heq ↦ ?_
  · subst heq
    obtain rfl : found = none := by rw [hfound, hdest]; exact hnew
    refine (yields_slotNames hs.answers h).bind (fun names b hsb hnames ↦ ?_) fun b hsb ↦ ?_
    · obtain ⟨hknows, rfl⟩ := hnames
      have hprepares : Prepares world store s b := .of_inquires hs hsb
      refine .reading ?_
      rw [hitem]
      refine yields_mappingTarget hs hprepares haccepts hitem fun id x hsite hcell hsame ↦ ?_
      have hbuilt : x.built (h.name, d) = none := by rw [hsite.prepares.built_eq, hnew]
      refine (yields_visitMapping hsite hfacts hdest htakes hbuilt hcell
        fun e u hu hle he ↦ ?_).mono (fun _ hst ↦ hst)
          fun w t _ hw ↦ ⟨hw.2, fun o ho ↦ hw.1.trans (hsame o ho)⟩
      exact hextract e u hu (hsite.prepares.visited ▸ hle) he
    · exact Passage.widen (.of_inquires hs hsb)
  · subst heq
    exact .refl hs

omit hfacts in
/-- What was built for an instance is what a reference to it becomes. -/
theorem yields_ofBuilt {h : InstanceHandle} {d : Destination} {o : Value} {target : Option Value}
    (hdest : dest.destination? = some d) (hkind : ∀ kind, d ≠ .engineValue kind)
    (hbuilt : s.built (h.name, d) = some o) :
    Yields world (s = ·) (fun w _ ↦ w = o) (extractInstance f h dest target)
      (extractInstance g h dest target) s := by
  unfold extractInstance
  refine (yields_visitedFor h.name dest s).bind (fun found b heq hfound ↦ ?_) fun t heq ↦ heq
  subst heq
  obtain rfl : found = some o := by rw [hfound, hdest]; exact hbuilt
  generalize hkey : (h.name, d) = key at hbuilt
  cases hs.presents_of_built hbuilt with
  | struct _ hreads _ _ =>
    obtain ⟨declared, number, hfields, -⟩ := hreads
    exact yields_asEngineValue (find?_isSome_of_fields hfields) rfl rfl
  | mapping _ _ _ _ _ => exact .pure rfl rfl
  | engineValue _ =>
    cases hkey
    exact absurd rfl (hkind _)

omit hfacts in
/-- An instance becomes nothing but a mapping or a struct. -/
theorem yields_refused {h : InstanceHandle} {target : Option Value} {found : Value → State → Prop}
    (hdest : dest.destination? = none) (hitem : dest.mappingValue? = none)
    (hstruct : world.types.isStruct dest = false) :
    Yields world (Passage world store none 0 s) found (extractInstance f h dest target)
      (extractInstance g h dest target) s := by
  refine yields_ofFields hs hitem (by rw [hdest]; rfl) fun _ _ hstructs ↦ ?_
  rw [hstruct] at hstructs
  cases hstructs

end

/-! ### References -/

/-- A reference to an instance is what an extraction makes of the instance. -/
theorem converts_extractInstance {e : EngineValue} {h : InstanceHandle} {dest : Hint}
    (hs : Underway world store s) (hfacts : store.IsFactFree) (hspans : world.Spans width)
    (he : e.instance? = some h.name) (hleft : dest.IsLeft e) (hoffered : dest.IsOffered world)
    (hextract : ∀ v inner u, Underway world store u → Follows world store width u inner s dest →
      inner.IsOffered world → v.IsFactFree →
        Converts world store v inner (f v inner) (g v inner) u) :
    Converts world store e dest (extractInstance f h dest none)
      (extractInstance g h dest none) s := by
  have hsettled : ∀ {d : Destination} {act other : Act Value}, dest.destination? = some d →
      Yields world (Passage world store none 0 s)
        (fun w t ↦ Settles world store s (h.name, d) w t ∧ ∀ o, none = some o → w = o) act other s →
      Converts world store e dest act other s := fun hdest hyields ↦
    hyields.mono (fun _ hst ↦ hst) fun w t _ hw ↦ ⟨.reference he hdest hw.1.built, hw.1.whole⟩
  have hfound : ∀ {d : Destination} {o : Value}, dest.destination? = some d →
      (∀ kind, d ≠ .engineValue kind) → s.built (h.name, d) = some o →
      Converts world store e dest (extractInstance f h dest none)
        (extractInstance g h dest none) s := by
    intro d o hdest hkind hbuilt
    refine (yields_ofBuilt hs hdest hkind hbuilt).mono (fun t heq ↦ ?_) fun w t heq hw ↦ ?_
    · rw [← heq]
      exact .refl hs
    · subst heq
      subst hw
      exact ⟨.reference he hdest hbuilt, .refl s⟩
  have hitems : ∀ {item : Hint} {d : Destination}, dest.destination? = some d → d.Takes item →
      dest.mappingValue? = some item → item.turns.length < dest.turns.length →
      item.IsOffered world →
      Converts world store e dest (extractInstance f h dest none)
        (extractInstance g h dest none) s := by
    intro item d hdest htakes hitem hlt hitemOffered
    cases hbuilt : s.built (h.name, d) with
    | some o =>
      refine hfound hdest (fun kind heq ↦ ?_) hbuilt
      subst heq
      cases htakes
    | none =>
      exact hsettled hdest (yields_ofMapping hs hfacts .anew hdest htakes hitem hbuilt
        fun v u hu hle hv ↦ hextract v item u hu (.inr ⟨hle, hlt⟩) hitemOffered hv)
  have hrefused : dest.destination? = none → dest.mappingValue? = none →
      world.types.isStruct dest = false →
      Converts world store e dest (extractInstance f h dest none)
        (extractInstance g h dest none) s :=
    fun hdest hitem hstruct ↦ yields_refused hs hdest hitem hstruct
  cases dest with
  | atom a =>
    cases a with
    | struct struct =>
      cases hbuilt : s.built (h.name, .struct struct) with
      | some o => exact hfound rfl nofun hbuilt
      | none => exact hsettled rfl (yields_ofStruct hs hfacts .anew hspans hbuilt hextract)
    | mapping => exact hitems rfl .mapping rfl Nat.zero_lt_one nofun
    | engineValue kind => exact absurd (hleft _ rfl) nofun
    | _ => exact hrefused rfl rfl rfl
  | mappingOf place key value =>
    refine hitems rfl (.mappingAt place value) rfl (Nat.lt_succ_self _) fun turn hturn ↦ ?_
    exact hoffered turn (List.mem_cons_of_mem _ hturn)
  | @generic place origin args =>
    cases origin with
    | mapping => exact hitems rfl (.mappingAt place .any) rfl Nat.zero_lt_one nofun
    | _ => exact hrefused rfl rfl rfl
  | _ => exact hrefused rfl rfl rfl

theorem yields_handleIn (e : EngineValue) (s : State) :
    Yields world (Inquires store 0 s) (fun h _ ↦ e.instance? = some h.name)
      (handleIn e) (handleIn e) s := by
  cases e with
  | instanceAddress h => exact .pure (.refl s) rfl
  | instanceName name =>
    refine .of_runIn (fun _ t hrun ↦ ?_) fun h t hrun ↦ ?_
    · cases hrun
      exact .of_aside s _ s.parked
    · cases hrun
      rfl
  | _ => exact .throw (.refl s)

theorem exists_struct_of_isStruct {dest : Hint} {e : EngineValue} (hleft : dest.IsLeft e)
    (hstruct : world.types.isStruct dest) : ∃ struct, dest = .struct struct := by
  cases dest with
  | atom a =>
    cases a with
    | struct struct => exact ⟨struct, rfl⟩
    | engineValue kind => exact absurd (hleft _ rfl) nofun
    | _ => cases hstruct
  | _ => cases hstruct

/-- What a plain conversion leaves shows the value that it comes from. -/
theorem converts_resolveBy {e : EngineValue} {dest : Hint} (hs : Underway world store s)
    (hfacts : store.IsFactFree) (hspans : world.Spans width) (hfree : e.IsFactFree)
    (hleft : dest.IsLeft e) (hoffered : dest.IsOffered world)
    (hextract : ∀ v inner u, Underway world store u → Follows world store width u inner s dest →
      inner.IsOffered world → v.IsFactFree →
      Converts world store v inner (f v inner) (g v inner) u) :
    Converts world store e dest (resolveBy f e dest) (resolveBy g e dest) s := by
  have hthrow : ∀ {fault : Error}, Converts world store e dest (throw fault) (throw fault) s :=
    .throw (.refl hs)
  have hinstance : ∀ {v : EngineValue}, v = e →
      Converts world store e dest (handleIn v >>= fun h ↦ extractInstance f h dest none)
        (handleIn v >>= fun h ↦ extractInstance g h dest none) s := by
    rintro v rfl
    refine (yields_handleIn v s).bind (fun h t hst hh ↦ ?_) fun t hst ↦ .of_inquires hs hst
    have ht : Underway world store t := hs.of_eq (hst.answers hs.answers) hst.heap_eq hst.visited_eq
    have hconverts := converts_extractInstance ht hfacts hspans hh hleft hoffered
      fun v inner u hu hfollows ↦ hextract v inner u hu (by rwa [Follows, ← hst.visited_eq])
    refine hconverts.mono (fun u htu ↦ Passage.after (.of_inquires hs hst) htu) fun w u _ hw ↦
      ⟨hw.1, fun hnone p hp hnew ↦ hw.2 hnone p hp (hst.visited_eq ▸ hnew)⟩
  unfold resolveBy
  dsimp only
  split
  · refine (yields_handleIn e s).bind (fun h t hst hh ↦ ?_) fun t hst ↦ .of_inquires hs hst
    refine .pure (.of_inquires hs hst) ⟨.handle hh, .of_subset ?_⟩
    rw [hst.visited_eq]
    exact fun _ hp ↦ hp
  · split
    · exact absurd hfree EngineValue.IsFactFree.ne_factAddress
    · exact hthrow
  · refine .reading ?_
    by_cases hnil : world.types.isStruct dest && e.isNil
    · rw [if_pos hnil, if_pos hnil]
      rw [Bool.and_eq_true] at hnil
      obtain ⟨struct, rfl⟩ := exists_struct_of_isStruct hleft hnil.1
      exact .pure (.refl hs) ⟨.missing hnil.2, .refl s⟩
    · rw [if_neg hnil, if_neg hnil]
      have hcontainer : Yields world (s = ·) (fun _ _ ↦ True)
          (MonadExcept.ofExcept (dest.isContainer world.types))
          (MonadExcept.ofExcept (dest.isContainer world.types)) s := .ofExcept rfl fun _ _ ↦ trivial
      refine hcontainer.bind (fun contains t heq _ ↦ ?_) fun t heq ↦ ?_
      · subst heq
        by_cases hcontains : contains
        · rw [if_pos hcontains, if_pos hcontains]
          split
          · exact hinstance rfl
          · exact hinstance rfl
          · exact absurd hfree EngineValue.IsFactFree.ne_factAddress
          · exact hthrow
        · rw [if_neg hcontains, if_neg hcontains]
          exact hthrow
      · subst heq
        exact .refl hs

/-! ### Depth -/

/-- How deep an extraction can go: as often as there is something to visit, through the turns of a
field. -/
def reach (world : World) (store : Store) (width : Nat) (visited : Visited) (h : Hint) : Nat :=
  unvisited world store visited * (width + 1) + h.turns.length

theorem Follows.reach_lt {inner outer : Hint}
    (hfollows : Follows world store width t inner s outer) :
    reach world store width t.visited inner < reach world store width s.visited outer := by
  unfold reach
  rcases hfollows with ⟨hlt, hwidth⟩ | ⟨hle, hlt⟩
  · have hstep : (unvisited world store t.visited + 1) * (width + 1) ≤
        unvisited world store s.visited * (width + 1) := Nat.mul_le_mul_right _ hlt
    rw [Nat.add_mul] at hstep
    omega
  · have hmul := Nat.mul_le_mul_right (width + 1) hle
    omega

theorem reach_le {inner outer : Hint}
    (hle : unvisited world store t.visited ≤ unvisited world store s.visited)
    (hturns : inner.turns.Sublist outer.turns) :
    reach world store width t.visited inner ≤ reach world store width s.visited outer :=
  Nat.add_le_add (Nat.mul_le_mul_right _ hle) hturns.length_le

theorem extractWithin_of_isFactFree {e : EngineValue} (he : e.IsFactFree) (depth : Nat) (h : Hint) :
    extractWithin (depth + 1) e h = h.decode (some (resolveBy (extractWithin depth))) e := by
  cases e with
  | factAddress handle => exact absurd he EngineValue.IsFactFree.ne_factAddress
  | _ => rfl

/-- What an extraction makes of a value shows it, and a depth that is enough can as well be
another. -/
theorem converts_extractWithin (hfacts : store.IsFactFree) (hspans : world.Spans width)
    (depth : Nat) :
    ∀ (other : Nat) (e : EngineValue) (h : Hint) (s : State), Underway world store s →
      h.IsOffered world → e.IsFactFree →
      (depth = other ∨ reach world store width s.visited h < min depth other) →
      Converts world store e h (extractWithin depth e h) (extractWithin other e h) s := by
  induction depth with
  | zero =>
    intro other e h s hs _ _ hdeep
    obtain rfl : 0 = other := by omega
    exact .throw (.refl hs)
  | succ depth ih =>
    intro other e h s hs hoffered he hdeep
    obtain ⟨other, rfl⟩ : ∃ less, other = less + 1 := ⟨other - 1, by omega⟩
    rw [extractWithin_of_isFactFree he, extractWithin_of_isFactFree he]
    have hunderway : ∀ t, (Underway world store t ∧
        unvisited world store t.visited ≤ unvisited world store s.visited) →
          Underway world store t :=
      fun t ht ↦ ht.1
    refine Hint.converts_decode hunderway
      (fun t u ht htu ↦ ⟨htu.underway, Nat.le_trans htu.unvisited_le ht.2⟩)
      (fun hchoice ↦ hoffered _ hchoice nofun) (fun v dest t ht hv hturns hleft ↦ ?_) h e s
      ⟨hs, Nat.le_refl _⟩ he (List.Sublist.refl _)
    refine converts_resolveBy ht.1 hfacts hspans hv hleft
      (fun turn hturn ↦ hoffered turn (hturns.subset hturn)) fun w inner u hu hfollows hinner hw ↦
        ?_
    refine ih other w inner u hu hinner hw ?_
    have hlt := hfollows.reach_lt
    have hle : reach world store width t.visited dest ≤ reach world store width s.visited h :=
      reach_le ht.2 hturns
    omega

end

end RuleMarshal
