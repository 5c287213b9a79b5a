import RuleMarshal.Proofs.Environment.Operation
import RuleMarshal.Proofs.Extraction.Outcome
import RuleMarshal.Proofs.Extraction.Target
import RuleMarshal.Proofs.Session.Refusal
/-!
Extractions into what exists already. Of an instance or a fact they come to what `SlotsInto` and
`OrderInto` say (`InstanceHandle.extract_into`, `FactHandle.extract_into`): what can be refused at
once is refused before anything is stored in the target, and then one place after the other is
filled, so a place that nothing can be converted for leaves the target filled in part
(`target_filled_in_part`). An engine value is not put into a target at all. What is answered is
built anew for the type of the target, which stays as it was (`extract_engine_passing_target`,
`Environment.extractFrom_passing_target`, `list_passed_over`).
-/

set_option autoImplicit false
set_option relaxedAutoImplicit false

namespace RuleMarshal

open Act

/-! ### Up to the first thing stored -/

/-- From a state, a computation comes to an answer and to a content of a cell that go together. -/
def LeadsTo (world : World) (id : Nat) (into : Except Error Value → Cell → Prop) (act : Act Value)
    (s : State) :
    Prop :=
  ∃ after, (act.runIn world s).2.heap.get? id = some after ∧ into (act.runIn world s).1 after

namespace LeadsTo

variable {world : World} {id : Nat} {into : Except Error Value → Cell → Prop} {s : State}
variable {cell : Cell}

theorem mono {other : Except Error Value → Cell → Prop} {act : Act Value}
    (hact : LeadsTo world id into act s)
    (hinto : ∀ answer after, into answer after → other answer after) :
    LeadsTo world id other act s := by
  obtain ⟨after, hafter, hcame⟩ := hact
  exact ⟨after, hafter, hinto _ after hcame⟩

/-- What comes before the filling leaves the cell, and may fail. -/
theorem after {β : Type} {act : Act β} {next : β → Act Value} (hrefused : ∀ e, into (.error e) cell)
    (hcell : s.heap.get? id = some cell) (hact : act.Keeps (CellStays id) world)
    (hnext : ∀ b t, act.runIn world s = (.ok b, t) → t.heap.get? id = some cell →
      LeadsTo world id into (next b) t) :
    LeadsTo world id into (act >>= next) s := by
  rw [LeadsTo, runIn_bind]
  cases hfirst : act.runIn world s with
  | mk found u =>
    have hstays : u.heap.get? id = some cell := hact.of_runIn hfirst cell hcell
    cases found with
    | error e => exact ⟨cell, hstays, hrefused e⟩
    | ok b => exact hnext b u hfirst hstays

theorem throw (hrefused : ∀ e, into (.error e) cell) (hcell : s.heap.get? id = some cell)
    (e : Error) {next : Unit → Act Value} :
    LeadsTo world id into ((MonadExcept.throw e : Act Unit) >>= next) s :=
  after hrefused hcell (.throw e) fun _ _ hthrown ↦ nomatch hthrown

theorem reading {next : World → Act Value} (hnext : LeadsTo world id into (next world) s) :
    LeadsTo world id into (MonadReader.read >>= next) s := hnext

theorem refuse {c : Prop} [Decidable c] {e : Error} {next : Unit → Act Value}
    (hrefused : ∀ e, into (.error e) cell) (hcell : s.heap.get? id = some cell)
    (hnext : LeadsTo world id into (next ⟨⟩) s) :
    LeadsTo world id into (if c then (MonadExcept.throw e : Act Unit) >>= next else next ⟨⟩) s := by
  split
  · exact throw hrefused hcell e
  · exact hnext

end LeadsTo

/-! ### Filling -/

/-- A walk that passes over some places is a walk along the others. -/
theorem forM_ite_eq_filter {α : Type} (places : List α) (c : α → Bool) (act : α → Act Unit) :
    (places.forM fun a ↦ if c a then act a else pure ⟨⟩) = (places.filter c).forM act := by
  induction places with
  | nil => rfl
  | cons a rest ih =>
    show ((if c a then act a else pure ⟨⟩) >>= fun _ ↦ rest.forM fun a ↦
      if c a then act a else pure ⟨⟩) = _
    rw [ih, List.filter_cons]
    split
    · rfl
    · rw [pure_bind]

/-- Filling a mapping is a walk along its places. -/
theorem fillMapping_eq_forM (reader : SlotReader) (id : Nat) (names : List String) :
    fillMapping extractValue (.mapping id) .any reader.slot names =
      (names.map SlotPlace.ofName).forM fun place ↦
        reader.convert place >>= (Value.mapping id).store place.key := by
  simp only [fillMapping, List.forM_eq_forM, List.forM_map, SlotReader.convert,
    SlotPlace.ofName, bind_assoc]
  rfl

/-- Filling the fields of an object is a walk along its places. -/
theorem fillFields_eq_forM (reader : SlotReader) (struct : String) (id : Nat) (fields : List Field)
    (names : List String) :
    fillFields extractValue (.object struct id) fields reader.slot names =
      ((fields.filter fun f ↦ names.contains f.engineName).map SlotPlace.ofField).forM fun place ↦
        reader.convert place >>= (Value.object struct id).store place.key := by
  rw [List.forM_eq_forM, List.forM_map, ← List.forM_eq_forM, ← forM_ite_eq_filter]
  simp only [fillFields, SlotReader.convert, SlotPlace.ofField, bind_assoc]
  rfl

section

variable {world : World} {names : List String} {id : Nat} {struct : String} {s before after : State}

/-- Filling places in turn, and then handing over the target, is what an extraction of slots comes
to. -/
theorem leadsTo_forM {reader : SlotReader} {target : Value} {cell : Cell} {type : Hint}
    {places : List SlotPlace} {finish : Act Value}
    (hconvert : ∀ place, (reader.convert place).Keeps (CellStays id) world)
    (htarget : target.FillableAs world.types id cell type) (hcell : s.heap.get? id = some cell)
    (hnames : reader.names.runIn world before = (.ok names, after))
    (hplaces : PlacesFor world names target places)
    (hfinish : ∀ t, finish.runIn world t = (.ok target, t)) :
    LeadsTo world id (SlotsInto world reader target cell)
      ((places.forM fun place ↦ reader.convert place >>= target.store place.key) >>=
        fun _ ↦ finish) s := by
  rw [LeadsTo, runIn_bind]
  cases hfill : Act.runIn (places.forM fun place ↦ reader.convert place >>= target.store place.key)
    world s with
  | mk found t =>
    obtain ⟨after, hafter, hfilled⟩ := filledInTurn_of_forM hconvert htarget hcell hfill
    cases found with
    | error e => exact ⟨after, hafter, .filled hnames hplaces hfilled⟩
    | ok _ =>
      dsimp only
      rw [hfinish]
      exact ⟨after, hafter, .filled hnames hplaces hfilled⟩

/-- Slots are put into a mapping in turn. -/
theorem leadsTo_fillMapping {reader : SlotReader} {entries : List (Value × Value)}
    (hconvert : ∀ place, (reader.convert place).Keeps (CellStays id) world)
    (hnames : reader.names.runIn world before = (.ok names, after))
    (hcell : s.heap.get? id = some (.mapping entries)) :
    LeadsTo world id (SlotsInto world reader (.mapping id) (.mapping entries)) (do
      fillMapping extractValue (.mapping id) .any reader.slot names
      return Value.mapping id) s := by
  rw [fillMapping_eq_forM]
  exact leadsTo_forM hconvert (.mapping entries) hcell hnames (.keys id) fun _ ↦ rfl

/-- Slots are put into the fields of an object in turn. -/
theorem leadsTo_fillFields {reader : SlotReader} {attrs : List (String × Value)}
    {fields : List Field} {begun read : State}
    (hconvert : ∀ place, (reader.convert place).Keeps (CellStays id) world)
    (hstruct : world.types.isStruct (.struct struct) = true)
    (hnames : reader.names.runIn world before = (.ok names, after))
    (hfields : (fieldsAnew (.struct struct)).runIn world begun = (.ok fields, read))
    (hcell : s.heap.get? id = some (.object attrs)) :
    LeadsTo world id (SlotsInto world reader (.object struct id) (.object attrs))
      (filling (.object struct id) fun object ↦
        fillFields extractValue object fields reader.slot names) s := by
  have hread : filling (.object struct id)
      (fun object ↦ fillFields extractValue object fields reader.slot names) =
      ((get : Act State) >>= fun _ ↦ do
        fillFields extractValue (.object struct id) fields reader.slot names
        asEngineValue (.object struct id)) := rfl
  rw [hread, fillFields_eq_forM]
  exact leadsTo_forM hconvert (.object attrs hstruct) hcell hnames (.fields id hfields) fun _ ↦
    runIn_asEngineValue hstruct

end

/-! ### Extractions into a target -/

section

variable {world : World} {id : Nat} {target : Value} {cell : Cell} {type : Hint} {s : State}

/-- Where nothing was visited, the slots of an instance are put into a target in turn. -/
theorem InstanceHandle.leadsTo_extractInstance (hleaves : world.LeavesCell id)
    (hvisited : s.visited = []) (htarget : target.FillableAs world.types id cell type)
    (hcell : s.heap.get? id = some cell) (h : InstanceHandle) :
    LeadsTo world id (SlotsInto world h.reader target cell)
      (extractInstance extractValue h type (some target)) s := by
  have hrefused : ∀ e, SlotsInto world h.reader target cell (.error e) cell := .refused
  have hE := CellStays.extracting hleaves
  have hvisit : ∀ v, (visit h.name type v).Keeps (CellStays id) world := fun v ↦
    Meets.iff_keeps.mp (hE.visit h.name type v)
  refine .after hrefused hcell (keeps_visitedFor h.name type) fun found t hfound hcell ↦ ?_
  rw [runIn_visitedFor_of_unvisited hvisited] at hfound
  cases hfound
  refine .after hrefused hcell (Meets.iff_keeps.mp (h.meets_slotNames hE.toInquiring))
    fun names t hnames hcell ↦ ?_
  refine .reading ?_
  dsimp only
  cases htarget with
  | mapping entries =>
    refine .after hrefused hcell (.pure _) fun mapping u hmapping hcell ↦ ?_
    cases hmapping
    refine .after hrefused hcell (hvisit _) fun _ v _ hcell ↦ ?_
    exact leadsTo_fillMapping (h.inquires.keeps_convert hE) hnames hcell
  | object attrs hstruct =>
    refine .refuse hrefused hcell ?_
    refine .after hrefused hcell (Meets.iff_keeps.mp (hE.fieldsAnew _)) fun fields u hfields hcell ↦
      ?_
    refine .after hrefused hcell (.pure _) fun object v hobject hcell ↦ ?_
    cases hobject
    refine .after hrefused hcell (hvisit _) fun _ w _ hcell ↦ ?_
    exact leadsTo_fillFields (h.inquires.keeps_convert hE) hstruct hnames hfields hcell
  | list items => exact .throw hrefused hcell _

/-- The slots of a fact are put into a target in turn. -/
theorem FactHandle.leadsTo_extractSlots (hleaves : world.LeavesCell id)
    (htarget : target.FillableAs world.types id cell type) (hcell : s.heap.get? id = some cell)
    (h : FactHandle) :
    LeadsTo world id (SlotsInto world h.reader target cell)
      (extractSlots extractValue h type (some target)) s := by
  have hrefused : ∀ e, SlotsInto world h.reader target cell (.error e) cell := .refused
  have hE := CellStays.extracting hleaves
  have hnamed := Meets.iff_keeps.mp (h.meets_slotNames hE.toInquiring)
  refine .after hrefused hcell (.ofExcept _) fun sequence t hsequence hcell ↦ ?_
  cases htarget with
  | mapping entries =>
    cases hsequence
    refine .refuse hrefused hcell <| .after hrefused hcell hnamed fun names u hnames hcell ↦
      .reading ?_
    refine .after hrefused hcell (.pure _) fun mapping v hmapping hcell ↦ ?_
    cases hmapping
    exact leadsTo_fillMapping (h.inquires.keeps_convert hE) hnames hcell
  | object attrs hstruct =>
    cases hsequence
    refine .refuse hrefused hcell <| .after hrefused hcell hnamed fun names u hnames hcell ↦
      .reading ?_
    refine .refuse hrefused hcell ?_
    refine .after hrefused hcell (Meets.iff_keeps.mp (hE.fieldsAnew _)) fun fields v hfields hcell ↦
      ?_
    refine .after hrefused hcell (.pure _) fun object w hobject hcell ↦ ?_
    cases hobject
    exact leadsTo_fillFields (h.inquires.keeps_convert hE) hstruct hnames hfields hcell
  | list items =>
    cases hsequence
    exact .throw hrefused hcell _

/-- The values of an ordered fact are put into a target once all of them are converted. -/
theorem FactHandle.leadsTo_extractOrdered (hleaves : world.LeavesCell id)
    (htarget : target.FillableAs world.types id cell type) (hcell : s.heap.get? id = some cell)
    (h : FactHandle) :
    LeadsTo world id (OrderInto world h target cell)
      (extractOrdered extractValue h type (some target)) s := by
  have hrefused : ∀ e, OrderInto world h target cell (.error e) cell := .refused target cell
  have hread := Meets.iff_keeps.mp (h.meets_values (CellStays.extracting hleaves).toInquiring)
  have hconvert : ∀ values : List EngineValue,
      (values.mapM fun v ↦ extractValue v .any).Keeps (CellStays id) world := fun values ↦
    .mapM values fun v _ ↦ CellStays.keeps_extractValue hleaves v .any
  refine .after hrefused hcell (.ofExcept _) fun sequence t hsequence hcell ↦ ?_
  cases htarget with
  | mapping entries =>
    cases hsequence
    refine .refuse hrefused hcell <| .after hrefused hcell hread fun values u hvalues hcell ↦ ?_
    refine .after hrefused hcell (.pure _) fun mapping v hmapping hcell ↦ ?_
    cases hmapping
    refine .after hrefused hcell (hconvert values) fun items w hitems hcell ↦ ?_
    have hmapping : (Value.mapping id).FillableAs world.types id (.mapping entries) .mapping :=
      .mapping entries
    obtain ⟨z, hstored, hholds⟩ := hmapping.runIn_store hcell world orderedSlot (.list items)
    change (putKey (.mapping id) orderedSlot (.list items)).runIn world w = (.ok ⟨⟩, z) at hstored
    rw [LeadsTo, runIn_bind, hstored]
    exact ⟨_, hholds, .entry hvalues hitems⟩
  | object attrs hstruct =>
    cases hsequence
    exact .throw hrefused hcell _
  | list items =>
    cases hsequence
    refine .refuse hrefused hcell <| .after hrefused hcell hread fun values u hvalues hcell ↦ ?_
    refine .after hrefused hcell (hconvert values) fun items v hitems hcell ↦ ?_
    refine .after hrefused hcell (keeps_holdEach CellStays.keeps_alloc items)
      fun held w hheld hcell ↦ ?_
    have hlt : id < w.heap.cells.size := (Array.getElem?_eq_some_iff.mp hcell).1
    exact ⟨.value (.list held), w.heap.get?_put_self (.value (.list held)) hlt,
      .list hvalues hitems hheld⟩

/-- The slots of a fact are put into a target in turn, or its values in order. -/
theorem FactHandle.leadsTo_extractFact (hleaves : world.LeavesCell id)
    (htarget : target.FillableAs world.types id cell type) (hcell : s.heap.get? id = some cell)
    (h : FactHandle) :
    LeadsTo world id (fun answer after ↦ SlotsInto world h.reader target cell answer after ∨
      OrderInto world h target cell answer after)
        (extractFact extractValue h type (some target)) s := by
  have hordered := Meets.iff_keeps.mp (h.meets_isOrdered (CellStays.extracting hleaves).toInquiring)
  unfold extractFact
  rw [if_neg (by rw [htarget.isDynamic]; nofun), pure_bind]
  refine .after (fun e ↦ .inl (.refused e)) hcell hordered fun ordered t _ hcell ↦ ?_
  cases ordered with
  | true => exact (h.leadsTo_extractOrdered hleaves htarget hcell).mono fun _ _ ↦ .inr
  | false => exact (h.leadsTo_extractSlots hleaves htarget hcell).mono fun _ _ ↦ .inl

variable {source : Value}

/-- What an extraction into a target comes to is what its source is put into the target with, with
nothing visited before. -/
theorem leadsTo_extract {into : Except Error Value → Cell → Prop}
    (htarget : target.FillableAs world.types id cell type) (hcell : s.heap.get? id = some cell)
    (hleads : LeadsTo world id into (match s.heap.content source with
      | .instanceHandle h => extractInstance extractValue h type (some target)
      | .factHandle h => extractFact extractValue h type (some target)
      | .engine v => extractValue v type
      | v => throw (.unsupported (.extractionSource v.typeName))) { s with visited := [] }) :
    LeadsTo world id into (extract source target) s := by
  obtain ⟨after, hafter, hinto⟩ := hleads
  rw [LeadsTo, runIn_extract_of_split (htarget.splitDestination hcell),
    htarget.isDynamic, runIn_freshly]
  exact ⟨after, hafter, hinto⟩

/-- An extraction of an instance into a target puts its slots into the target in turn, up to the
first one that cannot be converted. -/
theorem InstanceHandle.extract_into {h : InstanceHandle} (hleaves : world.LeavesCell id)
    (htarget : target.FillableAs world.types id cell type) (hcell : s.heap.get? id = some cell)
    (hsource : s.heap.content source = .instanceHandle h) :
    LeadsTo world id (SlotsInto world h.reader target cell) (extract source target) s := by
  refine leadsTo_extract htarget hcell ?_
  rw [hsource]
  exact h.leadsTo_extractInstance (s := { s with visited := [] }) hleaves rfl htarget hcell

/-- An extraction of a fact into a target puts its slots into the target in turn, up to the first
one that cannot be converted, or its values in order, once all of them are converted. -/
theorem FactHandle.extract_into {h : FactHandle} (hleaves : world.LeavesCell id)
    (htarget : target.FillableAs world.types id cell type) (hcell : s.heap.get? id = some cell)
    (hsource : s.heap.content source = .factHandle h) :
    LeadsTo world id (fun answer after ↦ SlotsInto world h.reader target cell answer after ∨
      OrderInto world h target cell answer after) (extract source target) s := by
  refine leadsTo_extract htarget hcell ?_
  rw [hsource]
  exact h.leadsTo_extractFact (s := { s with visited := [] }) hleaves htarget hcell

/-- An extraction of an engine value passes a target over: it runs as one for the type of the
target, and the target stays as it was. -/
theorem extract_engine_passing_target {v : EngineValue} (hleaves : world.LeavesCell id)
    (htarget : target.FillableAs world.types id cell type) (hcell : s.heap.get? id = some cell)
    (hsource : s.heap.content source = .engine v) :
    (extract source target).runIn world s = (extract source (.hint type)).runIn world s ∧
      ((extract source target).runIn world s).2.heap.get? id = some cell := by
  have hhint : Value.splitDestination world.types s.heap (.hint type) = .ok (type, none) := rfl
  refine ⟨?_, ?_⟩
  · rw [runIn_extract_of_split (htarget.splitDestination hcell),
      runIn_extract_of_split hhint, hsource]
  · rw [runIn_extract_of_split (htarget.splitDestination hcell), hsource, runIn_freshly]
    exact CellStays.keeps_extractValue hleaves v type { s with visited := [] } cell hcell

/-- An extraction of what an expression evaluates to passes a target over: it runs as one for the
type of the target, and the target stays as it was. -/
theorem Environment.extractFrom_passing_target (hleaves : world.LeavesCell id)
    (htarget : target.FillableAs world.types id cell type) (hcell : s.heap.get? id = some cell)
    (v : Value) :
    (extractFrom v target).runIn world s = (extractFrom v (.hint type)).runIn world s ∧
      ((extractFrom v target).runIn world s).2.heap.get? id = some cell := by
  have hevaluate : (evaluate v).Keeps (CellStays id) world :=
    Meets.iff_keeps.mp (meets_evaluate (CellStays.extracting hleaves).toInquiring v)
  unfold extractFrom
  rw [runIn_bind, runIn_bind]
  cases hrun : (evaluate v).runIn world s with
  | mk found t =>
    have hstays : t.heap.get? id = some cell := hevaluate.of_runIn hrun cell hcell
    cases found with
    | error e => exact ⟨rfl, hstays⟩
    | ok v => exact extract_engine_passing_target hleaves htarget hstays (Heap.content_engine _ v)

end

/-! ### An object that is filled in part -/

/-- A struct type with two fields for numbers. -/
def coupleTypes : TypeTable where
  types := [{ name := "Couple", kind := .described,
              fields := [{ attr := "a", hint := .int .unsized, default := some (.int .unsized 0) },
                { attr := "b", hint := .int .unsized, default := some (.int .unsized 0) }] }]

/-- An instance with a number in its first slot and a text in its second. -/
def coupleStore : Store where
  instances := [("p", "Couple")]
  slots _ := ["a", "b"]
  value _ slot := if slot = "a" then .int 1 else .text "two"

/-- An extraction that fails at the second field of an object has given the first one another
value. -/
theorem target_filled_in_part :
    let world := World.ofDepth coupleTypes {} coupleStore.engine 0
    let object := Value.object "Couple" 0
    let attrs := [("a", Value.int .unsized 0), ("b", Value.int .unsized 0)]
    let s : State := { heap := { cells := #[.object attrs] } }
    let run := (extract (.instanceHandle ⟨"p", 0, 1⟩) object).runIn world s
    Answers world.engine coupleStore #[] ∧
      object.FillableAs world.types 0 (.object attrs) (.struct "Couple") ∧
      run.1.toOption = none ∧ (s.heap.attr? "a" object).bind (·.integer?) = some 0 ∧
      (run.2.heap.attr? "a" object).bind (·.integer?) = some 1 := by
  intro world object attrs s run
  have hobject : object.FillableAs world.types 0 (.object attrs) (.struct "Couple") :=
    .object attrs (by decide)
  have hrun : run = _ := runIn_extract (Heap.content_instanceHandle _ _)
    (hobject.splitDestination rfl)
  have hfilled : run.1.toOption.isNone = true ∧
      (run.2.heap.attr? "a" object).bind (·.integer?) = some 1 := by
    rw [hrun]
    decide +kernel
  exact ⟨coupleStore.answers_engine _, hobject,
    Option.isNone_iff_eq_none.mp hfilled.1, rfl, hfilled.2⟩

/-! ### A list that is passed over -/

/-- An engine that answers everything with two numbers. -/
def pairEngine (_ : Array Event) (_ : Command) : Reply :=
  { outcome := .ok (.list [.int 1, .int 2]) }

/-- What two numbers are extracted to is not the list that they are to be put into, which stays
empty. -/
theorem list_passed_over :
    let world := World.ofDepth {} {} pairEngine 0
    let s : State := { heap := { cells := #[.value (.list [])] } }
    let run := (Environment.extractFrom (.text "(create$ 1 2)") (.held 0)).runIn world s
    (Value.held 0).FillableAs world.types 0 (.value (.list [])) .list ∧
      run.1 = .ok (.list [.int .unsized 1, .int .unsized 2]) ∧
      run.2.heap.get? 0 = some (.value (.list [])) := by
  intro world s run
  let asked : State := { s with history := #[.command (.evaluate (.written "(create$ 1 2)"))] }
  have hleaves : world.LeavesCell 0 := world.leavesCell_of_no_calls (fun _ _ ↦ rfl) 0
  have hlist : (Value.held 0).FillableAs world.types 0 (.value (.list [])) .list := .list []
  have hpassed := Environment.extractFrom_passing_target (s := s) hleaves hlist rfl
    (.text "(create$ 1 2)")
  have hevaluated : (Environment.evaluate (.text "(create$ 1 2)")).runIn world s =
      (.ok (.multifield [.integer 1 (by decide), .integer 2 (by decide)]), asked) := by
    unfold Environment.evaluate Environment.expression Environment.sent
    simp only [runIn_bind, runIn_get, Heap.content_text]
    rfl
  refine ⟨hlist, ?_, hpassed.2⟩
  have hrun : run =
      (Environment.extractFrom (.text "(create$ 1 2)") (.hint .list)).runIn world s := hpassed.1
  rw [hrun, Environment.extractFrom, runIn_bind_of_ok hevaluated, runIn_extract_of_split rfl,
    Heap.content_engine]
  rfl

end RuleMarshal
