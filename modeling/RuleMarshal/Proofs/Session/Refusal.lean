import RuleMarshal.Proofs.Environment.Exchange
import RuleMarshal.Proofs.Session.Currency
/-!
What is refused on handles that refer to nothing. Every operation of a handle first checks the
handle, so it ends as the check does when the check fails (`Handle.check_beginsWith_operation`). The
check of a handle that is not current fails at once (`Handle.runIn_check_of_notCurrent`), and that
of a current one after the engine has denied that its construct exists, with nothing sent but what
was asked for that (`Handle.runIn_check_of_denied`).
-/

set_option autoImplicit false
set_option relaxedAutoImplicit false

namespace RuleMarshal

open Act

/-! ### Failing first -/

namespace Act

variable {α β : Type} {world : World} {s t : State} {e : Error}

theorem error_of_bind {act : Act α} {next : α → Act β}
    (hact : act.runIn world s = (.error e, t)) : (act >>= next).runIn world s = (.error e, t) := by
  rw [runIn_bind, hact]

/-- A computation begins with another one if it fails wherever that fails, with the same error and
state. -/
def BeginsWith (first : Act β) (world : World) (act : Act α) : Prop :=
  ∀ s e t, first.runIn world s = (.error e, t) → act.runIn world s = (.error e, t)

theorem BeginsWith.self (first : Act β) (world : World) : first.BeginsWith world first :=
  fun _ _ _ hrun ↦ hrun

theorem BeginsWith.bind {γ : Type} {first : Act β} {act : Act α} {next : α → Act γ}
    (hact : first.BeginsWith world act) : first.BeginsWith world (act >>= next) :=
  fun s e t hrun ↦ error_of_bind (hact s e t hrun)

end Act

/-! ### Answers to questions -/

section

variable {world : World} {s t : State} {e : Expression}

/-- The engine answers a question with something that does not count as true, and no failure of a
host function is left parked. -/
def AnswersNo (world : World) (e : Expression) (s t : State) : Prop :=
  ∃ v, (Channel.evaluate e).runIn world s = (.ok v, t) ∧ v.isTrue = false ∧ t.parked = none

/-- The engine names no slots: it answers with falsehood or refuses the question, and no failure of
a host function is left parked. -/
def NamesNone (world : World) (e : Expression) (s t : State) : Prop :=
  ((∃ v, (Channel.evaluate e).runIn world s = (.ok v, t) ∧ v.isFalse = true) ∨
    ∃ refusal, (Channel.evaluate e).runIn world s = (.error refusal, t) ∧
      refusal.isConstruction = true) ∧ t.parked = none

theorem AnswersNo.runIn_evalTrue (hno : AnswersNo world e s t) :
    (evalTrue e).runIn world s = (.ok false, t) := by
  obtain ⟨v, hrun, hv, hparked⟩ := hno
  unfold evalTrue eval
  rw [runIn_bind, runIn_checked_of_unparked hrun nofun hparked]
  dsimp only
  rw [hv, runIn_pure]

/-- What is asked about only while something is current. -/
theorem AnswersNo.runIn_asked {isCurrent : State → Bool} (hno : AnswersNo world e s t)
    (hcurrent : isCurrent s = true) :
    Act.runIn (do if isCurrent (← get) then evalTrue e else return false : Act Bool) world s =
      (.ok false, t) := by
  rw [runIn_bind, runIn_get]
  dsimp only
  rw [if_pos hcurrent, hno.runIn_evalTrue]

end

/-! ### Handles -/

namespace Handle

/-- A handle as a value of the host program. -/
def toValue : Handle → Value
  | .inst h => .instanceHandle h
  | .fact h => .factHandle h
  | .template h => .templateHandle h
  | .defclass h => .classHandle h

/-- Refuses to go on with what does not exist. -/
def check : Handle → Act Unit
  | .inst h => h.check
  | .fact h => h.check
  | .template h => h.check
  | .defclass h => h.check

/-- What the check of a handle says when there is nothing that the handle refers to. -/
def gone : Handle → Stale
  | .inst h => .instanceGone h.name
  | .fact h => .factGone h.index
  | .template h => .templateGone h.name
  | .defclass h => .classGone h.name

/-- The operations of a handle that ask the engine about its construct or give orders on it. What
extracts is apart, since it takes a destination. -/
def operations : Handle → List Method
  | .inst _ =>
    [.instanceClass, .slotNames, .slot, .slots, .setSlot, .send, .delete, .unmake]
  | .fact _ => [.template, .implied, .slotNames, .slot, .values, .slots, .retract, .modify]
  | .template _ => [.implied, .slots, .facts, .newFact, .undefine]
  | .defclass _ =>
    [.abstract, .reactive, .superclasses, .subclasses, .slots, .instances, .newInstance, .undefine]

/-- The destination of an extraction that is asked for on a handle. -/
def destination (b : Bound) : Handle → Value
  | .inst _ => (b.get? 0).getD (.hint .mapping)
  | _ => (b.get? 0).getD (.hint .any)

/-- The engine denies that what a handle refers to exists. Of a template it is asked twice, since it
does not list those that ordered facts bring with them. -/
def Denied (world : World) (s t : State) : Handle → Prop
  | .inst h => AnswersNo world (.instanceExists h.name) s t
  | .fact h => AnswersNo world (.factExists h.index) s t
  | .template h => ∃ u, AnswersNo world (.isListedTemplate h.name) s u ∧
      NamesNone world (.templateSlots h.name) u t
  | .defclass h => AnswersNo world (.classQuery .isDefined h.name) s t

variable {world : World} {s t : State} {h : Handle} {e : Error}

/-- A handle that is not current fails its check without a word to the engine. -/
theorem runIn_check_of_notCurrent (hstale : h.isCurrent s = false) :
    h.check.runIn world s = (.error (.stale h.gone), s) := by
  cases h with
  | inst h =>
    change h.isCurrent s = false at hstale
    simp [check, gone, InstanceHandle.check, InstanceHandle.isAlive, runIn_bind, hstale]
  | fact h =>
    change h.isCurrent s = false at hstale
    simp [check, gone, FactHandle.check, FactHandle.isAlive, runIn_bind, hstale]
  | template h =>
    change h.isCurrent s = false at hstale
    simp [check, gone, TemplateHandle.check, TemplateHandle.isAlive, runIn_bind, hstale]
  | defclass h =>
    change h.isCurrent s = false at hstale
    simp [check, gone, ClassHandle.check, ClassHandle.isAlive, runIn_bind, hstale]

end Handle

/-- A template that the engine neither lists nor knows slots of is not there. -/
theorem TemplateHandle.runIn_isAlive_of_denied {world : World} {s t u : State} {h : TemplateHandle}
    (hcurrent : h.isCurrent s = true) (hlisted : AnswersNo world (.isListedTemplate h.name) s u)
    (hslots : NamesNone world (.templateSlots h.name) u t) :
    h.isAlive.runIn world s = (.ok false, t) := by
  unfold isAlive
  rw [runIn_bind, runIn_get]
  dsimp only
  rw [hcurrent, if_neg (by decide), runIn_bind, hlisted.runIn_evalTrue]
  dsimp only
  rw [if_neg (by decide), runIn_tryCatch, runIn_bind]
  obtain ⟨⟨v, hrun, hv⟩ | ⟨refusal, hrun, hrefusal⟩, hparked⟩ := hslots
  · unfold eval
    rw [runIn_checked_of_unparked hrun nofun hparked]
    dsimp only
    rw [hv, runIn_pure]
    rfl
  · unfold eval
    rw [runIn_checked_of_unparked hrun (fun _ he ↦ Except.error.inj he ▸ hrefusal) hparked]
    dsimp only
    rw [if_pos hrefusal, runIn_pure]

namespace Handle

variable {world : World} {s t : State} {h : Handle} {e : Error}

/-- A current handle on what does not exist fails its check, and nothing was sent but what the
engine was asked for that. -/
theorem runIn_check_of_denied (hcurrent : h.isCurrent s = true) (hdenied : h.Denied world s t) :
    h.check.runIn world s = (.error (.stale h.gone), t) := by
  have hrefuse : ∀ (isAlive : Act Bool) (refusal : Error),
      isAlive.runIn world s = (.ok false, t) →
      Act.runIn (do if !(← isAlive) then throw refusal : Act Unit) world s =
        (.error refusal, t) := by
    intro isAlive refusal halive
    rw [runIn_bind, halive]
    rfl
  cases h with
  | inst h => exact hrefuse h.isAlive _ (hdenied.runIn_asked hcurrent)
  | fact h => exact hrefuse h.isAlive _ (hdenied.runIn_asked hcurrent)
  | template h =>
    obtain ⟨u, hlisted, hslots⟩ := hdenied
    exact hrefuse h.isAlive _ (h.runIn_isAlive_of_denied hcurrent hlisted hslots)
  | defclass h => exact hrefuse h.isAlive _ (hdenied.runIn_asked hcurrent)

/-! ### Operations begin with the check -/

/-- Every operation of a handle begins with its check. -/
theorem check_beginsWith_operation {method : Method} (hmethod : method ∈ h.operations) (b : Bound) :
    h.check.BeginsWith world (callReceiver h.toValue method b) := by
  cases h with
  | inst h =>
    have hself := BeginsWith.self h.check world
    have hnames : h.check.BeginsWith world h.slotNames := hself.bind
    have hslots : h.check.BeginsWith world h.slots := hnames.bind
    simp only [operations, List.mem_cons, List.not_mem_nil, or_false] at hmethod
    rcases hmethod with rfl | rfl | rfl | rfl | rfl | rfl | rfl | rfl
    · exact hself.bind.bind
    · exact hnames.bind
    · exact hself.bind.bind
    · exact hslots.bind
    · exact hself.bind.bind
    · exact hself.bind.bind
    · exact hself.bind.bind
    · exact hself.bind.bind
  | fact h =>
    have hself := BeginsWith.self h.check world
    have hnames : h.check.BeginsWith world h.slotNames := hself.bind
    have hordered : h.check.BeginsWith world h.isOrdered := hnames.bind
    have hvalues : h.check.BeginsWith world h.values := hordered.bind
    have hslots : h.check.BeginsWith world h.slots := hnames.bind
    simp only [operations, List.mem_cons, List.not_mem_nil, or_false] at hmethod
    rcases hmethod with rfl | rfl | rfl | rfl | rfl | rfl | rfl | rfl
    · exact hself.bind.bind
    · exact hordered.bind
    · exact hnames.bind
    · exact hself.bind.bind
    · exact hvalues.bind
    · exact hslots.bind
    · exact hself.bind.bind
    · exact hself.bind.bind
  | template h =>
    have hself := BeginsWith.self h.check world
    have hordered : h.check.BeginsWith world h.isOrdered := hself.bind
    have hslots : h.check.BeginsWith world h.slots := hordered.bind
    simp only [operations, List.mem_cons, List.not_mem_nil, or_false] at hmethod
    rcases hmethod with rfl | rfl | rfl | rfl | rfl
    · exact hordered.bind
    · exact hslots.bind
    · exact hself.bind.bind
    · exact hself.bind.bind
    · exact hself.bind.bind
  | defclass h =>
    have hself := BeginsWith.self h.check world
    simp only [operations, List.mem_cons, List.not_mem_nil, or_false] at hmethod
    rcases hmethod with rfl | rfl | rfl | rfl | rfl | rfl | rfl | rfl <;> exact hself.bind.bind

end Handle

/-! ### Extractions -/

section

variable {world : World} {s t : State} {e : Error} {into : Value} {dest : Hint}
variable {target : Option Value}

theorem runIn_freshly {α : Type} (act : Act α) :
    (freshly act).runIn world s =
      ((act.runIn world { s with visited := [] }).1,
        { (act.runIn world { s with visited := [] }).2 with visited := s.visited }) := rfl

theorem runIn_visitedFor_of_unvisited {name : String} (hvisited : s.visited = []) :
    (visitedFor name dest).runIn world s = (.ok none, s) := by
  unfold visitedFor
  rw [runIn_bind, runIn_get]
  dsimp only
  rw [hvisited, runIn_pure]
  cases dest.destination? <;> rfl

/-- Where nothing was visited, the extraction of an instance begins with the check of its handle. -/
theorem InstanceHandle.error_of_extractInstance {h : InstanceHandle}
    {extract : EngineValue → Hint → Act Value} (hvisited : s.visited = [])
    (hcheck : h.check.runIn world s = (.error e, t)) :
    (extractInstance extract h dest target).runIn world s = (.error e, t) := by
  unfold extractInstance
  rw [runIn_bind, runIn_visitedFor_of_unvisited hvisited]
  dsimp only
  exact ((BeginsWith.self h.check world).bind).bind s e t hcheck

theorem FactHandle.check_beginsWith_extractFact (h : FactHandle)
    (extract : EngineValue → Hint → Act Value) :
    h.check.BeginsWith world (extractFact extract h dest target) := by
  have hordered : h.check.BeginsWith world h.isOrdered := (BeginsWith.self h.check world).bind.bind
  unfold extractFact
  by_cases hdynamic : dest.isDynamic
  · rw [if_pos hdynamic]
    exact hordered.bind
  · rw [if_neg hdynamic, pure_bind]
    exact hordered.bind

/-- An extraction into a destination that can be split runs as that of its source, with nothing
visited before. -/
theorem runIn_extract_of_split {source : Value}
    (hinto : into.splitDestination world.types s.heap = .ok (dest, target)) :
    (extract source into).runIn world s = Act.runIn (freshly (match s.heap.content source with
      | .instanceHandle h =>
        extractInstance extractValue h (if dest.isDynamic then .mapping else dest) target
      | .factHandle h => extractFact extractValue h dest target
      | .engine v => extractValue v dest
      | v => throw (.unsupported (.extractionSource v.typeName)))) world s := by
  have hread : (extract source into).runIn world s = Act.runIn
      (MonadExcept.ofExcept (into.splitDestination world.types s.heap) >>= fun found ↦
        freshly (match s.heap.content source with
          | .instanceHandle h =>
            extractInstance extractValue h (if found.1.isDynamic then .mapping else found.1) found.2
          | .factHandle h => extractFact extractValue h found.1 found.2
          | .engine v => extractValue v found.1
          | v => throw (.unsupported (.extractionSource v.typeName)))) world s := rfl
  rw [hread, hinto]
  rfl

/-- An extraction on a handle ends as the check of the handle does with nothing visited before. -/
theorem Handle.runIn_extract_of_check {h : Handle} {b : Bound} (hdata : h.construct? = none)
    (hinto : (h.destination b).splitDestination world.types s.heap = .ok (dest, target))
    (hcheck : h.check.runIn world { s with visited := [] } = (.error e, t)) :
    (callReceiver h.toValue .extract b).runIn world s =
      (.error e, { t with visited := s.visited }) := by
  cases h with
  | inst h =>
    refine (runIn_extract_of_split hinto).trans ?_
    rw [Heap.content_instanceHandle, runIn_freshly]
    dsimp only
    rw [h.error_of_extractInstance rfl hcheck]
  | fact h =>
    refine (runIn_extract_of_split hinto).trans ?_
    rw [Heap.content_factHandle, runIn_freshly]
    dsimp only
    rw [h.check_beginsWith_extractFact extractValue _ _ _ hcheck]
  | template h => cases hdata
  | defclass h => cases hdata

/-! ### Pending facts -/

theorem Builder.runIn_read {id : Nat} {b : Builder} (hb : s.heap.builder? id = some b) :
    (read id).runIn world s = (.ok b, s) := by
  unfold read
  rw [runIn_bind, runIn_get]
  dsimp only
  rw [hb]
  rfl

/-- A pending fact that was published before is not published again. -/
theorem Builder.error_of_assertFact_of_asserted {id : Nat} {b : Builder}
    (hb : s.heap.builder? id = some b) (hasserted : b.asserted.isSome) :
    (assertFact id).runIn world s = (.error (.stale .asserted), s) := by
  unfold assertFact
  rw [runIn_bind, Builder.runIn_read hb]
  dsimp only
  rw [if_pos hasserted]
  rfl

/-- The publishing of a pending fact begins with the check of its template. -/
theorem Builder.error_of_assertFact {id : Nat} {b : Builder} (hb : s.heap.builder? id = some b)
    (hpending : b.asserted = none) (hcheck : b.template.check.runIn world s = (.error e, t)) :
    (assertFact id).runIn world s = (.error e, t) := by
  unfold assertFact
  rw [runIn_bind, Builder.runIn_read hb]
  dsimp only
  rw [hpending, if_neg (by decide)]
  exact error_of_bind hcheck

end

/-! ### Refusals -/

/-- Handles that refer to nothing never reach the engine. What is asked of a handle that is not
current, or ordered of it, is refused and changes nothing at all; so it is with extractions into
what can be a destination, and with the publishing of pending facts of a template. On a current
handle all this is refused once the engine has denied that the construct exists, and nothing was
sent but what was asked for that. -/
theorem stale_refused (world : World) (s : State) (h : Handle) (b : Bound) :
    (h.isCurrent s = false →
      (∀ method ∈ h.operations,
        (callReceiver h.toValue method b).runIn world s = (.error (.stale h.gone), s)) ∧
      (∀ split, h.construct? = none →
        (h.destination b).splitDestination world.types s.heap = .ok split →
          (callReceiver h.toValue .extract b).runIn world s = (.error (.stale h.gone), s)) ∧
      (∀ id pending, s.heap.builder? id = some pending → .template pending.template = h →
        ∃ cause, (callReceiver (.builder id) .assertFact b).runIn world s =
          (.error (.stale cause), s))) ∧
    (h.isCurrent s = true → ∀ t,
      (h.Denied world s t → ∀ method ∈ h.operations,
        (callReceiver h.toValue method b).runIn world s = (.error (.stale h.gone), t)) ∧
      (h.Denied world { s with visited := [] } t → ∀ split, h.construct? = none →
        (h.destination b).splitDestination world.types s.heap = .ok split →
          (callReceiver h.toValue .extract b).runIn world s =
            (.error (.stale h.gone), { t with visited := s.visited })) ∧
      (h.Denied world s t → ∀ id pending, s.heap.builder? id = some pending →
        .template pending.template = h → pending.asserted = none →
          (callReceiver (.builder id) .assertFact b).runIn world s =
            (.error (.stale h.gone), t))) := by
  refine ⟨fun hstale ↦ ⟨fun method hmethod ↦ ?_, fun split hdata hinto ↦ ?_, ?_⟩,
    fun hcurrent t ↦ ⟨fun hdenied method hmethod ↦ ?_, fun hdenied split hdata hinto ↦ ?_, ?_⟩⟩
  · exact h.check_beginsWith_operation hmethod b s _ s (h.runIn_check_of_notCurrent hstale)
  · have hfresh : h.isCurrent { s with visited := [] } = false := by
      cases h <;> exact hstale
    have hcheck : h.check.runIn world { s with visited := [] } = _ :=
      h.runIn_check_of_notCurrent hfresh
    exact (Handle.runIn_extract_of_check hdata hinto hcheck).trans rfl
  · rintro id pending hpending rfl
    have hcheck : pending.template.check.runIn world s = _ :=
      Handle.runIn_check_of_notCurrent hstale
    by_cases hasserted : pending.asserted.isSome
    · exact ⟨_, error_of_bind (Builder.error_of_assertFact_of_asserted hpending hasserted)⟩
    · have hnone : pending.asserted = none := by simpa using hasserted
      exact ⟨_, error_of_bind (Builder.error_of_assertFact hpending hnone hcheck)⟩
  · exact h.check_beginsWith_operation hmethod b s _ t (h.runIn_check_of_denied hcurrent hdenied)
  · have hfresh : h.isCurrent { s with visited := [] } = true := by
      cases h <;> exact hcurrent
    exact Handle.runIn_extract_of_check hdata hinto (h.runIn_check_of_denied hfresh hdenied)
  · rintro hdenied id pending hpending rfl hnone
    exact error_of_bind (Builder.error_of_assertFact hpending hnone
      (Handle.runIn_check_of_denied hcurrent hdenied))

/-- A handle from an epoch that has ended is refused as it is, and one on an instance that the
engine does not know once the engine was asked. -/
theorem stale_refused_either_way :
    let world := World.ofDepth {} {} (fun _ _ ↦ { outcome := .ok (.symbol "FALSE") }) 1
    let h : Handle := .inst ⟨"x", 0, 1⟩
    (callReceiver h.toValue .slotNames {}).runIn world { dataEpoch := 1 } =
        (.error (.stale h.gone), { dataEpoch := 1 }) ∧
      (callReceiver h.toValue .slotNames {}).runIn world {} =
        (.error (.stale h.gone), { history := #[.command (.evaluate (.instanceExists "x"))] }) := by
  intro world h
  have hmethod : Method.slotNames ∈ h.operations := by decide
  have hdenied : h.Denied world {} { history := #[.command (.evaluate (.instanceExists "x"))] } :=
    ⟨.symbol "FALSE", rfl, rfl, rfl⟩
  exact ⟨((stale_refused world { dataEpoch := 1 } h {}).1 rfl).1 _ hmethod,
    ((stale_refused world {} h {}).2 rfl _).1 hdenied _ hmethod⟩

/-! ### Failures inside a question -/

/-- A function that raises. -/
def raisingFunction : FunctionLiteral :=
  .mk (some "boom") [] none true (.mk (some (.value, "boom")) [] false (.value .none))

/-- The registration of a function that raises. -/
def raisingRegistration : Registration where
  signature :=
    { text := .plain "boom", params := [], required := 0, variadic := none, returns := .any
      errorTerminal := false }
  function := .function raisingFunction
  listedAs := .plain "boom"

/-- An engine that knows no instance and calls a function while it is asked for one. -/
def callingEngine (_ : Array Event) (_ : Command) : Reply :=
  { calls := [⟨"boom", []⟩], outcome := .ok (.symbol "FALSE") }

/-- A handle that is current and that the engine denies is not refused as stale if a function fails
while the engine is asked: the failure is raised in the place of the answer. -/
theorem denied_not_refused_of_failing :
    let world := World.ofDepth {} {} callingEngine 1
    let s : State := { bound := [("boom", raisingRegistration)] }
    let h : Handle := .inst ⟨"x", 0, 1⟩
    h.isCurrent s = true ∧
      (∃ v t, (Channel.evaluate (.instanceExists "x")).runIn world s = (.ok v, t) ∧
        v.isTrue = false) ∧
      ∀ cause, ((callReceiver h.toValue .slotNames {}).runIn world s).1 ≠
        .error (.stale cause) := by
  intro world s h
  refine ⟨rfl, ⟨.symbol "FALSE", _, rfl, rfl⟩, fun cause hcause ↦ ?_⟩
  cases hcause

end RuleMarshal
