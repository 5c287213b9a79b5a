import RuleMarshal.Proofs.Environment.Sending
import RuleMarshal.Proofs.Extraction.Aside
import RuleMarshal.Proofs.Handle.Editing
import RuleMarshal.Proofs.Session.Dispatch
/-!
The publishing of a pending fact. As long as no function that the engine calls meanwhile touches the
builder (`World.LeavesCellMeanwhile`), a call on it leaves what its edits make of it, or publishes
it, or leaves it as it was (`Builder.Call.builder?_left`), so that what it holds after some calls in
a row is what these calls came to, one after the other (`Builder.Course.builder?_start`). At most
one of them publishes it: its text is what was sent, the fact is what the engine answered, and from
then on every edit and every further publishing is refused (`Builder.published_once`).
-/

set_option autoImplicit false
set_option relaxedAutoImplicit false

namespace RuleMarshal

open Act

/-! ### What a call leads to -/

/-- What may be sent is of no account to where it leads. -/
theorem Proceeds.frame (world : World) : Frame world (fun _ ↦ True) (Proceeds world) where
  unguarded _ _ := trivial
  serial s n := .aside s n s.parked
  parked s found := .aside s s.serial found
  schemaOf := Sends.keeps_schemaOf
  exchange c _ s hopen := .send s c hopen trivial

/-- From a state on to a history, the functions that the engine calls in reply to what is sent leave
what stands in a cell. What they would do in reply to other commands is of no account. -/
def World.LeavesCellMeanwhile (world : World) (id : Nat) (start : State) (limit : Array Event) :
    Prop :=
  ∀ s c, Proceeds world start s → (s.history.push (.command c)).toList <+: limit.toList →
    CellStays id s ((Channel.exchange c).runIn world s).2

/-- An engine that calls no functions leaves every cell meanwhile. -/
theorem World.leavesCellMeanwhile_of_no_calls {world : World}
    (hcalls : ∀ history c, (world.engine history c).calls = []) (id : Nat) (start : State)
    (limit : Array Event) :
    world.LeavesCellMeanwhile id start limit := by
  intro s c _ _
  rw [Channel.runIn_exchange, hcalls]
  exact .of_heap_eq rfl

section

variable {world : World} {id : Nat} {start s t : State} {limit : Array Event}

/-- What stands in a cell stays there on the way to the history, if the functions that are called
leave it. -/
theorem Proceeds.cellStays (hworld : world.Orderly)
    (hleaves : world.LeavesCellMeanwhile id start limit) (hs : Proceeds world start s)
    (hst : Proceeds world s t) (hlimit : t.history.toList <+: limit.toList) :
    CellStays id s t := by
  induction hst with
  | trans hst htu hfirst hlater =>
    have hearlier := hfirst hs ((htu.history_grows hworld).trans hlimit)
    exact trans_of (CellStays id) hearlier (hlater (hs.trans hst) hlimit)
  | send s c hopen hc =>
    exact hleaves s c hs ((Channel.history_of_exchange hworld c s).trans hlimit)
  | _ => exact .of_heap_eq rfl

theorem CellStays.builder? {b : Builder} (hst : CellStays id s t)
    (hb : s.heap.builder? id = some b) :
    t.heap.builder? id = some b :=
  Heap.builder?_eq_some_iff.mpr (hst _ (Heap.builder?_eq_some_iff.mp hb))

/-- Who only asks sends no guarded command, and neither does a function that is called. -/
theorem Evolves.guarded_eq {σ : Setup} (hst : Evolves σ .asking s t) : t.guarded = s.guarded := by
  generalize hm : Manner.asking = m at hst
  induction hst with
  | trans _ _ hs ht => exact (ht hm).trans (hs hm)
  | note m s e hevent => exact State.guarded_push (Event.guarded?_of_not_isCommand hevent)
  | call m hrun => exact (hrun.restrained (Nat.succ_pos _)).guarded
  | send m s c hopen hguard =>
    have hfree : c.isGuarded = false := Bool.eq_false_iff.mpr fun hguarded ↦
      (hguard hguarded).1 hm.symm
    exact State.guarded_push (e := .command c) (by simp [Event.guarded?, hfree])
  | _ => rfl

/-- Of an exchange the command alone is guarded, if it is. -/
theorem Channel.guarded_exchange (hworld : world.Orderly) {c : Command} (hc : c.isGuarded = true)
    (s : State) :
    ((exchange c).runIn world s).2.guarded = s.guarded ++ [c] := by
  rw [(evolves_served hworld c s).guarded_eq]
  simp [State.guarded, List.filterMap_append, Event.guarded?, hc]

/-! ### Publishing -/

theorem Act.keeps_assertCommand (e : Expression) :
    (assertCommand e).Keeps (Proceeds world) world := by
  refine (keeps_guardMutation _).bind fun _ ↦ ((Proceeds.frame world).eval trivial).bind fun v ↦ ?_
  unfold factIn
  split
  · exact .pure _
  · exact .throw _

/-- The fact of an order to assert one is what the engine answered to it, and no other guarded
command was sent. -/
theorem ok_of_assertCommand (hworld : world.Orderly) {e : Expression} (he : e.isGuarded = true)
    {fact : FactHandle} (hrun : (assertCommand e).runIn world s = (.ok fact, t)) :
    t.guarded = s.guarded ++ [.evaluate e] ∧ Answered world s t e (.factAddress fact) := by
  obtain ⟨-, -, hrun⟩ := ok_of_guardMutation hrun
  obtain ⟨v, u, heval, hfact⟩ := ok_of_bind hrun
  obtain ⟨rfl, rfl⟩ : v = .factAddress fact ∧ u = t := by
    cases v with
    | factAddress h =>
      cases hfact
      exact ⟨rfl, rfl⟩
    | _ => cases hfact
  constructor
  · obtain ⟨found, w, x, hexchange, hvalue, rfl⟩ := ok_of_eval heval
    have hsent := Channel.guarded_exchange hworld (c := .evaluate e) he s
    rw [hexchange] at hsent
    have hread : Evolves world.setup .asking w x :=
      (found.keeps_toEngine Evolves.serial).of_runIn hvalue
    exact hread.guarded_eq.trans hsent
  · obtain ⟨w, hevaluate, rfl⟩ := ok_of_checked heval
    exact (answered_of_evaluate hevaluate).extend (.refl s) (.aside w w.serial none)

namespace Builder

theorem runIn_read_eq (id : Nat) : (read id).runIn world s =
    (match s.heap.builder? id with
      | some b => .ok b
      | none => .error (.host (.typing "not a pending fact")), s) := by
  unfold read
  rw [runIn_bind, runIn_get]
  dsimp only
  cases s.heap.builder? id <;> rfl

/-- What publishes a builder once its template was checked. -/
def publish (id : Nat) : Act FactHandle := do
  let fact ← assertCommand (← MonadExcept.ofExcept (← read id).expression)
  let b ← read id
  write id { b with asserted := some fact }
  return fact

/-- Publishing gives an order to assert what the builder holds and notes the fact, or fails before
it changes the builder. -/
theorem cases_of_publish {answer : Except Error FactHandle}
    (hrun : (publish id).runIn world s = (answer, t)) :
    ∃ u, Proceeds world s u ∧
      ((∃ raised, answer = .error raised ∧ t = u) ∨
        ∃ b c e fact, s.heap.builder? id = some b ∧ b.expression = .ok e ∧
          (assertCommand e).runIn world s = (.ok fact, u) ∧ u.heap.builder? id = some c ∧
          answer = .ok fact ∧ t = u.withBuilder id { c with asserted := some fact }) := by
  unfold publish at hrun
  rw [runIn_bind, runIn_read_eq] at hrun
  cases hb : s.heap.builder? id with
  | none =>
    rw [hb] at hrun
    cases hrun
    exact ⟨s, .refl s, .inl ⟨_, rfl, rfl⟩⟩
  | some b =>
    rw [hb] at hrun
    dsimp only at hrun
    rw [runIn_bind, runIn_ofExcept] at hrun
    cases he : b.expression with
    | error raised =>
      rw [he] at hrun
      cases hrun
      exact ⟨s, .refl s, .inl ⟨raised, rfl, rfl⟩⟩
    | ok e =>
      rw [he] at hrun
      dsimp only at hrun
      rw [runIn_bind] at hrun
      cases hassert : (assertCommand e).runIn world s with
      | mk found u =>
        have hsu : Proceeds world s u := (keeps_assertCommand e).of_runIn hassert
        rw [hassert] at hrun
        cases found with
        | error raised =>
          cases hrun
          exact ⟨_, hsu, .inl ⟨raised, rfl, rfl⟩⟩
        | ok fact =>
          dsimp only at hrun
          rw [runIn_bind, runIn_read_eq] at hrun
          cases hc : u.heap.builder? id with
          | none =>
            rw [hc] at hrun
            cases hrun
            exact ⟨_, hsu, .inl ⟨_, rfl, rfl⟩⟩
          | some c =>
            rw [hc] at hrun
            cases hrun
            exact ⟨u, hsu, .inr ⟨b, c, e, fact, rfl, he, hassert, hc, rfl, rfl⟩⟩

/-! ### What is published -/

section

variable {b : Builder}

/-- A content of a fact is what a builder holds: its values, or its slots, in their order and each
as its text. -/
inductive Holds (b : Builder) : FactContent → Prop
  | ordered {terms : List Term} (hordered : b.ordered = true)
      (hterms : List.Forall₂ (fun v t ↦ v.term = .ok t) b.values terms) : Holds b (.ordered terms)
  | slots {named : List (String × Term)} (hordered : b.ordered = false)
      (hnamed : List.Forall₂ (fun p q ↦ q.1 = p.1 ∧ p.2.term = .ok q.2) b.slots named) :
        Holds b (.slots named)

theorem holds_of_content {content : FactContent} (hcontent : b.content = .ok content) :
    b.Holds content := by
  unfold Builder.content at hcontent
  cases hordered : b.ordered with
  | true =>
    rw [if_pos hordered] at hcontent
    obtain ⟨terms, rfl, hterms⟩ := Except.return_mapM_eq_ok_iff.mp hcontent
    exact .ordered hordered hterms
  | false =>
    rw [if_neg (by simp [hordered])] at hcontent
    obtain ⟨named, rfl, hnamed⟩ := Except.return_mapM_eq_ok_iff.mp hcontent
    refine .slots hordered (hnamed.imp fun p q hpq ↦ ?_)
    obtain ⟨t, ht, hreturn⟩ := Except.ok_of_bind hpq
    cases hreturn
    exact ⟨rfl, ht⟩

theorem holds_of_expression {e : Expression} (he : b.expression = .ok e) :
    ∃ content, b.Holds content ∧ e = .assertFact b.template.name content := by
  obtain ⟨content, hcontent, hreturn⟩ := Except.ok_of_bind he
  cases hreturn
  exact ⟨content, holds_of_content hcontent, rfl⟩

theorem runIn_render (hb : s.heap.builder? id = some b) :
    (render id).runIn world s = (b.expression.map Expression.text, s) := by
  unfold render
  rw [runIn_bind, runIn_read hb]
  dsimp only
  rw [runIn_bind, runIn_ofExcept]
  cases b.expression <;> rfl

/-- What it is to publish a builder that was pending as a fact: an order to assert what it holds is
the one guarded command that is sent, with the text that the builder is rendered as, the fact is
what the engine answered to it, and the builder is the same but for the fact that is noted in it. -/
structure Publishes (world : World) (id : Nat) (s t : State) (b : Builder) (e : Expression)
    (fact : FactHandle) : Prop where
  pending : b.asserted = none
  holds : ∃ content, b.Holds content ∧ e = .assertFact b.template.name content
  rendered : (render id).runIn world s = (.ok e.text, s)
  sent : t.guarded = s.guarded ++ [.evaluate e]
  answered : ∃ u, Answered world s u e (.factAddress fact) ∧
    t = u.withBuilder id { b with asserted := some fact }
  left : t.heap.builder? id = some { b with asserted := some fact }

theorem assertFact_eq (id : Nat) :
    assertFact id = (do
      let b ← read id
      if b.asserted.isSome then throw (.stale .asserted)
      b.template.check
      publish id) := rfl

/-- Where no function that is called meanwhile touches the builder, a builder that is to be
published is published, or is left as it was. -/
theorem cases_of_assertFact (hworld : world.Orderly) (hb : s.heap.builder? id = some b)
    {answer : Except Error FactHandle} (hrun : (assertFact id).runIn world s = (answer, t))
    (hleaves : world.LeavesCellMeanwhile id s t.history) :
    (∃ raised, answer = .error raised ∧ t.heap.builder? id = some b) ∨
      ∃ e fact, answer = .ok fact ∧ Publishes world id s t b e fact := by
  have hstays {u : State} (hsu : Proceeds world s u)
      (hlimit : u.history.toList <+: t.history.toList) :
      u.heap.builder? id = some b :=
    (Proceeds.cellStays hworld hleaves (.refl s) hsu hlimit).builder? hb
  cases hasserted : b.asserted with
  | some fact =>
    rw [error_of_assertFact_of_asserted hb (by simp [hasserted])] at hrun
    cases hrun
    exact .inl ⟨_, rfl, hb⟩
  | none =>
    rw [assertFact_eq, runIn_bind, runIn_read hb] at hrun
    dsimp only at hrun
    rw [if_neg (by simp [hasserted]), runIn_bind] at hrun
    cases hcheck : b.template.check.runIn world s with
    | mk found u =>
      have hsu : Proceeds world s u :=
        (Meets.iff_keeps.mp (b.template.meets_check (Proceeds.frame world).inquiring)).of_runIn
          hcheck
      rw [hcheck] at hrun
      cases found with
      | error raised =>
        cases hrun
        exact .inl ⟨raised, rfl, hstays hsu List.prefix_rfl⟩
      | ok _ =>
        dsimp only at hrun
        obtain ⟨v, huv, ⟨raised, rfl, rfl⟩ | ⟨held, later, e, fact, hheld, he, hassert,
            hlater, rfl, rfl⟩⟩ :=
          cases_of_publish hrun
        · exact .inl ⟨raised, rfl, hstays (hsu.trans huv) List.prefix_rfl⟩
        · -- what was read before the order and after it is what the builder was at first
          have hsv : v.heap.builder? id = some b := hstays (hsu.trans huv) List.prefix_rfl
          have hgrows : u.history.toList <+: v.history.toList := huv.history_grows hworld
          obtain rfl : held = b := Option.some.inj (hheld.symm.trans (hstays hsu hgrows))
          obtain rfl : later = held := Option.some.inj (hlater.symm.trans hsv)
          obtain ⟨content, hcontent, rfl⟩ := holds_of_expression he
          obtain ⟨hsent, hanswered⟩ := ok_of_assertCommand hworld rfl hassert
          have hasks : Evolves world.setup .asking s u :=
            (Meets.iff_keeps.mp
              (later.template.meets_check (hworld.frame .asking).inquiring)).of_runIn hcheck
          refine .inr ⟨_, fact, rfl, hasserted, ⟨content, hcontent, rfl⟩, ?_, ?_, ?_,
            builder?_withBuilder hlater _⟩
          · rw [runIn_render hb, he]
            rfl
          · exact hsent.trans (congrArg (· ++ _) hasks.guarded_eq)
          · exact ⟨v, hanswered.extend hsu (.refl v), rfl⟩

end

/-! ### Calls in a row -/

/-- A call on a builder, with the state that it is made in. -/
structure Call where
  method : Method
  given : Bound
  start : State

namespace Call

/-- How a call ends. -/
def run (c : Call) (world : World) (id : Nat) : Except Error Value × State :=
  (callBuilder id c.method c.given).runIn world c.start

/-- The fact that a call publishes the builder as, if it does. -/
def published? (c : Call) (world : World) (id : Nat) : Option FactHandle :=
  match c.method, (c.run world id).1 with
  | .assertFact, .ok (.factHandle fact) => some fact
  | _, _ => none

/-- The edits that a call makes of a builder. -/
def edits (c : Call) (world : World) (b : Builder) : List Edit :=
  kept (b.requests world.types c.start.heap c.given c.method)

/-- What a call makes of a builder. -/
def result (c : Call) (world : World) (id : Nat) (b : Builder) : Builder :=
  { b.edited (c.edits world b) with asserted := (c.published? world id).or b.asserted }

end Call

/-- A builder after some calls, one after the other. -/
def replay (world : World) (id : Nat) (b : Builder) (calls : List Call) : Builder :=
  calls.foldl (fun b c ↦ c.result world id b) b

/-- Calls on a builder in a row, from a state on. Between them the environment may do whatever
leaves the builder, and so may the functions that the engine calls meanwhile. -/
inductive Course (world : World) (id : Nat) : State → List Call → Prop
  | nil (s : State) : Course world id s []
  | cons {s : State} {c : Call} {rest : List Call} (hbefore : CellStays id s c.start)
      (hmeanwhile : world.LeavesCellMeanwhile id c.start (c.run world id).2.history)
      (hrest : Course world id (c.run world id).2 rest) : Course world id s (c :: rest)

theorem requests_of_not_editing {method : Method} (hmethod : method ∉ editing) (b : Builder)
    (types : TypeTable) (heap : Heap) (given : Bound) :
    b.requests types heap given method = [] := by
  cases method <;> first | rfl | exact absurd (by simp [editing]) hmethod

/-- What is neither an edit nor a publishing leaves the state. -/
theorem keeps_inquiry {method : Method} (hediting : method ∉ editing)
    (hassert : method ≠ .assertFact) (given : Bound) :
    (callBuilder id method given).Keeps Eq world := by
  refine Meets.iff_keeps.mp ?_
  cases method with
  | append | extend | set | update => exact absurd (by simp [editing]) hediting
  | assertFact => exact absurd rfl hassert
  | template | asserted => exact (meets_read id).bind fun _ ↦ .pure _
  | render => exact (meets_render id).bind fun _ ↦ .pure _
  | _ => exact meets_noMethod _ _

namespace Call

variable {b : Builder} {c : Call} {fact : FactHandle}

theorem run_assertFact (hmethod : c.method = .assertFact) : c.run world id =
    (((assertFact id).runIn world c.start).1.map .factHandle,
      ((assertFact id).runIn world c.start).2) := by
  unfold run callBuilder
  rw [hmethod]
  dsimp only
  rw [runIn_bind]
  cases (assertFact id).runIn world c.start with
  | mk answer t => cases answer <;> rfl

theorem published?_eq_some_iff : c.published? world id = some fact ↔
    c.method = .assertFact ∧ ((assertFact id).runIn world c.start).1 = .ok fact := by
  unfold published?
  constructor
  · intro hfact
    split at hfact
    · rename_i hmethod hanswer
      cases hfact
      rw [run_assertFact hmethod] at hanswer
      refine ⟨hmethod, ?_⟩
      cases hrun : ((assertFact id).runIn world c.start).1 with
      | error raised => simp [hrun, Except.map] at hanswer
      | ok found => simpa [hrun, Except.map] using hanswer
    · cases hfact
  · rintro ⟨hmethod, hanswer⟩
    rw [run_assertFact hmethod, hmethod, hanswer]
    rfl

/-- A call that fails publishes nothing. -/
theorem published?_eq_none_of_error {raised : Error}
    (hraised : (c.run world id).1 = .error raised) :
    c.published? world id = none := by
  unfold published?
  rw [hraised]
  split
  · rename_i hanswer
    cases hanswer
  · rfl

theorem edits_of_not_editing (hmethod : c.method ∉ editing) : c.edits world b = [] := by
  rw [edits, requests_of_not_editing hmethod, kept]

/-- A call that publishes nothing makes its edits. -/
theorem result_of_not_published (hnone : c.published? world id = none) :
    c.result world id b = b.edited (c.edits world b) := by
  rw [result, hnone, Option.none_or, ← asserted_edited b (c.edits world b)]

/-- A call that publishes a builder notes the fact in it. -/
theorem result_of_published (hfact : c.published? world id = some fact) :
    c.result world id b = { b with asserted := some fact } := by
  have hmethod : c.method ∉ editing := by
    rw [(published?_eq_some_iff.mp hfact).1]
    decide
  rw [result, hfact, edits_of_not_editing hmethod]
  rfl

/-- Where no function that is called meanwhile touches the builder, a call leaves what it makes of
the builder, and publishes the builder if it publishes anything. -/
theorem builder?_left (hworld : world.Orderly) (hb : c.start.heap.builder? id = some b)
    (hleaves : world.LeavesCellMeanwhile id c.start (c.run world id).2.history) :
    (c.run world id).2.heap.builder? id = some (c.result world id b) ∧
      ∀ fact, c.published? world id = some fact → ∃ e,
        Publishes world id c.start (c.run world id).2 b e fact := by
  by_cases hassert : c.method = .assertFact
  · cases hassertFact : (assertFact id).runIn world c.start with
    | mk answer t =>
      have hrun : c.run world id = (answer.map .factHandle, t) := by
        rw [run_assertFact hassert, hassertFact]
      rw [hrun] at hleaves ⊢
      obtain ⟨raised, rfl, hkept⟩ | ⟨e, fact, rfl, hpublishes⟩ :=
        cases_of_assertFact hworld hb hassertFact hleaves
      · have hnone : c.published? world id = none :=
          published?_eq_none_of_error (congrArg Prod.fst hrun)
        rw [result_of_not_published hnone, edits_of_not_editing (hassert ▸ by decide), hnone]
        exact ⟨hkept, fun fact hfact ↦ absurd hfact (Option.some_ne_none fact).symm⟩
      · have hfact : c.published? world id = some fact :=
          published?_eq_some_iff.mpr ⟨hassert, congrArg Prod.fst hassertFact⟩
        rw [result_of_published hfact]
        refine ⟨hpublishes.left, fun other hother ↦ ⟨e, ?_⟩⟩
        obtain rfl : fact = other := Option.some.inj (hfact.symm.trans hother)
        exact hpublishes
  · have hnone (fact : FactHandle) : c.published? world id ≠ some fact :=
      fun hfact ↦ hassert (published?_eq_some_iff.mp hfact).1
    refine ⟨?_, fun fact hfact ↦ absurd hfact (hnone fact)⟩
    rw [result_of_not_published (Option.eq_none_iff_forall_ne_some.mpr hnone)]
    by_cases hediting : c.method ∈ editing
    · rw [run, runIn_edits hb hediting]
      exact builder?_withBuilder hb _
    · have hsame : c.start = (c.run world id).2 := keeps_inquiry hediting hassert c.given c.start
      rw [← hsame, edits_of_not_editing hediting]
      exact hb

end Call

/-! ### After a publication -/

section

variable {b : Builder} (hasserted : b.asserted.isSome)
include hasserted

theorem editable_of_asserted (ordered : Bool) :
    b.editable ordered = .error (.stale .assertedEdited) :=
  if_pos hasserted

theorem assignment_of_asserted (types : TypeTable) (heap : Heap) (key v : Value) :
    b.assignment types heap key v = .error (.stale .assertedEdited) := by
  unfold assignment
  rw [editable_of_asserted hasserted, editable_of_asserted hasserted]
  split <;> rfl

/-- Whatever edit of a builder that was published is asked for is refused, and only a call for no
slots asks for none. -/
theorem requests_of_asserted (types : TypeTable) (heap : Heap) (given : Bound) {method : Method}
    (hmethod : method ∈ editing) : b.requests types heap given method =
      .replicate (if method = .update then given.keywords.length else 1)
        (.error (.stale .assertedEdited)) := by
  simp only [editing, List.mem_cons, List.not_mem_nil, or_false] at hmethod
  obtain rfl | rfl | rfl | rfl := hmethod
  · show [do b.editable true; addition heap (given.get 0)] = _
    rw [editable_of_asserted hasserted]
    rfl
  · unfold requests
    rw [editable_of_asserted hasserted]
    rfl
  · show [b.assignment types heap (given.get 0) (given.get 1)] = _
    rw [assignment_of_asserted hasserted]
    rfl
  · show (given.keywords.map fun p ↦ b.assignment types heap (.text p.1) p.2) = _
    simp only [assignment_of_asserted hasserted]
    exact List.map_const'

end

theorem kept_replicate_error (n : Nat) (raised : Error) :
    kept (.replicate n (.error raised)) = [] := by
  cases n <;> rfl

namespace Call

variable {b : Builder} {c : Call}

/-- Whether a call asks for an edit at all. One that gives values for slots asks for as many as it
gives. -/
def Edits (c : Call) : Prop := c.method ∈ editing ∧ (c.method = .update → c.given.keywords ≠ [])

/-- A builder that was published stays as it is, and each call that would edit or publish it is
refused. -/
theorem of_asserted (hb : c.start.heap.builder? id = some b) (hasserted : b.asserted.isSome) :
    c.result world id b = b ∧ c.published? world id = none ∧
      (c.Edits → (c.run world id).1 = .error (.stale .assertedEdited)) ∧
      (c.method = .assertFact → (c.run world id).1 = .error (.stale .asserted)) := by
  have hassert : (assertFact id).runIn world c.start = (.error (.stale .asserted), c.start) :=
    error_of_assertFact_of_asserted hb hasserted
  have hnone : c.published? world id = none := by
    refine Option.eq_none_iff_forall_ne_some.mpr fun fact hfact ↦ ?_
    have hanswer := (published?_eq_some_iff.mp hfact).2
    rw [hassert] at hanswer
    cases hanswer
  refine ⟨?_, hnone, fun ⟨hediting, hasks⟩ ↦ ?_, fun hmethod ↦ ?_⟩
  · rw [result_of_not_published hnone]
    by_cases hediting : c.method ∈ editing
    · rw [edits, requests_of_asserted hasserted _ _ _ hediting, kept_replicate_error, edited_nil]
    · rw [edits_of_not_editing hediting, edited_nil]
  · rw [run, runIn_edits hb hediting, requests_of_asserted hasserted _ _ _ hediting]
    obtain ⟨n, hn⟩ : ∃ n, (if c.method = .update then c.given.keywords.length else 1) = n + 1 := by
      refine Nat.exists_eq_succ_of_ne_zero ?_
      split
      · rename_i hupdate
        exact List.length_pos_iff.mpr (hasks hupdate) |>.ne'
      · exact one_ne_zero
    rw [hn]
    rfl
  · rw [run_assertFact hmethod, hassert]
    rfl

end Call

/-! ### What a builder holds after some calls -/

section

variable {b : Builder} {c : Call} {before after : List Call}

/-- The slot that an edit assigns to, with its value. -/
def Edit.assigned? : Edit → Option (String × EngineValue)
  | .assigned slot v => some (slot, v)
  | _ => none

/-- The values that some calls in a row assign to slots, in order. -/
def assignments (world : World) (id : Nat) : Builder → List Call → List (String × EngineValue)
  | _, [] => []
  | b, c :: rest => (c.edits world b).filterMap Edit.assigned? ++
      assignments world id (c.result world id b) rest

theorem slots_edited (b : Builder) (edits : List Edit) :
    (b.edited edits).slots = putEach b.slots (edits.filterMap Edit.assigned?) := by
  induction edits generalizing b with
  | nil => rfl
  | cons e rest ih => cases e <;> exact ih _

/-- The slots of a builder are what was assigned to them, one after the other. -/
theorem slots_replay (b : Builder) (calls : List Call) :
    (b.replay world id calls).slots = putEach b.slots (b.assignments world id calls) := by
  induction calls generalizing b with
  | nil => rfl
  | cons c rest ih =>
    rw [assignments, putEach_append, ← slots_edited]
    exact ih (c.result world id b)

/-- A builder that was published once stays one that was. -/
theorem isSome_asserted_replay (b : Builder) {calls : List Call}
    (hpublished : b.asserted.isSome ∨ ∃ c ∈ calls, (c.published? world id).isSome) :
    (b.replay world id calls).asserted.isSome := by
  induction calls generalizing b with
  | nil =>
    obtain hb | ⟨c, hc, -⟩ := hpublished
    · exact hb
    · cases hc
  | cons c rest ih =>
    refine ih (c.result world id b) ?_
    obtain hb | ⟨d, hd, hfact⟩ := hpublished
    · exact .inl (by simp [Call.result, hb])
    · obtain rfl | hd := List.mem_cons.mp hd
      · exact .inl (by simp [Call.result, hfact])
      · exact .inr ⟨d, hd, hfact⟩

/-- Before each call in a row the builder is what the calls before it have made of it. -/
theorem Course.builder?_start (hworld : world.Orderly) (hb : s.heap.builder? id = some b)
    (hcourse : Course world id s (before ++ c :: after)) :
    c.start.heap.builder? id = some (b.replay world id before) ∧
      world.LeavesCellMeanwhile id c.start (c.run world id).2.history := by
  induction before generalizing s b with
  | nil =>
    obtain - | ⟨hstays, hmeanwhile, -⟩ := hcourse
    exact ⟨hstays.builder? hb, hmeanwhile⟩
  | cons d rest ih =>
    obtain - | ⟨hstays, hmeanwhile, hrest⟩ := hcourse
    exact ih (Call.builder?_left hworld (hstays.builder? hb) hmeanwhile).1 hrest

end

end Builder

end

namespace Builder

/-! ### At most one publication -/

/-- A builder is published once. In a row of calls it is at any of them what the calls before it
have made of it, with each slot once, in the order of the first assignments and with the value that
was assigned last. A call publishes it as just that. A publishing that fails leaves it, and once it
was published it stays as it is, and whoever would edit it or publish it is refused. -/
theorem published_once {types : TypeTable} {config : Config}
    {engine : Array Event → Command → Reply} {depth : Nat} {s : State} {id : Nat}
    {template : TemplateHandle} {ordered : Bool} {before : List Call} {c : Call}
    (hb : s.heap.builder? id = some { template, ordered })
    (hcourse : Course (World.ofDepth types config engine depth) id s (before ++ [c])) :
    let world := World.ofDepth types config engine depth
    let empty : Builder := { template, ordered }
    let b := empty.replay world id before
    let answer := (c.run world id).1
    let t := (c.run world id).2
    c.start.heap.builder? id = some b ∧ t.heap.builder? id = some (c.result world id b) ∧
      b.slots.map (·.1) = ((empty.assignments world id before).map (·.1)).eraseDups ∧
      (∀ slot, b.slots.lookup slot = (empty.assignments world id before).reverse.lookup slot) ∧
      (∀ fact, c.published? world id = some fact → ∃ e, Publishes world id c.start t b e fact) ∧
      (c.method = .assertFact → ∀ raised, answer = .error raised → t.heap.builder? id = some b) ∧
      ((∃ d ∈ before, (d.published? world id).isSome) →
        t.heap.builder? id = some b ∧ c.published? world id = none ∧
          (c.Edits → answer = .error (.stale .assertedEdited)) ∧
          (c.method = .assertFact → answer = .error (.stale .asserted))) := by
  intro world empty b answer t
  have hworld : world.Orderly := World.ofDepth_orderly types config engine depth
  obtain ⟨hstart, hmeanwhile⟩ := hcourse.builder?_start hworld hb
  obtain ⟨hleft, hpublishes⟩ := Call.builder?_left hworld hstart hmeanwhile
  have hslots : b.slots = putEach [] (empty.assignments world id before) :=
    slots_replay empty before
  refine ⟨hstart, hleft, ?_, fun slot ↦ ?_, hpublishes, fun hmethod raised hraised ↦ ?_,
    fun hpublished ↦ ?_⟩
  · rw [hslots, keys_putEach]
  · rw [hslots, lookup_putEach]
  · rw [hleft, Call.result_of_not_published (Call.published?_eq_none_of_error hraised),
      Call.edits_of_not_editing (hmethod ▸ by decide), edited_nil]
  · have hasserted : b.asserted.isSome := isSome_asserted_replay empty (.inr hpublished)
    obtain ⟨hsame, hrefused⟩ := Call.of_asserted hstart hasserted
    exact ⟨hleft.trans (congrArg some hsame), hrefused⟩

/-- An engine that has every template and refuses the first fact. -/
def reluctantEngine (history : Array Event) : Command → Reply
  | .evaluate (.assertFact ..) =>
    let asked := history.toList.any fun
      | .command (.evaluate (.assertFact ..)) => true
      | _ => false
    { outcome := if asked then .ok (.fact 1 true) else .error "busy" }
  | _ => { outcome := .ok (.symbol "TRUE") }

/-- The state in which the fact holds an integer. -/
def oneColorState : State :=
  colorsState.withBuilder 0 { colorsBuilder with values := [.integer 1 (by decide)] }

/-- A fact that is extended by an integer, and by an object, which is refused, is published as the
integer alone, the engine having refused it once. -/
theorem published_once_retried :
    let world := World.ofDepth {} {} reluctantEngine 0
    let extending : Call := ⟨.extend, mixedValues, colorsState⟩
    let first : Call := ⟨.assertFact, {}, oneColorState⟩
    let second : Call := ⟨.assertFact, {}, (first.run world 0).2⟩
    Course world 0 colorsState ([extending, first] ++ [second]) ∧
      (∃ raised, (first.run world 0).1 = .error raised) ∧
      ∃ fact e, Publishes world 0 second.start (second.run world 0).2
        { colorsBuilder with values := [.integer 1 (by decide)] } e fact ∧
          e.text = "(assert (colors 1))" := by
  intro world extending first second
  have hleaves (c : Call) : world.LeavesCellMeanwhile 0 c.start (c.run world 0).2.history :=
    World.leavesCellMeanwhile_of_no_calls (fun history c ↦ by
      show (reluctantEngine history c).calls = []
      unfold reluctantEngine
      split <;> rfl) 0 _ _
  have hextended : CellStays 0 (extending.run world 0).2 first.start := by
    show CellStays 0 ((callBuilder 0 .extend mixedValues).runIn world colorsState).2 oneColorState
    rw [runIn_extend_mixedValues]
    exact .of_heap_eq rfl
  have hcourse : Course world 0 colorsState ([extending, first] ++ [second]) :=
    .cons (.of_heap_eq rfl) (hleaves extending) <| .cons hextended (hleaves first) <|
      .cons (.of_heap_eq rfl) (hleaves second) (.nil _)
  have hempty : colorsState.heap.builder? 0 =
      some { template := colorsBuilder.template, ordered := colorsBuilder.ordered } := rfl
  obtain ⟨hstart, -, -, -, hpublishes, -⟩ := published_once hempty hcourse
  obtain ⟨e, hpublished⟩ := hpublishes ⟨1, 0, 1⟩ rfl
  have hheld : second.start.heap.builder? 0 =
      some { colorsBuilder with values := [.integer 1 (by decide)] } := rfl
  rw [← Option.some.inj (hheld.symm.trans hstart)] at hpublished
  have htext : e.text = "(assert (colors 1))" :=
    (Except.ok.inj (Prod.mk.inj hpublished.rendered).1).symm
  exact ⟨hcourse, ⟨_, rfl⟩, _, e, hpublished, htext⟩

end Builder

end RuleMarshal
