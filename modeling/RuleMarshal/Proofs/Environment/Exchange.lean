import RuleMarshal.Proofs.Computation.Contract
import RuleMarshal.Proofs.Environment.Frame
/-!
Exchanges with the engine, read backwards: what a command that ended with an answer had from the
engine's reply, and what an operation did with it.
-/

set_option autoImplicit false
set_option relaxedAutoImplicit false

namespace RuleMarshal

open Act

variable {world : World} {s t : State}

theorem Channel.runIn_exchange (c : Command) (s : State) :
    (exchange c).runIn world s = Act.runIn (do
      (world.engine s.history c).calls.forM serve
      return (world.engine s.history c).outcome) world
      { s with
        history := s.history.push (.command c)
        bound := s.bound.filter fun p ↦ !(world.engine s.history c).forgets.contains p.1 } := rfl

/-- An exchange keeps what sending its command keeps and the calls that it serves. -/
theorem Channel.keeps_exchange {R : State → State → Prop} [IsPreorder State R] {c : Command}
    (hsent : R s { s with
      history := s.history.push (.command c)
      bound := s.bound.filter fun p ↦ !(world.engine s.history c).forgets.contains p.1 })
    (hserve : ∀ call ∈ (world.engine s.history c).calls, (serve call).Keeps R world) :
    R s ((exchange c).runIn world s).2 := by
  rw [runIn_exchange]
  exact trans_of R hsent ((Act.Keeps.forM _ hserve).bind (fun _ ↦ .pure _) _)

theorem ok_of_send {c : Command} {refusal : Construction} {sent v : Native}
    (hrun : (Channel.send c refusal sent).runIn world s = (.ok v, t)) :
    s.closed = false ∧ (Channel.exchange c).runIn world s = (.ok (.ok v), t) := by
  unfold Channel.send at hrun
  rw [Channel.runIn_requireOpen_bind] at hrun
  cases hclosed : s.closed with
  | true => simp [hclosed] at hrun
  | false =>
    obtain ⟨outcome, u, hexchange, hrest⟩ := ok_of_bind (by simpa [hclosed] using hrun)
    cases outcome with
    | error diagnostic => cases hrest
    | ok w =>
      cases hrest
      exact ⟨rfl, hexchange⟩

/-- A command that is sent to an open environment ends as the exchange does, and its refusal is made
an error. -/
theorem Channel.runIn_send_of_exchange {c : Command} {refusal : Construction} {sent : Native}
    {outcome : Except String Native} (hopen : s.closed = false)
    (hexchange : (exchange c).runIn world s = (.ok outcome, t)) :
    (send c refusal sent).runIn world s =
      (outcome.mapError (.construction refusal (some sent)), t) := by
  unfold send
  rw [runIn_requireOpen_bind, if_neg (by simp [hopen]), runIn_bind, hexchange]
  cases outcome <;> rfl

/-- An engine that replies with a value and does nothing else changes the history alone. -/
theorem Channel.runIn_evaluate {e : Expression} {v : Native}
    (hreply : world.engine s.history (.evaluate e) = { outcome := .ok v }) :
    (evaluate e).runIn world s =
      if s.closed then (.error (.stale .closed), s)
      else v.toEngine.runIn world
        { s with history := s.history.push (.command (.evaluate e)) } := by
  have hexchange : (exchange (.evaluate e)).runIn world s =
      (.ok (.ok v), { s with history := s.history.push (.command (.evaluate e)) }) := by
    rw [runIn_exchange, hreply]
    simp
  unfold evaluate send
  rw [runIn_bind, runIn_requireOpen_bind]
  by_cases hclosed : s.closed
  · rw [if_pos hclosed, if_pos hclosed]
  · rw [if_neg hclosed, if_neg hclosed, runIn_bind, hexchange]
    rfl

theorem runIn_takeParked :
    takeParked.runIn world s = (.ok s.parked, { s with parked := none }) := rfl

/-- An operation whose command ends with an answer or a refusal takes up what is parked then, in the
place of either, wherever that was parked. -/
theorem runIn_checked_of_ends {α : Type} {act : Act α} {answer : Except Error α}
    (hact : act.runIn world s = (answer, t))
    (hanswer : ∀ e, answer = .error e → e.isConstruction = true) :
    act.checked.runIn world s = (t.parked.elim answer .error, { t with parked := none }) := by
  unfold checked
  rw [runIn_bind, runIn_tryCatch, hact]
  cases answer with
  | ok a =>
    dsimp only
    rw [runIn_bind, runIn_takeParked]
    cases t.parked <;> rfl
  | error e =>
    dsimp only
    rw [if_pos (hanswer e rfl), runIn_bind, runIn_takeParked]
    cases t.parked <;> rfl

/-- An operation answers as its command does, or is refused as it is, if nothing is parked. -/
theorem runIn_checked_of_unparked {α : Type} {act : Act α} {answer : Except Error α}
    (hact : act.runIn world s = (answer, t))
    (hanswer : ∀ e, answer = .error e → e.isConstruction = true) (hparked : t.parked = none) :
    act.checked.runIn world s = (answer, t) := by
  have hsame : { t with parked := none } = t := by rw [← hparked]
  rw [runIn_checked_of_ends hact hanswer, hsame, hparked]
  rfl

/-- A question that the engine answers at once comes to what its answer becomes. -/
theorem runIn_eval_of_reply (hopen : s.closed = false) {e : Expression} {v : Native}
    {r : EngineValue} (hreply : world.engine s.history (.evaluate e) = { outcome := .ok v })
    (hv : v.toEngine.runIn world { s with history := s.history.push (.command (.evaluate e)) } =
      (.ok r, t))
    (hparked : t.parked = none) : (eval e).runIn world s = (.ok r, t) := by
  have hevaluate : (Channel.evaluate e).runIn world s = (.ok r, t) := by
    rw [Channel.runIn_evaluate hreply, if_neg (by simp [hopen]), hv]
  exact runIn_checked_of_unparked hevaluate nofun hparked

/-- An error that is no refusal passes through an operation, and what is parked stays parked. -/
theorem runIn_checked_of_error {α : Type} {act : Act α} {e : Error}
    (hact : act.runIn world s = (.error e, t)) (he : e.isConstruction = false) :
    act.checked.runIn world s = (.error e, t) := by
  unfold checked
  rw [runIn_bind, runIn_tryCatch, hact]
  dsimp only
  rw [if_neg (by simp [he])]
  rfl

/-- An operation ends as its command does, or with what is parked then; it leaves what its command
leaves, but for the parked failure where it takes that up. -/
theorem cases_of_checked {α : Type} {act : Act α} {answer : Except Error α}
    (hrun : act.checked.runIn world s = (answer, t)) :
    ∃ found u, act.runIn world s = (found, u) ∧ (t = u ∨ t = { u with parked := none }) ∧
      (answer = found ∨ ∃ e, u.parked = some e ∧ answer = .error e) := by
  cases hact : act.runIn world s with
  | mk found u =>
    refine ⟨found, u, rfl, ?_⟩
    by_cases hother : ∃ e, found = .error e ∧ e.isConstruction = false
    · obtain ⟨e, rfl, he⟩ := hother
      rw [runIn_checked_of_error hact he] at hrun
      cases hrun
      exact ⟨.inl rfl, .inl rfl⟩
    · have hends : ∀ e, found = .error e → e.isConstruction = true := fun e he ↦ by
        simpa using fun h ↦ hother ⟨e, he, h⟩
      rw [runIn_checked_of_ends hact hends] at hrun
      cases hrun
      refine ⟨.inr rfl, ?_⟩
      cases u.parked with
      | none => exact .inl rfl
      | some e => exact .inr ⟨e, rfl, rfl⟩

/-- An operation leaves what its command leaves, but for the parked failure. -/
theorem runIn_checked {α : Type} (act : Act α) :
    ∃ parked, (act.checked.runIn world s).2 = { (act.runIn world s).2 with parked := parked } := by
  cases hrun : act.checked.runIn world s with
  | mk answer t =>
    obtain ⟨found, u, hact, hleft, -⟩ := cases_of_checked hrun
    rw [hact]
    rcases hleft with rfl | rfl
    · exact ⟨t.parked, rfl⟩
    · exact ⟨none, rfl⟩

/-- An operation that ends with an answer has it from the command, and nothing was parked. -/
theorem ok_of_checked {α : Type} {act : Act α} {a : α}
    (hrun : act.checked.runIn world s = (.ok a, t)) :
    ∃ u, act.runIn world s = (.ok a, u) ∧ t = { u with parked := none } := by
  obtain ⟨answer, u, hact, hrest⟩ := ok_of_bind hrun
  rw [runIn_tryCatch] at hact
  cases hfirst : act.runIn world s with
  | mk found v =>
    rw [hfirst] at hact
    cases found with
    | ok b =>
      cases hact
      obtain ⟨parked, w, htaken, hanswer⟩ := ok_of_bind hrest
      cases htaken
      cases hparked : u.parked with
      | some e => rw [hparked] at hanswer; cases hanswer
      | none =>
        rw [hparked] at hanswer
        cases hanswer
        exact ⟨u, rfl, rfl⟩
    | error e =>
      dsimp only at hact
      split at hact
      · obtain ⟨parked, w, -, hthrown⟩ := ok_of_bind hact
        cases parked <;> cases hthrown
      · cases hact

/-- Only an open environment answers. -/
theorem isOpen_of_eval {e : Expression} {v : EngineValue}
    (hrun : (eval e).runIn world s = (.ok v, t)) :
    s.closed = false := by
  obtain ⟨w, hevaluate, -⟩ := ok_of_checked hrun
  obtain ⟨found, u, hsend, -⟩ := ok_of_bind hevaluate
  exact (ok_of_send hsend).1

/-- The answer to an expression is what the engine replied. -/
theorem ok_of_eval {e : Expression} {v : EngineValue}
    (hrun : (eval e).runIn world s = (.ok v, t)) :
    ∃ found u w, (Channel.exchange (.evaluate e)).runIn world s = (.ok (.ok found), u) ∧
      found.toEngine.runIn world u = (.ok v, w) ∧ t = { w with parked := none } := by
  obtain ⟨w, hevaluate, rfl⟩ := ok_of_checked hrun
  obtain ⟨found, u, hsend, hvalue⟩ := ok_of_bind hevaluate
  exact ⟨found, u, w, (ok_of_send hsend).2, hvalue, rfl⟩

end RuleMarshal
