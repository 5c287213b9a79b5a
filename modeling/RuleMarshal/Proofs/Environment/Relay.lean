import RuleMarshal.Proofs.Environment.Operation
import RuleMarshal.Proofs.Environment.Outstanding
/-!
Refusals that surface. The engine's refusal of a command that is sent is an error of this library
that carries the engine's text; where a host function failed meanwhile, that failure takes its
place; and a template whose slots the engine refuses to name counts as gone (`Surfaces`). A part of
an operation relays refusals if it has met none when it answers, and fails with an error in which
each one surfaces that it has met (`relaying`). What the engine raises when it is reset, run or
cleared is left out (`Command.isWrapped`).

In a world in which calls end, operations rely on this contract (`World.EndsCalls.governing`).
Whether a template exists is the one question whose refusal is an answer.
-/

set_option autoImplicit false
set_option relaxedAutoImplicit false

namespace RuleMarshal

open Act

/-! ### Refusals that were met -/

/-- Between two states the calls are over that began, and something is said of every own command
that the engine refused. -/
structure Refusals (engine : Array Event → Command → Reply) (said : Command → String → Prop)
    (s t : State) : Prop where
  callsOver : CallsOver engine s t
  each : s.ParksCall → ∀ c d, c.isWrapped = true → Refused engine s.past t.past c d → said c d

section

variable {engine : Array Event → Command → Reply} {said other : Command → String → Prop}
variable {s t u : State}

namespace Refusals

theorem mono (hst : Refusals engine said s t) (hsaid : ∀ c d, said c d → other c d) :
    Refusals engine other s t :=
  ⟨hst.callsOver, fun hs c d hc hrefused ↦ hsaid c d (hst.each hs c d hc hrefused)⟩

/-- What is said of the refusals in two parts of a run. -/
theorem append (hst : Refusals engine said s t) (htu : Refusals engine other t u) :
    Refusals engine (fun c d ↦ said c d ∨ other c d) s u := by
  refine ⟨trans_of (CallsOver engine) hst.callsOver htu.callsOver, fun hs c d hc hrefused ↦ ?_⟩
  rcases hrefused.split hst.callsOver.enclosed htu.callsOver.enclosed.grows with hearlier | hlater
  · exact .inl (hst.each hs c d hc hearlier)
  · exact .inr (htu.each (hst.callsOver.parks hs) c d hc hlater)

/-- A change that leaves the history and what is parked alone. -/
theorem aside (hhistory : t.history = s.history) (hparked : t.parked = s.parked) :
    Refusals engine said s t := by
  refine ⟨.aside hhistory hparked, fun _ c d _ hrefused ↦ ?_⟩
  rw [show t.past = s.past by rw [State.past, State.past, hhistory]] at hrefused
  exact absurd hrefused not_refused_self

/-- What is parked may be taken up at the end of a run. -/
theorem unparked (hst : Refusals engine said s t) (hu : u = t ∨ u = { t with parked := none }) :
    Refusals engine said s u := by
  rcases hu with rfl | rfl
  · exact hst
  · exact ⟨⟨fun _ ↦ nofun, hst.callsOver.enclosed⟩, hst.each⟩

instance isPreorder : IsPreorder State (Refusals engine said) where
  refl _ := .aside rfl rfl
  trans _ _ _ hst htu := (hst.append htu).mono fun _ _ ↦ or_self_iff.mp

end Refusals

end

/-! ### The contract -/

/-- An error tells of a command that the engine refused with a text. -/
inductive Surfaces (c : Command) (diagnostic : String) : Error → Prop
  /-- It is an error about what was sent, with the engine's text. -/
  | refused (cause : Construction) (sent : Native) :
      Surfaces c diagnostic (.construction cause (some sent) diagnostic)
  /-- It is the failure of a host function that was parked meanwhile. -/
  | parked {e : Error} (he : e.class? = some .call) : Surfaces c diagnostic e
  /-- The engine was asked for the slots of a template, which then counts as gone. -/
  | gone (name : String) (hc : c = .evaluate (.templateSlots name)) :
      Surfaces c diagnostic (.stale (.templateGone name))

theorem Surfaces.not_isConversion {c : Command} {d : String} {e : Error} (he : Surfaces c d e) :
    e.isConversion = false := by
  cases he with
  | parked he => cases e <;> first | rfl | cases he
  | _ => rfl

/-- An error in which a refusal surfaces is this library's, never the engine's. -/
theorem Surfaces.isOwn {c : Command} {d : String} {e : Error} (he : Surfaces c d e) :
    e.isOwn = true := by
  cases he with
  | parked he => exact Option.isSome_of_mem he
  | _ => rfl

/-- Parts of operations answer if they have met no refusal, and otherwise fail with an error that
tells of it. A whole operation may also answer after a template's slots were not named. -/
def relaying (engine : Array Event → Command → Reply) : Contract where
  answered := Refusals engine fun _ _ ↦ False
  failed s e t := Refusals engine (fun c d ↦ Surfaces c d e) s t
  concluded := Refusals engine fun c _ ↦ ∃ name, c = .evaluate (.templateSlots name)
  refl := refl_of _
  trans := trans_of _
  raise _ _ := .aside rfl rfl
  failedAfter hst htu := (hst.append htu).mono fun _ _ h ↦ h.resolve_left id
  concludedAfter hst htu := (hst.append htu).mono fun _ _ h ↦ h.resolve_left id
  answeredAfter hst htu := (hst.append htu).mono fun _ _ h ↦ h.resolve_right id
  conclude hst := hst.mono fun _ _ ↦ False.elim

/-! ### The channel -/

variable {world : World} {α : Type}

/-- What takes up a parked failure relays refusals: where the failure takes the place of one, it is
that of a host function. -/
theorem relays_checked {act : Act α} (hact : act.Meets (relaying world.engine) world) :
    act.checked.Meets (relaying world.engine) world := by
  constructor
  · intro s t a hrun
    obtain ⟨found, u, hact', htaken, hanswer⟩ := cases_of_checked hrun
    obtain rfl : found = .ok a := by
      rcases hanswer with hsame | ⟨e, -, hparked⟩
      · exact hsame.symm
      · cases hparked
    exact (hact.answered hact').unparked htaken
  · intro s t e hrun
    obtain ⟨found, u, hact', htaken, rfl | ⟨failure, hparked, hfailed⟩⟩ := cases_of_checked hrun
    · exact (hact.failed hact').unparked htaken
    · -- The failure takes the place of a refusal or of an answer.
      cases hfailed
      have hover : CallsOver world.engine s u := by
        cases found with
        | ok a => exact (hact.answered hact').callsOver
        | error refusal => exact (hact.failed hact').callsOver
      refine .unparked ⟨hover, fun hs c d _ _ ↦ ?_⟩ htaken
      exact .parked (hover.parks hs _ hparked)

namespace World.EndsCalls

variable (hworld : world.EndsCalls)
include hworld

/-- A command that is sent ends as the engine replies, with no other own command. -/
theorem runIn_send (c : Command) (refusal : Construction) (sent : Native) {s : State}
    (hopen : s.closed = false) :
    ∃ t, (Channel.send c refusal sent).runIn world s =
        ((world.engine s.history c).outcome.mapError (.construction refusal (some sent) ·), t) ∧
      CallsOver world.engine s t ∧ ∀ own d, Refused world.engine s.past t.past own d →
        own = c ∧ (world.engine s.history c).outcome = .error d := by
  obtain ⟨t, hexchange, hover⟩ := Channel.callsOver_exchange hworld c s
  refine ⟨t, ?_, hover⟩
  unfold Channel.send
  rw [Channel.runIn_requireOpen_bind, if_neg (by simp [hopen]), runIn_bind, hexchange]
  cases (world.engine s.history c).outcome <;> rfl

theorem send (c : Command) (refusal : Construction) (sent : Native) :
    (Channel.send c refusal sent).Meets (relaying world.engine) world := by
  have hclosed : ∀ s, s.closed = true →
      (Channel.send c refusal sent).runIn world s = (.error (.stale .closed), s) := fun s hs ↦ by
    unfold Channel.send
    rw [Channel.runIn_requireOpen_bind, if_pos hs]
  constructor
  · intro s t v hrun
    cases hs : s.closed with
    | true => cases (hclosed s hs).symm.trans hrun
    | false =>
      obtain ⟨u, hsent, hover, hown⟩ := hworld.runIn_send c refusal sent hs
      obtain ⟨houtcome, rfl⟩ := Prod.mk.inj (hsent.symm.trans hrun)
      refine ⟨hover, fun _ own d _ hrefused ↦ ?_⟩
      rw [(hown own d hrefused).2] at houtcome
      cases houtcome
  · intro s t e hrun
    cases hs : s.closed with
    | true =>
      cases (hclosed s hs).symm.trans hrun
      exact .aside rfl rfl
    | false =>
      obtain ⟨u, hsent, hover, hown⟩ := hworld.runIn_send c refusal sent hs
      obtain ⟨houtcome, rfl⟩ := Prod.mk.inj (hsent.symm.trans hrun)
      refine ⟨hover, fun _ own d _ hrefused ↦ ?_⟩
      rw [(hown own d hrefused).2] at houtcome
      cases houtcome
      exact .refused refusal sent

theorem evaluate (e : Expression) : (Channel.evaluate e).Meets (relaying world.engine) world :=
  (hworld.send _ _ _).bind fun v ↦ .of_keeps (v.keeps_toEngine fun _ _ ↦ .aside rfl rfl)

/-- What sends one command meets the refusal of that command at most. -/
theorem keeps_sent {c : Command} {said : Command → String → Prop}
    (hsaid : ∀ d, c.isWrapped = true → said c d) {next : Except String Native → Act α}
    (hnext : ∀ outcome, (next outcome).Keeps (Refusals world.engine said) world) :
    Act.Keeps (Refusals world.engine said) world (do
      Channel.requireOpen
      next (← Channel.exchange c)) := by
  refine .afterOpen fun s _ ↦ ?_
  obtain ⟨t, hexchange, hover, hown⟩ := Channel.callsOver_exchange hworld c s
  have hreached : Refusals world.engine said s t := by
    refine ⟨hover, fun _ own d hwrapped hrefused ↦ ?_⟩
    obtain ⟨rfl, -⟩ := hown own d hrefused
    exact hsaid d hwrapped
  rw [runIn_bind, hexchange]
  exact trans_of (Refusals world.engine said) hreached (hnext _ t)

/-- A command whose refusal passes through meets no other refusal. -/
theorem command {c : Command} (hc : c.isWrapped = false) :
    (Channel.command c).Meets (relaying world.engine) world := by
  refine .of_keeps (hworld.keeps_sent (fun d hwrapped ↦ ?_) fun outcome ↦ ?_)
  · rw [hc] at hwrapped
    cases hwrapped
  · cases outcome with
    | ok v => exact .pure v
    | error d => exact .throw _

/-! ### Templates -/

omit hworld in
/-- Where a refusal counts as a denial, what is answered is what was found or the denial. -/
theorem cases_of_refusable {question : Act Bool} {s t : State} {answer : Except Error Bool}
    (hrun : Act.runIn (tryCatch question fun e ↦ if e.isConstruction then return false else throw e)
      world s = (answer, t)) :
    ∃ found, question.runIn world s = (found, t) ∧ (answer = found ∨ answer = .ok false) := by
  rcases cases_of_tryCatch hrun with hasked | ⟨e, u, hasked, hhandled⟩
  · exact ⟨answer, hasked, .inl rfl⟩
  · split at hhandled <;> cases hhandled
    · exact ⟨.error e, hasked, .inr rfl⟩
    · exact ⟨.error e, hasked, .inl rfl⟩

/-- An operation that asks one question is refused nothing else. -/
theorem keeps_eval (e : Expression) :
    (eval e).Keeps (Refusals world.engine fun own _ ↦ own = .evaluate e) world := by
  have hevaluate : (Channel.evaluate e).Keeps
      (Refusals world.engine fun own _ ↦ own = .evaluate e) world := by
    refine .bind (hworld.keeps_sent (fun _ _ ↦ rfl) fun outcome ↦ ?_) fun v ↦
      v.keeps_toEngine fun _ _ ↦ .aside rfl rfl
    cases outcome with
    | ok v => exact .pure v
    | error d => exact .throw _
  intro s
  cases hrun : (eval e).runIn world s with
  | mk answer t =>
    obtain ⟨found, u, hact, htaken, -⟩ := cases_of_checked hrun
    exact (hevaluate.of_runIn hact).unparked htaken

/-- A template whose slots the engine refuses to name is not there. -/
theorem decides_slots (name : String) :
    Act.Decides (relaying world.engine) world (.stale (.templateGone name))
      (tryCatch (do return !(← eval (.templateSlots name)).isFalse) fun e ↦
        if e.isConstruction then return false else throw e) := by
  have hasked : Act.Meets (relaying world.engine) world (do
      return !(← eval (.templateSlots name)).isFalse : Act Bool) :=
    (relays_checked (hworld.evaluate _)).bind fun _ ↦ .pure _
  have honly : Act.Keeps (Refusals world.engine fun own _ ↦ own = .evaluate (.templateSlots name))
      world (do return !(← eval (.templateSlots name)).isFalse : Act Bool) :=
    (hworld.keeps_eval _).bind fun _ ↦ .pure _
  refine ⟨fun hrun ↦ ?_, fun hrun ↦ ?_, fun hrun ↦ ?_, fun hrun ↦ ?_⟩
  · obtain ⟨found, hfound, rfl | hanswer⟩ := cases_of_refusable hrun
    · exact hasked.answered hfound
    · cases hanswer
  · obtain ⟨found, hfound, -⟩ := cases_of_refusable hrun
    exact (honly.of_runIn hfound).mono fun _ _ hown ↦ ⟨name, hown⟩
  · obtain ⟨found, hfound, -⟩ := cases_of_refusable hrun
    exact (honly.of_runIn hfound).mono fun _ _ hown ↦ .gone name hown
  · obtain ⟨found, hfound, rfl | hanswer⟩ := cases_of_refusable hrun
    · exact hasked.failed hfound
    · cases hanswer

/-! ### Operations -/

theorem inquiring (allowed : Command → Prop) (hallowed : ∀ c, c.isGuarded = false → allowed c) :
    Inquiring (relaying world.engine) world allowed where
  unguarded := hallowed
  serial _ _ := .aside rfl rfl
  schemaOf _ := .of_keeps fun _ ↦ .aside rfl rfl
  send c _ refusal sent := hworld.send c refusal sent
  checked := relays_checked
  templateAlive h := by
    have hlisted : (evalTrue (.isListedTemplate h.name)).Meets (relaying world.engine) world :=
      (relays_checked (hworld.evaluate _)).bind fun _ ↦ .pure _
    refine .after .get fun s ↦ .ite (.of_meets (.pure _)) (.after hlisted fun listed ↦ ?_)
    exact .ite (.of_meets (.pure _)) (hworld.decides_slots h.name)

/-- Refusals surface in operations of every kind, in a world in which calls end. -/
theorem governing : Governing (relaying world.engine) (relaying world.engine) world where
  toInquiring := hworld.inquiring _ fun _ ↦ id
  free _ _ _ _ _ _ _ := .aside rfl rfl
  conversions e he s t hst := hst.mono fun c d hsurfaces ↦ by
    rw [hsurfaces.not_isConversion] at he
    cases he
  unvisit {_ _ t} hst visited := by
    refine trans_of (Refusals world.engine _) hst ?_
    exact .aside (t := { t with visited := visited }) rfl rfl
  atRest := hworld.inquiring _ fun _ _ ↦ trivial
  guard operation hnext := (Meets.of_keeps (keeps_guardMutation operation)).bind fun _ ↦ hnext
  command _ hc := hworld.command hc
  bind _ _ _ := .aside rfl rfl
  guardConcluding operation hnext :=
    .after (.of_keeps (keeps_guardMutation operation)) fun _ ↦ hnext
  register _ _ _ := .aside rfl rfl
  endData _ := .aside rfl rfl
  endAll _ := .aside rfl rfl
  retire kind name s := .aside rfl rfl
  close _ _ := .aside rfl rfl

end World.EndsCalls

end RuleMarshal
