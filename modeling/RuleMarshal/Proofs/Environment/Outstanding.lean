import RuleMarshal.Proofs.Environment.Exchange
import RuleMarshal.Proofs.Environment.Host
import RuleMarshal.Proofs.Environment.Service
/-!
Commands of one's own. While the engine works on a command it may call host functions, which may
send commands themselves, so a history tells the commands of an operation from those of the
functions only by the calls that are under way. Their number follows from the history
(`outstanding`): each command opens the calls of its reply, and each call ends with one event. From
the beginning of an operation to its end no call that was under way before ends, and as many are
under way in the end (`Enclosed`).

A command is the operation's own if no call is under way when it is sent that was not from the
beginning (`Refused`). An exchange has no other own command than the one it is for
(`Channel.callsOver_exchange`), whatever the functions do that the engine calls meanwhile.
-/

set_option autoImplicit false
set_option relaxedAutoImplicit false

namespace RuleMarshal

open Act

/-! ### Calls under way -/

/-- What has happened, the last first. -/
def State.past (s : State) : List Event := s.history.toList.reverse

theorem State.past_push (s : State) (e : Event) :
    { s with history := s.history.push e }.past = e :: s.past := by
  simp [past]

theorem State.toArray_reverse_past (s : State) : s.past.reverse.toArray = s.history := by
  simp [past]

/-- Whether a call of a host function ends with an event. -/
def Event.endsCall : Event → Bool
  | .returned .. | .failed .. | .unknownFunction _ => true
  | _ => false

section

variable (engine : Array Event → Command → Reply)

/-- How many calls by the engine are under way after some events, the last of which comes first. -/
def outstanding : List Event → Nat
  | [] => 0
  | .command c :: past => outstanding past + (engine past.reverse.toArray c).calls.length
  | e :: past => if e.endsCall then outstanding past - 1 else outstanding past

/-- Between two pasts no call ends that was under way at first, and in the end no other call is. -/
structure Enclosed (before after : List Event) : Prop where
  grows : before <:+ after
  under : ∀ past, before <:+ past → past <:+ after →
    outstanding engine before ≤ outstanding engine past
  even : outstanding engine after = outstanding engine before

/-- Between two pasts the engine has refused a command that was sent while no call was under way
that was not at first. -/
def Refused (before after : List Event) (c : Command) (diagnostic : String) : Prop :=
  ∃ past, before <:+ past ∧ .command c :: past <:+ after ∧
    outstanding engine past = outstanding engine before ∧
    (engine past.reverse.toArray c).outcome = .error diagnostic

end

section

variable {engine : Array Event → Command → Reply} {before middle after past : List Event}

theorem outstanding_cons {e : Event} (hcommand : e.isCommand = false) :
    outstanding engine (e :: past) =
      if e.endsCall then outstanding engine past - 1 else outstanding engine past := by
  cases e <;> first | rfl | cases hcommand

theorem eq_of_suffix_of_suffix (hle : before <:+ after) (hge : after <:+ before) : before = after :=
  hle.eq_of_length_le hge.length_le

theorem not_cons_suffix_self (e : Event) : ¬ e :: past <:+ past := fun h ↦
  absurd h.length_le (by simp)

/-- What comes before a command at some point comes before it, or with it or after. -/
theorem cases_of_command {c : Command} (hmiddle : middle <:+ after)
    (hsent : .command c :: past <:+ after) : middle <:+ past ∨ .command c :: past <:+ middle := by
  rcases List.suffix_or_suffix_of_suffix hmiddle hsent with hlater | hearlier
  · rcases List.suffix_cons_iff.mp hlater with rfl | hlater
    · exact .inr List.suffix_rfl
    · exact .inl hlater
  · exact .inr hearlier

namespace Enclosed

theorem refl (past : List Event) : Enclosed engine past past where
  grows := List.suffix_rfl
  under other hle hge := Nat.le_of_eq (by rw [eq_of_suffix_of_suffix hle hge])
  even := rfl

theorem trans (hfirst : Enclosed engine before middle) (hsecond : Enclosed engine middle after) :
    Enclosed engine before after where
  grows := hfirst.grows.trans hsecond.grows
  under past hle hge := by
    rcases List.suffix_or_suffix_of_suffix hge hsecond.grows with hearlier | hlater
    · exact hfirst.under past hle hearlier
    · exact hfirst.even ▸ hsecond.under past hlater hge
  even := hsecond.even.trans hfirst.even

/-- An event that is no command and ends no call. -/
theorem note {e : Event} (hcommand : e.isCommand = false) (hcall : e.endsCall = false) :
    Enclosed engine past (e :: past) := by
  have heven : outstanding engine (e :: past) = outstanding engine past := by
    rw [outstanding_cons hcommand, hcall, if_neg (by decide)]
  refine ⟨List.suffix_cons e past, fun other hle hge ↦ ?_, heven⟩
  rcases List.suffix_cons_iff.mp hge with rfl | hge
  · exact Nat.le_of_eq heven.symm
  · exact Nat.le_of_eq (by rw [eq_of_suffix_of_suffix hle hge])

end Enclosed

theorem not_refused_self {c : Command} {d : String} : ¬ Refused engine past past c d := by
  rintro ⟨other, hle, hsent, -⟩
  exact not_cons_suffix_self _ (hsent.trans hle)

/-- What is refused is refused in the first part of a run or in the second. -/
theorem Refused.split {c : Command} {d : String} (hrefused : Refused engine before after c d)
    (hfirst : Enclosed engine before middle) (hsecond : middle <:+ after) :
    Refused engine before middle c d ∨ Refused engine middle after c d := by
  obtain ⟨past, hle, hsent, hlevel, hreply⟩ := hrefused
  rcases cases_of_command hsecond hsent with hlater | hearlier
  · exact .inr ⟨past, hlater, hsent, hlevel.trans hfirst.even.symm, hreply⟩
  · exact .inl ⟨past, hle, hearlier, hlevel, hreply⟩

end

/-! ### Runs in which calls are over -/

/-- What is parked, if anything is, is a failed call of a host function. -/
def State.ParksCall (s : State) : Prop := ∀ e ∈ s.parked, e.class? = some .call

/-- What every part of an operation comes to: the calls by the engine are over that began in it, and
nothing was parked but failed calls. -/
structure CallsOver (engine : Array Event → Command → Reply) (s t : State) : Prop where
  parks : s.ParksCall → t.ParksCall
  enclosed : Enclosed engine s.past t.past

section

variable {engine : Array Event → Command → Reply} {s t : State}

instance CallsOver.isPreorder : IsPreorder State (CallsOver engine) where
  refl s := ⟨id, .refl s.past⟩
  trans _ _ _ hst htu := ⟨htu.parks ∘ hst.parks, hst.enclosed.trans htu.enclosed⟩

/-- A change that leaves the history and what is parked alone. -/
theorem CallsOver.aside (hhistory : t.history = s.history) (hparked : t.parked = s.parked) :
    CallsOver engine s t where
  parks hs := by rwa [State.ParksCall, hparked]
  enclosed := by
    rw [show t.past = s.past by rw [State.past, State.past, hhistory]]
    exact .refl s.past

theorem CallsOver.leavesHostFree : LeavesHostFree (CallsOver engine) :=
  fun _ _ _ _ _ _ _ ↦ .aside rfl rfl

theorem CallsOver.park {e : Error} (he : e.class? = some .call) (s : State) :
    CallsOver engine s { s with parked := some e } where
  parks _ := by
    rintro _ ⟨rfl⟩
    exact he
  enclosed := .refl s.past

theorem CallsOver.keeps_note {world : World} {e : Event} (hcommand : e.isCommand = false)
    (hcall : e.endsCall = false) : (note e).Keeps (CallsOver engine) world := by
  intro s
  refine ⟨id, ?_⟩
  change Enclosed engine s.past { s with history := s.history.push e }.past
  rw [State.past_push]
  exact .note hcommand hcall

end

/-- A world in which the calls are over that began while a host function ran, when the function
ends. -/
structure World.EndsCalls (world : World) : Prop where
  invoke : ∀ f args s, CallsOver world.engine s (world.invoke f args s).2
  resolve : ∀ v h s, CallsOver world.engine s (world.resolve v h s).2

section

variable {world : World} (hworld : world.EndsCalls)
include hworld

theorem World.EndsCalls.keptByCalls : KeptByCalls world (CallsOver world.engine) where
  serial _ _ := .aside rfl rfl
  park s _ he := .park he s
  resolve := hworld.resolve
  run f values s := by
    generalize hreached : (world.invoke f values { s with depth := s.depth + 1 }).2 = t
    have hbegun : CallsOver world.engine s { s with depth := s.depth + 1 } := .aside rfl rfl
    have hrun : CallsOver world.engine { s with depth := s.depth + 1 } t :=
      hreached ▸ hworld.invoke f values { s with depth := s.depth + 1 }
    have hended : CallsOver world.engine t { t with depth := t.depth - 1 } := .aside rfl rfl
    exact trans_of _ hbegun (trans_of _ hrun hended)

namespace Channel

/-- Answering a call ends with the event that ends the call. -/
theorem runIn_answer (c : EngineCall) (s : State) :
    ∃ (u : State) (e : Event), CallsOver world.engine s u ∧ e.endsCall = true ∧
      e.isCommand = false ∧
      (answer c).runIn world s = (.ok ⟨⟩, { u with history := u.history.push e }) := by
  unfold answer
  rw [runIn_bind, runIn_get]
  dsimp only
  cases s.bound.lookup c.name with
  | none => exact ⟨s, .unknownFunction c.name, refl_of (CallsOver world.engine) s, rfl, rfl, rfl⟩
  | some r =>
    have hcall := r.keeps_call hworld.keptByCalls c.args s
    dsimp only
    rw [runIn_tryCatch, runIn_bind]
    cases hrun : (r.call c.args).runIn world s with
    | mk answer u =>
      rw [hrun] at hcall
      cases answer with
      | ok v => exact ⟨u, .returned c.name v, hcall, rfl, rfl, rfl⟩
      | error e => exact ⟨u, .failed c.name e, hcall, rfl, rfl, rfl⟩

/-- Serving a call ends with the event that ends the call. -/
theorem runIn_serve (c : EngineCall) (s : State) :
    ∃ (u : State) (e : Event), CallsOver world.engine s u ∧ e.endsCall = true ∧
      e.isCommand = false ∧
      (serve c).runIn world s = (.ok ⟨⟩, { u with history := u.history.push e }) := by
  obtain ⟨u, e, hcalls, hends, hcommand, hanswer⟩ := runIn_answer hworld c s
  let kept : State := { u with calls := s.calls.push (s.heap, u.heap) }
  have hkept : CallsOver world.engine u kept := .aside rfl rfl
  exact ⟨kept, e, trans_of _ hcalls hkept, hends, hcommand, runIn_serve_of_answer hanswer⟩

end Channel

end

/-! ### Exchanges -/

/-- Between two pasts calls are under way that end by and by: while a command is sent, one of them
is still under way, and in the end none is. -/
structure Serving (engine : Array Event → Command → Reply) (level : Nat)
    (before after : List Event) : Prop where
  grows : before <:+ after
  under : ∀ past, before <:+ past → past <:+ after → level ≤ outstanding engine past
  busy : ∀ past c, before <:+ past → .command c :: past <:+ after → level < outstanding engine past
  even : outstanding engine after = level

/-- One call ends, and then the others. -/
theorem Serving.cons {engine : Array Event → Command → Reply} {level waiting : Nat}
    {before middle after : List Event} {e : Event} (hfirst : Enclosed engine before middle)
    (hbefore : outstanding engine before = level + (waiting + 1)) (hends : e.endsCall = true)
    (hcommand : e.isCommand = false) (hrest : Serving engine level (e :: middle) after) :
    Serving engine level before after := by
  -- Until the first call ends it is under way, above the level that the others end at.
  have hmiddle : ∀ past, before <:+ past → past <:+ middle → level < outstanding engine past := by
    intro past hle hge
    have := hfirst.under past hle hge
    omega
  refine ⟨hfirst.grows.trans ((List.suffix_cons e middle).trans hrest.grows),
    fun past hle hge ↦ ?_, fun past c hle hsent ↦ ?_, hrest.even⟩
  · rcases List.suffix_or_suffix_of_suffix hge hrest.grows with hearlier | hlater
    · rcases List.suffix_cons_iff.mp hearlier with rfl | hearlier
      · exact hrest.under _ List.suffix_rfl hrest.grows
      · exact Nat.le_of_lt (hmiddle past hle hearlier)
    · exact hrest.under past hlater hge
  · rcases cases_of_command hrest.grows hsent with hlater | hearlier
    · exact hrest.busy past c hlater hsent
    · rcases List.suffix_cons_iff.mp hearlier with hsame | hearlier
      · cases hsame
        cases hcommand
      · exact hmiddle past hle ((List.suffix_cons _ past).trans hearlier)

section

variable {world : World} (hworld : world.EndsCalls)
include hworld

namespace Channel

/-- The calls of a command are served to their ends. -/
theorem runIn_serveEach (calls : List EngineCall) {s : State} {level : Nat}
    (hs : outstanding world.engine s.past = level + calls.length) :
    ∃ t, Act.runIn (calls.forM serve) world s = (.ok ⟨⟩, t) ∧ (s.ParksCall → t.ParksCall) ∧
      Serving world.engine level s.past t.past := by
  induction calls generalizing s with
  | nil =>
    refine ⟨s, rfl, id, List.suffix_rfl, fun past hle hge ↦ ?_, fun past c hle hsent ↦ ?_, hs⟩
    · rw [← eq_of_suffix_of_suffix hle hge, hs]
      exact Nat.le_add_right _ _
    · exact absurd (hsent.trans hle) (not_cons_suffix_self _)
  | cons c rest ih =>
    -- The first call ends with one event, behind which one call less is under way.
    obtain ⟨u, e, hserved, hends, hcommand, hrun⟩ := runIn_serve hworld c s
    have hu : outstanding world.engine u.past = level + (rest.length + 1) := by
      rw [hserved.enclosed.even, hs, List.length_cons]
    have hnext : outstanding world.engine { u with history := u.history.push e }.past =
        level + rest.length := by
      rw [State.past_push, outstanding_cons hcommand, if_pos hends, hu]
      rfl
    obtain ⟨t, hrest, hparks, hserving⟩ := ih hnext
    refine ⟨t, ?_, fun hs ↦ hparks (hserved.parks hs), ?_⟩
    · change Act.runIn (serve c >>= fun _ ↦ rest.forM serve) world s = _
      rw [runIn_bind, hrun]
      exact hrest
    · rw [State.past_push] at hserving
      exact .cons hserved.enclosed (by rw [hs, List.length_cons]) hends hcommand hserving

/-- An exchange ends as the engine replies. Its calls are over then, and there was no other own
command than the one that was sent. -/
theorem callsOver_exchange (c : Command) (s : State) :
    ∃ t, (exchange c).runIn world s = (.ok (world.engine s.history c).outcome, t) ∧
      CallsOver world.engine s t ∧
      ∀ own d, Refused world.engine s.past t.past own d →
        own = c ∧ (world.engine s.history c).outcome = .error d := by
  rw [runIn_exchange]
  generalize hsent : { s with
    history := s.history.push (.command c)
    bound := s.bound.filter fun p ↦ !(world.engine s.history c).forgets.contains p.1 } = sent
  have hpast : sent.past = .command c :: s.past := by
    rw [← hsent, ← State.past_push]
    rfl
  have hparked : s.ParksCall → sent.ParksCall := by
    rw [← hsent]
    exact id
  have hlevel : outstanding world.engine sent.past =
      outstanding world.engine s.past + (world.engine s.history c).calls.length := by
    rw [hpast, outstanding, State.toArray_reverse_past]
  obtain ⟨t, hrun, hparks, hserving⟩ := runIn_serveEach hworld _ hlevel
  have hgrows : .command c :: s.past <:+ t.past := hpast ▸ hserving.grows
  refine ⟨t, ?_, ⟨hparks ∘ hparked, ?_⟩, ?_⟩
  · rw [runIn_bind, hrun]
    rfl
  · refine ⟨(List.suffix_cons _ _).trans hgrows, fun past hle hge ↦ ?_, hserving.even⟩
    rcases List.suffix_or_suffix_of_suffix hge hserving.grows with hearlier | hlater
    · rw [hpast] at hearlier
      rcases List.suffix_cons_iff.mp hearlier with rfl | hearlier
      · exact hserving.under _ (hpast ▸ List.suffix_rfl) hgrows
      · exact Nat.le_of_eq (by rw [eq_of_suffix_of_suffix hle hearlier])
    · exact hserving.under past hlater hge
  · -- Behind the command a call is under way whenever another is sent, so no other is an own one.
    rintro own d ⟨past, hle, hown, hsame, hreply⟩
    rcases cases_of_command hserving.grows hown with hlater | hearlier
    · exact absurd hsame (Nat.ne_of_gt (hserving.busy past own hlater hown))
    · rw [hpast] at hearlier
      rcases List.suffix_cons_iff.mp hearlier with heq | hearlier
      · obtain ⟨hcommand, rfl⟩ := List.cons.inj heq
        cases hcommand
        rw [State.toArray_reverse_past] at hreply
        exact ⟨rfl, hreply⟩
      · exact absurd (hearlier.trans hle) (not_cons_suffix_self _)

end Channel

end

end RuleMarshal
