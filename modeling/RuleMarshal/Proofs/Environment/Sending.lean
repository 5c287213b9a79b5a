import RuleMarshal.Proofs.Environment.Quiet
import RuleMarshal.Proofs.Extraction.Store
/-!
What a computation sends. The commands of a computation are told apart from those of the functions
that the engine calls meanwhile by the exchanges that it is made of: in between it does nothing but
reflect types, count handles and take up what is parked (`Sends`). Whether a command may be sent can
depend on the state in which it is sent, so that a permission may be that something was asked before
(`Answered`).

Orders to make instances are not given by functions that are called, so that each order in the
history of such a computation is one that it was permitted to send
(`Sends.exists_permitted_of_creation`). Where the engine calls no functions, so is every command
(`Sends.exists_commands`).
-/

set_option autoImplicit false
set_option relaxedAutoImplicit false

namespace RuleMarshal

open Act

/-- What a computation leads to that sends no commands but such as are permitted in the state in
which they are sent: the engine works on each in its own way, which may be to call host functions,
and all else that changes is what is remembered of types, how many handles were made and which
failure is parked. -/
inductive Sends (world : World) (permitted : State → Command → Prop) : State → State → Prop
  | refl (s : State) : Sends world permitted s s
  | trans {s t u : State} (hst : Sends world permitted s t) (htu : Sends world permitted t u) :
      Sends world permitted s u
  | aside (s : State) (serial : Nat) (parked : Option Error) :
      Sends world permitted s { s with serial, parked }
  | reflect (s : State) (h : Hint) :
      Sends world permitted s
        { s with memo := ((reflect world.types world.config.tags h).run s.memo).2 }
  | send (s : State) (c : Command) (hopen : s.closed = false) (hpermitted : permitted s c) :
      Sends world permitted s ((Channel.exchange c).runIn world s).2

/-- What a computation leads to whatever it sends. -/
abbrev Proceeds (world : World) : State → State → Prop := Sends world fun _ _ ↦ True

section

variable {world : World} {permitted other : State → Command → Prop} {s t u : State} {c : Command}
variable {e : Expression}

instance Sends.isPreorder : IsPreorder State (Sends world permitted) where
  refl := .refl
  trans _ _ _ := .trans

namespace Sends

theorem mono (hst : Sends world permitted s t) (hpermitted : ∀ s c, permitted s c → other s c) :
    Sends world other s t := by
  induction hst with
  | refl s => exact .refl s
  | trans _ _ hs ht => exact .trans hs ht
  | aside s serial parked => exact .aside s serial parked
  | reflect s h => exact .reflect s h
  | send s c hopen hc => exact .send s c hopen (hpermitted s c hc)

theorem proceeds (hst : Sends world permitted s t) : Proceeds world s t :=
  hst.mono fun _ _ _ ↦ trivial

end Sends

/-! ### Exchanges -/

/-- Once its command is written down, an exchange serves the calls of the engine and does nothing
else. -/
theorem Channel.evolves_served (hworld : world.Orderly) (c : Command) (s : State) :
    Evolves world.setup .asking
      { s with
        history := s.history.push (.command c)
        bound := s.bound.filter fun p ↦ !(world.engine s.history c).forgets.contains p.1 }
      ((exchange c).runIn world s).2 := by
  rw [runIn_exchange]
  exact (Act.Keeps.forM _ fun call _ ↦ keeps_serve hworld call).bind (fun _ ↦ .pure _) _

theorem Channel.history_of_exchange (hworld : world.Orderly) (c : Command) (s : State) :
    (s.history.push (.command c)).toList <+: ((exchange c).runIn world s).2.history.toList :=
  (evolves_served hworld c s).history_grows

/-- What is only asked gives no orders to make instances, and no function that is called does. -/
theorem Evolves.creation?_of_later {σ : Setup} (hst : Evolves σ .asking s t) {history : Array Event}
    (hgrows : s.history.toList <+: history.toList)
    (hsent : (history.push (.command c)).toList <+: t.history.toList) :
    (Event.command c).creation? = none := by
  obtain ⟨before, hbefore⟩ := hgrows
  obtain ⟨after, hafter⟩ := hsent
  have hsame := hst.creations_eq (.inl rfl)
  unfold State.creations at hsame
  rw [← hafter, Array.toList_push, ← hbefore, List.append_assoc, List.append_assoc,
    List.filterMap_append, List.append_right_eq_self] at hsame
  by_contra hcreation
  obtain ⟨order, horder⟩ := Option.ne_none_iff_exists'.mp hcreation
  simp [List.filterMap_append, horder] at hsame

/-- An event that comes after some others was the next one to come, or comes after that one. -/
theorem eq_or_prefix_of_prefix_concat {α : Type} {before later all : List α} {a b : α}
    (hle : before <+: later) (ha : before ++ [a] <+: all) (hb : later ++ [b] <+: all) :
    (later = before ∧ b = a) ∨ before ++ [a] <+: later := by
  obtain hfirst | hsecond := List.prefix_or_prefix_of_prefix ha hb
  · obtain heq | hlater := List.prefix_concat_iff.mp hfirst
    · obtain ⟨rfl, hlast⟩ := List.append_inj' heq rfl
      exact .inl ⟨rfl, (List.singleton_inj.mp hlast).symm⟩
    · exact .inr hlater
  · obtain rfl : before = later :=
      hle.eq_of_length_le (by simpa using hsecond.length_le)
    exact .inl ⟨rfl, List.singleton_inj.mp
      (List.append_cancel_left (hsecond.eq_of_length (by simp)))⟩

namespace Sends

theorem history_grows (hworld : world.Orderly) (hst : Sends world permitted s t) :
    s.history.toList <+: t.history.toList := by
  induction hst with
  | trans _ _ hs ht => exact hs.trans ht
  | send s c hopen hc =>
    refine .trans ⟨[.command c], ?_⟩ (Channel.history_of_exchange hworld c s)
    rw [Array.toList_push]
  | _ => exact List.prefix_rfl

/-- No schema changes. -/
theorem memo_agrees (hworld : world.Orderly) (hst : Sends world permitted s t) :
    s.memo.Agrees world.types world.config.tags t.memo := by
  induction hst with
  | trans _ _ hs ht => exact hs.trans ht
  | reflect s h => exact Memo.agrees_reflect h s.memo
  | send s c hopen hc => exact (Channel.evolves_served hworld c s).memo_agrees
  | _ => exact fun _ ↦ rfl

/-- An order to make an instance that was sent was permitted in the state in which it was sent. -/
theorem exists_permitted_of_creation (hworld : world.Orderly) (hst : Sends world permitted s t)
    (hcreation : (Event.command c).creation?.isSome = true) {history : Array Event}
    (hgrows : s.history.toList <+: history.toList)
    (hsent : (history.push (.command c)).toList <+: t.history.toList) :
    ∃ u, u.history = history ∧ Proceeds world s u ∧ permitted u c := by
  have hlength : history.toList.length < (history.push (.command c)).toList.length := by simp
  have hsame {s t : State} (heq : t.history = s.history)
      (hgrows : s.history.toList <+: history.toList)
      (hsent : (history.push (.command c)).toList <+: t.history.toList) : False := by
    rw [heq] at hsent
    exact absurd (hsent.trans hgrows).length_le (Nat.not_le.mpr hlength)
  induction hst with
  | refl s => exact (hsame rfl hgrows hsent).elim
  | aside s serial parked => exact (hsame rfl hgrows hsent).elim
  | reflect s h => exact (hsame rfl hgrows hsent).elim
  | @trans s t u hst htu hs ht =>
    obtain hearlier | hlater := List.prefix_or_prefix_of_prefix hsent (htu.history_grows hworld)
    · exact hs hgrows hearlier
    · rw [Array.toList_push] at hlater
      obtain heq | hlater := List.prefix_concat_iff.mp hlater
      · have hlast : (history.push (.command c)).toList = t.history.toList :=
          Array.toList_push.trans heq.symm
        exact hs hgrows (hlast ▸ List.prefix_rfl)
      · obtain ⟨v, hv, hproceeds, hpermitted⟩ := ht hlater hsent
        exact ⟨v, hv, .trans hst.proceeds hproceeds, hpermitted⟩
  | send s d hopen hd =>
    have hfirst := Channel.history_of_exchange hworld d s
    rw [Array.toList_push] at hfirst hsent
    obtain ⟨hhistory, heq⟩ | hlater := eq_or_prefix_of_prefix_concat hgrows hfirst hsent
    · cases heq
      exact ⟨s, (Array.toList_inj.mp hhistory).symm, .refl s, hd⟩
    · rw [← Array.toList_push] at hlater hsent
      rw [(Channel.evolves_served hworld d s).creation?_of_later hlater hsent] at hcreation
      cases hcreation

/-- Where the engine calls no functions, all that happened is that permitted commands were sent. -/
theorem exists_commands (hcalls : ∀ history c, (world.engine history c).calls = [])
    (hst : Sends world permitted s t) : ∃ sent : List Command,
      t.history.toList = s.history.toList ++ sent.map .command ∧ ∀ c ∈ sent, ∃ u,
        permitted u c := by
  induction hst with
  | trans _ _ hs ht =>
    obtain ⟨first, hfirst, hbefore⟩ := hs
    obtain ⟨second, hsecond, hafter⟩ := ht
    refine ⟨first ++ second, by simp [hsecond, hfirst], fun c hc ↦ ?_⟩
    exact (List.mem_append.mp hc).elim (hbefore c) (hafter c)
  | send s c hopen hc =>
    rw [Channel.runIn_exchange, hcalls]
    exact ⟨[c], by simp, fun d hd ↦ ⟨s, List.mem_singleton.mp hd ▸ hc⟩⟩
  | _ => exact ⟨[], by simp, nofun⟩

/-! ### Computations that send -/

theorem keeps_schemaOf (h : Hint) : (schemaOf h).Keeps (Sends world permitted) world :=
  fun s ↦ .reflect s h

theorem keeps_toEngine (v : Native) : v.toEngine.Keeps (Sends world permitted) world :=
  v.keeps_toEngine fun s n ↦ .aside s n s.parked

/-- What is sent at first is followed by what sends from any state. -/
theorem bind {α β : Type} {act : Act α} {next : α → Act β}
    (hact : Sends world permitted s (act.runIn world s).2)
    (hnext : ∀ a, (next a).Keeps (Sends world permitted) world) :
    Sends world permitted s ((act >>= next).runIn world s).2 :=
  hact.trans (Act.Keeps.after_bind hnext s)

theorem of_send (hc : permitted s c) (refusal : Construction) (sent : Native) :
    Sends world permitted s ((Channel.send c refusal sent).runIn world s).2 := by
  unfold Channel.send
  rw [Channel.runIn_requireOpen_bind]
  split
  · exact .refl s
  · rename_i hopen
    refine bind (.send s c (Bool.eq_false_iff.mpr hopen) hc) fun outcome ↦ ?_
    cases outcome with
    | ok v => exact .pure v
    | error diagnostic => exact .throw _

theorem of_evaluate (he : permitted s (.evaluate e)) :
    Sends world permitted s ((Channel.evaluate e).runIn world s).2 :=
  bind (of_send he _ _) keeps_toEngine

theorem of_eval (he : permitted s (.evaluate e)) :
    Sends world permitted s ((eval e).runIn world s).2 := by
  obtain ⟨parked, hparked⟩ : ∃ parked, ((eval e).runIn world s).2 =
      { ((Channel.evaluate e).runIn world s).2 with parked } := runIn_checked _
  rw [hparked]
  exact (of_evaluate he).trans (.aside _ _ parked)

theorem of_createInstance (he : permitted s (.evaluate e)) :
    Sends world permitted s ((createInstance e).runIn world s).2 := by
  unfold createInstance
  rw [runIn_guardMutation_bind]
  split
  · exact .refl s
  · split
    · exact .refl s
    · refine bind (of_eval he) fun v ↦ ?_
      split
      · exact keeps_instanceHandle (fun s n ↦ .aside s n s.parked) _
      · exact .pure _
      · exact .throw _

end Sends

/-- In an open environment an expression is sent at once. -/
theorem history_of_eval (hworld : world.Orderly) (hopen : s.closed = false) (e : Expression) :
    (s.history.push (.command (.evaluate e))).toList <+:
      ((eval e).runIn world s).2.history.toList := by
  have hanswered : Proceeds world ((Channel.exchange (.evaluate e)).runIn world s).2
      ((Channel.send (.evaluate e) .expression e.sent).runIn world s).2 := by
    unfold Channel.send
    rw [Channel.runIn_requireOpen_bind, if_neg (by simp [hopen])]
    refine Act.Keeps.after_bind (fun outcome ↦ ?_) s
    cases outcome with
    | ok v => exact .pure v
    | error diagnostic => exact .throw _
  have hvalue : Proceeds world ((Channel.send (.evaluate e) .expression e.sent).runIn world s).2
      ((Channel.evaluate e).runIn world s).2 :=
    Act.Keeps.after_bind (fun v ↦ Sends.keeps_toEngine v) s
  obtain ⟨parked, hparked⟩ : ∃ parked, ((eval e).runIn world s).2 =
      { ((Channel.evaluate e).runIn world s).2 with parked } := runIn_checked _
  have hgrows := (hanswered.trans hvalue).history_grows hworld
  rw [hparked]
  exact (Channel.history_of_exchange hworld _ s).trans hgrows

/-! ### Questions that were answered -/

/-- Between two states a question was asked, and answered with a value. -/
def Answered (world : World) (s t : State) (e : Expression) (v : EngineValue) : Prop :=
  ∃ u native, Proceeds world s u ∧ u.closed = false ∧
    (world.engine u.history (.evaluate e)).outcome = .ok native ∧ native.Gives v ∧
    Proceeds world ((Channel.exchange (.evaluate e)).runIn world u).2 t

theorem Answered.extend {v : EngineValue} (hanswered : Answered world s t e v)
    {before after : State} (hbefore : Proceeds world before s) (hafter : Proceeds world t after) :
    Answered world before after e v := by
  obtain ⟨u, native, hsu, hopen, houtcome, hgives, hut⟩ := hanswered
  exact ⟨u, native, .trans hbefore hsu, hopen, houtcome, hgives, .trans hut hafter⟩

theorem answered_of_evaluate {v : EngineValue}
    (hrun : (Channel.evaluate e).runIn world s = (.ok v, t)) :
    Answered world s t e v := by
  obtain ⟨native, u, hsend, hvalue⟩ := ok_of_bind hrun
  obtain ⟨hopen, hexchange⟩ := ok_of_send hsend
  have hoverall := hexchange
  rw [Channel.runIn_exchange] at hexchange
  obtain ⟨⟨⟩, w, -, hreturn⟩ := ok_of_bind hexchange
  obtain ⟨houtcome, rfl⟩ : (world.engine s.history (.evaluate e)).outcome = .ok native ∧ w = u := by
    generalize (world.engine s.history (.evaluate e)).outcome = outcome at hreturn
    cases hreturn
    exact ⟨rfl, rfl⟩
  refine ⟨s, native, .refl s, hopen, houtcome, Native.gives_of_toEngine hvalue, ?_⟩
  rw [hoverall]
  exact (Sends.keeps_toEngine native).of_runIn hvalue

end

end RuleMarshal
