import RuleMarshal.Proofs.Computation.Result
import RuleMarshal.Proofs.Engine.Render
import RuleMarshal.Proofs.Environment.Sending
import RuleMarshal.Proofs.Session.Refusal
/-!
Handles inside of values. A handle on an instance that stands in a value, at any depth of lists and
tuples, is written as an address by the name of the instance (`Value.Mentions.infix_of_term`).
Neither the conversion nor the text looks at the epoch of the handle, so an operation that takes
values and returns has told the engine that name, whether the handle is current or not
(`Mentioning.says`). A stale handle in the place of a value is taken for the instance that has its
name by then (`stale_handle_written`).
-/

set_option autoImplicit false
set_option relaxedAutoImplicit false

namespace RuleMarshal

open Act
open MonadExcept (ofExcept)

/-! ### Values and texts -/

/-- Whether a handle on an instance stands in a value, at any depth of lists and tuples. -/
inductive Value.Mentions (h : InstanceHandle) : Value → Prop
  | self : Mentions h (.instanceHandle h)
  | list {items : List Value} {v : Value} (hv : v ∈ items) (hmentions : Mentions h v) :
      Mentions h (.list items)
  | tuple {items : List Value} {v : Value} (hv : v ∈ items) (hmentions : Mentions h v) :
      Mentions h (.tuple items)

/-- How an instance is written where a value refers to it. -/
def InstanceHandle.mention (h : InstanceHandle) : String :=
  "(instance-address " ++ renderInstanceName h.name ++ ")"

section

variable {h : InstanceHandle} {v : Value} {e : EngineValue} {text : String}

/-- A handle in a value is an address in what the value is converted to. -/
theorem Value.Mentions.contains (hv : v.Mentions h) (he : v.toEngine = .ok e) :
    e.Contains (.instanceAddress h) := by
  induction hv generalizing e with
  | self =>
    cases he
    exact .self _
  | list hv _ ih | tuple hv _ ih =>
    rw [toEngine] at he
    obtain ⟨es, hes, hreturn⟩ := Except.ok_of_bind he
    cases hreturn
    rw [toEngineEach_eq_mapM] at hes
    obtain ⟨e, hmem, hencode⟩ := Except.exists_mem_of_mapM hes hv
    exact .item hmem (ih hencode)

theorem EngineValue.renderEach_eq_mapM (items : List EngineValue) :
    renderEach items = items.mapM fun v ↦ do return " " ++ (← v.render) := by
  induction items with
  | nil => rfl
  | cons v rest ih =>
    rw [renderEach, List.mapM_cons, ih, bind_assoc]
    rfl

theorem infix_append (front text back : String) : text.toList <:+: (front ++ text ++ back).toList :=
  ⟨front.toList, back.toList, by simp⟩

theorem infix_join_of_mem {texts : List String} (htext : text ∈ texts) :
    text.toList <:+: (String.join texts).toList := by
  rw [String.toList_join]
  obtain ⟨front, back, rfl⟩ := List.append_of_mem htext
  exact ⟨front.flatMap String.toList, back.flatMap String.toList, by simp⟩

/-- An address in a value is written out in its text, by the name of the instance alone. -/
theorem EngineValue.Contains.infix_of_render (he : e.Contains (.instanceAddress h))
    (htext : e.render = .ok text) : h.mention.toList <:+: text.toList := by
  generalize hu : EngineValue.instanceAddress h = u at he
  induction he generalizing text with
  | self v =>
    subst hu
    cases htext
    exact List.infix_rfl
  | @item items v u hv _ ih =>
    rw [EngineValue.render] at htext
    obtain ⟨texts, htexts, hreturn⟩ := Except.ok_of_bind htext
    cases hreturn
    rw [renderEach_eq_mapM] at htexts
    obtain ⟨spaced, hmem, hspaced⟩ := Except.exists_mem_of_mapM htexts hv
    obtain ⟨found, hfound, hreturn⟩ := Except.ok_of_bind hspaced
    cases hreturn
    have hinside : found.toList <:+: (String.join texts).toList :=
      .trans ⟨[' '], [], by simp⟩ (infix_join_of_mem hmem)
    exact (ih hfound hu).trans (hinside.trans ⟨"(create$".toList, [')'], by simp⟩)

theorem settledEach_eq_map (heap : Heap) (depth : Nat) (items : List Value) :
    settledEach heap depth items = items.map (Value.settledWithin heap depth) := by
  induction items with
  | nil => simp [settledEach]
  | cons v rest ih => simp [settledEach, ih]

/-- A handle that stands in a value stands in its content. -/
theorem Value.Mentions.content (hv : v.Mentions h) (heap : Heap) : (heap.content v).Mentions h := by
  unfold Heap.content
  induction hv with
  | self =>
    simp only [settledWithin]
    exact .self
  | list hv _ ih =>
    rw [settledWithin, settledEach_eq_map]
    exact .list (List.mem_map_of_mem hv) ih
  | tuple hv _ ih =>
    rw [settledWithin, settledEach_eq_map]
    exact .tuple (List.mem_map_of_mem hv) ih

end

/-! ### Operations that take values -/

section

variable {world : World} {s t : State} {h : InstanceHandle} {v : Value}

theorem runIn_term (v : Value) (world : World) (s : State) :
    (term v).runIn world s = ((s.heap.content v).toEngine >>= EngineValue.term, s) := by
  unfold term encode
  rw [runIn_bind, runIn_bind, runIn_get]
  dsimp only
  rw [runIn_ofExcept]
  cases (s.heap.content v).toEngine with
  | error e => rfl
  | ok e => exact runIn_ofExcept _ _ _

/-- A term of a value that a handle stands in mentions the instance by its name. -/
theorem Value.Mentions.infix_of_term (hv : v.Mentions h) {found : Term}
    (hrun : (term v).runIn world s = (.ok found, t)) : h.mention.toList <:+: found.text.toList := by
  rw [runIn_term, Prod.mk.injEq] at hrun
  obtain ⟨e, he, hfound⟩ := Except.ok_of_bind hrun.1
  have hspells := found.spells
  rw [EngineValue.value_of_term hfound] at hspells
  exact ((hv.content s.heap).contains he).infix_of_render hspells

/-- A command that mentions an instance as an address was sent. -/
def State.Says (t : State) (h : InstanceHandle) : Prop :=
  ∃ e : Expression, Event.command (.evaluate e) ∈ t.history.toList ∧
    h.mention.toList <:+: e.text.toList

/-- What the engine was asked is written. -/
theorem mem_history_of_eval {e : Expression} {found : EngineValue} (hworld : world.Orderly)
    (hrun : (eval e).runIn world s = (.ok found, t)) :
    Event.command (.evaluate e) ∈ t.history.toList := by
  have hsent := history_of_eval hworld (isOpen_of_eval hrun) e
  rw [hrun] at hsent
  exact hsent.subset (by simp)

theorem says_of_eval {e : Expression} {found : EngineValue} (hworld : world.Orderly)
    (hrun : (eval e).runIn world s = (.ok found, t))
    (hmention : h.mention.toList <:+: e.text.toList) :
    t.Says h :=
  ⟨e, mem_history_of_eval hworld hrun, hmention⟩

theorem infix_spacedTerms {terms : List Term} {found : Term} (hmem : found ∈ terms) :
    found.text.toList <:+: (spacedTerms terms).toList := by
  have hspaced : found.text.toList <:+: (" " ++ found.text).toList := ⟨[' '], [], by simp⟩
  exact hspaced.trans (infix_join_of_mem (List.mem_map_of_mem hmem))

theorem infix_spacedSlots {slots : List (String × Term)} {slot : String × Term}
    (hmem : slot ∈ slots) :
    slot.2.text.toList <:+: (spacedSlots slots).toList := by
  have hslot : slot.2.text.toList <:+: (slotText slot).toList := infix_append _ _ _
  have hspaced : (slotText slot).toList <:+: (" " ++ slotText slot).toList := ⟨[' '], [], by simp⟩
  exact hslot.trans (hspaced.trans (infix_join_of_mem (List.mem_map_of_mem hmem)))

/-- Among the terms of values is one that mentions what stands in one of the values. -/
theorem exists_mentioning_of_mapM {values : List Value} {terms : List Term} (hv : v ∈ values)
    (hmentions : v.Mentions h) (hrun : (values.mapM term).runIn world s = (.ok terms, t)) :
    ∃ found ∈ terms, h.mention.toList <:+: found.text.toList := by
  induction values generalizing s terms with
  | nil => cases hv
  | cons w rest ih =>
    rw [List.mapM_cons] at hrun
    obtain ⟨first, u, hfirst, hmore⟩ := ok_of_bind hrun
    obtain ⟨others, _, hothers, hreturn⟩ := ok_of_bind hmore
    cases hreturn
    obtain rfl | hv := List.mem_cons.mp hv
    · exact ⟨first, List.mem_cons_self, hmentions.infix_of_term hfirst⟩
    · obtain ⟨found, hmem, hcontained⟩ := ih hv hothers
      exact ⟨found, List.mem_cons_of_mem _ hmem, hcontained⟩

theorem exists_mentioning_of_slotTerms {slots : List (String × Value)}
    {terms : List (String × Term)} {slot : String × Value} (hslot : slot ∈ slots)
    (hmentions : slot.2.Mentions h) (hrun : (slotTerms slots).runIn world s = (.ok terms, t)) :
    ∃ found ∈ terms, h.mention.toList <:+: found.2.text.toList := by
  induction slots generalizing s terms with
  | nil => cases hslot
  | cons first rest ih =>
    obtain ⟨name, _, -, hmore⟩ := ok_of_bind hrun
    obtain ⟨found, _, hfound, hmore⟩ := ok_of_bind hmore
    obtain ⟨others, _, hothers, hreturn⟩ := ok_of_bind hmore
    cases hreturn
    obtain rfl | hslot := List.mem_cons.mp hslot
    · exact ⟨(name, found), List.mem_cons_self, hmentions.infix_of_term hfound⟩
    · obtain ⟨found, hmem, hcontained⟩ := ih hslot hothers
      exact ⟨found, List.mem_cons_of_mem _ hmem, hcontained⟩

/-- The operations of handles that take values, where a handle on an instance stands in one of
these. -/
inductive Mentioning (h : InstanceHandle) : {α : Type} → Act α → Prop
  | setSlot (g : InstanceHandle) (name : Value) {v : Value} (hv : v.Mentions h) :
      Mentioning h (g.setSlot name v)
  | send (g : InstanceHandle) (message : Value) {args : List Value} {v : Value} (hmem : v ∈ args)
      (hv : v.Mentions h) : Mentioning h (g.send message args)
  | newInstance (c : ClassHandle) (name : Value) {slots : List (String × Value)}
      {slot : String × Value}
      (hmem : slot ∈ slots) (hv : slot.2.Mentions h) : Mentioning h (c.newInstance name slots)
  | modify (f : FactHandle) {changes : List (String × Value)} {change : String × Value}
      (hmem : change ∈ changes) (hv : change.2.Mentions h) : Mentioning h (f.modify changes)

/-- An operation that takes values and returns has named the instances of all handles in the values,
whether the handles are current or not. -/
theorem Mentioning.says {α : Type} {act : Act α} (hmentioning : Mentioning h act)
    (hworld : world.Orderly) {a : α} (hrun : act.runIn world s = (.ok a, t)) : t.Says h := by
  cases hmentioning with
  | setSlot g name hv =>
    obtain ⟨_, _, -, hrun⟩ := ok_of_bind hrun
    obtain ⟨-, -, hrun⟩ := ok_of_guardMutation hrun
    obtain ⟨slot, _, -, hrun⟩ := ok_of_bind hrun
    obtain ⟨found, _, hfound, hrun⟩ := ok_of_bind hrun
    obtain ⟨_, _, heval, hreturn⟩ := ok_of_bind hrun
    cases hreturn
    exact says_of_eval hworld heval ((hv.infix_of_term hfound).trans (infix_append _ _ _))
  | send g message hmem hv =>
    obtain ⟨_, _, -, hrun⟩ := ok_of_bind hrun
    obtain ⟨terms, _, hterms, hrun⟩ := ok_of_bind hrun
    obtain ⟨name, _, -, hrun⟩ := ok_of_bind hrun
    obtain ⟨found, hfound, hcontained⟩ := exists_mentioning_of_mapM hmem hv hterms
    exact says_of_eval hworld hrun
      (hcontained.trans ((infix_spacedTerms hfound).trans (infix_append _ _ _)))
  | @newInstance c name slots _ hmem hv =>
    obtain ⟨_, _, -, hrun⟩ := ok_of_bind hrun
    obtain ⟨given, u, hrun⟩ : ∃ given u, Act.runIn (do
        createInstance (.makeInstance given c.name (← slotTerms slots))) world u = (.ok a, t) := by
      dsimp only at hrun
      split at hrun
      · exact ⟨_, _, hrun⟩
      · obtain ⟨given, u, -, hrun⟩ := ok_of_bind hrun
        exact ⟨given, u, hrun⟩
    obtain ⟨terms, _, hterms, hrun⟩ := ok_of_bind hrun
    obtain ⟨found, hfound, hcontained⟩ := exists_mentioning_of_slotTerms hmem hv hterms
    obtain ⟨-, -, hrun⟩ := ok_of_guardMutation hrun
    obtain ⟨made, _, heval, hrun⟩ := ok_of_bind hrun
    have hsays := says_of_eval hworld heval
      (hcontained.trans ((infix_spacedSlots hfound).trans (infix_append _ _ _)))
    split at hrun
    · cases hrun
      exact hsays
    · cases hrun
      exact hsays
    · cases hrun
  | modify f hmem hv =>
    obtain ⟨_, _, -, hrun⟩ := ok_of_bind hrun
    obtain ⟨-, -, hrun⟩ := ok_of_guardMutation hrun
    obtain ⟨_, _, -, hrun⟩ := ok_of_bind hrun
    obtain ⟨-, hrun⟩ := ok_of_refuse hrun
    obtain ⟨terms, _, hterms, hrun⟩ := ok_of_bind hrun
    obtain ⟨found, hfound, hcontained⟩ := exists_mentioning_of_slotTerms hmem hv hterms
    obtain ⟨made, _, heval, hrun⟩ := ok_of_bind hrun
    have hsays := says_of_eval hworld heval
      (hcontained.trans ((infix_spacedSlots hfound).trans (infix_append _ _ _)))
    unfold factIn at hrun
    split at hrun
    · cases hrun
      exact hsays
    · cases hrun

end

/-! ### A stale handle in a value -/

/-- An engine that says yes to everything. -/
def agreeingEngine (_ : Array Event) (_ : Command) : Reply := { outcome := .ok (.symbol "TRUE") }

theorem term_list_handle (h : InstanceHandle) :
    term (.list [.instanceHandle h]) =
      pure ⟨.multifield [.instanceAddress h], "(create$" ++ String.join [" " ++ h.mention] ++ ")",
        rfl⟩ := by
  have hcontent : ∀ heap : Heap,
      heap.content (.list [.instanceHandle h]) = .list [.instanceHandle h] := by
    intro heap
    simp [Heap.content, Value.settledWithin, settledEach]
  funext world s
  change (term _).runIn world s = _
  rw [runIn_term, hcontent]
  rfl

/-- In the second data epoch, a handle from the first stands in a list that a slot is set to. The
handle is not current, and the order is sent for all that, with the name of the instance in it. -/
theorem stale_handle_written :
    let world := World.ofDepth {} {} agreeingEngine 1
    let s : State := { dataEpoch := 1 }
    let stale : InstanceHandle := ⟨"a", 0, 0⟩
    let act := InstanceHandle.setSlot ⟨"b", 1, 1⟩ (.text "partner") (.list [.instanceHandle stale])
    stale.isCurrent s = false ∧ (act.runIn world s).1 = .ok ⟨⟩ ∧
      (act.leaves world s).Says stale := by
  intro world s stale act
  have hreturns : (act.runIn world s).1 = .ok ⟨⟩ := by
    dsimp only [act]
    unfold InstanceHandle.setSlot
    rw [term_list_handle]
    rfl
  have hworld : world.Orderly := World.ofDepth_orderly {} {} agreeingEngine 1
  refine ⟨rfl, hreturns, Mentioning.says ?_ hworld (Prod.ext hreturns rfl)⟩
  exact .setSlot _ _ (.list List.mem_cons_self .self)

end RuleMarshal
