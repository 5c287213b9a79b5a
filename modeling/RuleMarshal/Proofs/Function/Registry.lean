import RuleMarshal.Proofs.Computation.Result
import RuleMarshal.Proofs.Environment.Outstanding
import RuleMarshal.Proofs.Function.Signature
import RuleMarshal.Proofs.Session.Evolution
/-!
Registered functions and the functions that the engine has bound. An engine may forget functions
when it clears; what it has bound after some events follows from its replies (`boundNames`). Nothing
but an order changes that, nor which functions are registered (`Evolves.sameBindings`), so between
the orders it is enough to follow registering and clearing. They keep the two tables in step: the
engine has the registrations bound that are listed, if any (`Upkept`). A clear that returns has
asked for every function that is listed, and has bound those again that were forgotten
(`registered_survive_clear`).
-/

set_option autoImplicit false
set_option relaxedAutoImplicit false

namespace RuleMarshal

open Act

/-! ### What the engine has bound -/

section

variable (engine : Array Event → Command → Reply)

/-- The names of the functions that an engine has bound after some events, the last of which comes
first: those that it did not refuse to bind, but for those that it has forgotten since. -/
def boundNames : List Event → List String
  | [] => []
  | .command c :: past =>
    let reply := engine past.reverse.toArray c
    let kept := (boundNames past).filter fun name ↦ !reply.forgets.contains name
    match c, reply.outcome with
    | .bindFunction name, .ok _ => name :: kept
    | _, _ => kept
  | _ :: past => boundNames past

/-- An engine that forgets functions at most when it clears, and says truthfully whether it knows a
function: what it answers counts as true if and only if it has the name bound. -/
structure Remembers : Prop where
  forgets : ∀ history c, c ≠ .clear → (engine history c).forgets = []
  truthful : ∀ history name v, (engine history (.evaluate (.isFunction name))).outcome = .ok v →
    ∀ world s value t, v.toEngine.runIn world s = (.ok value, t) →
      (value.isTrue = true ↔ name ∈ boundNames engine history.toList.reverse)

/-- Two states with the same registered functions, in which the engine has the same functions
bound. -/
structure SameBindings (s t : State) : Prop where
  bound : t.bound = s.bound
  functions : t.functions = s.functions
  names : boundNames engine t.past = boundNames engine s.past

/-- A state after a command was sent, with what the engine has forgotten. -/
def State.sending (s : State) (c : Command) : State :=
  { s with
    history := s.history.push (.command c)
    bound := s.bound.filter fun p ↦ !(engine s.history c).forgets.contains p.1 }

end

section

variable {engine : Array Event → Command → Reply} {s t u : State}

theorem SameBindings.refl (s : State) : SameBindings engine s s := ⟨rfl, rfl, rfl⟩

theorem SameBindings.trans (hst : SameBindings engine s t) (htu : SameBindings engine t u) :
    SameBindings engine s u :=
  ⟨htu.bound.trans hst.bound, htu.functions.trans hst.functions, htu.names.trans hst.names⟩

theorem boundNames_cons {e : Event} (he : e.isCommand = false) (past : List Event) :
    boundNames engine (e :: past) = boundNames engine past := by
  cases e <;> first | rfl | cases he

theorem State.past_sending (s : State) (c : Command) :
    (s.sending engine c).past = .command c :: s.past :=
  s.past_push (.command c)

/-- What the engine has bound behind a command that is sent, by its reply. -/
theorem boundNames_sending (s : State) (c : Command) :
    boundNames engine (s.sending engine c).past =
      let kept := (boundNames engine s.past).filter fun name ↦
        !(engine s.history c).forgets.contains name
      match c, (engine s.history c).outcome with
      | .bindFunction name, .ok _ => name :: kept
      | _, _ => kept := by
  rw [State.past_sending, boundNames.eq_def]
  dsimp only
  rw [State.toArray_reverse_past]

/-- Only a command to clear makes the engine forget. -/
theorem Remembers.bound_sending (hengine : Remembers engine) {c : Command} (hclear : c ≠ .clear) :
    (s.sending engine c).bound = s.bound := by
  unfold State.sending
  rw [hengine.forgets s.history c hclear]
  exact List.filter_eq_self.mpr fun _ _ ↦ rfl

/-- A command that neither clears nor binds a function changes no bindings. -/
theorem Remembers.sameBindings_sending (hengine : Remembers engine) {c : Command}
    (hclear : c ≠ .clear)
    (hbind : ∀ name v, c = .bindFunction name → (engine s.history c).outcome ≠ .ok v) :
    SameBindings engine s (s.sending engine c) := by
  refine ⟨hengine.bound_sending hclear, rfl, ?_⟩
  rw [boundNames_sending, hengine.forgets s.history c hclear]
  dsimp only
  split
  · rename_i name v houtcome
    exact absurd houtcome (hbind name v rfl)
  · simp

end

/-- As long as only questions are asked, and while host functions run, all bindings stay as they
are. -/
theorem Evolves.sameBindings {σ : Setup} {m : Manner} {s t : State} (hengine : Remembers σ.engine)
    (hst : Evolves σ m s t) (hcalm : m = .asking ∨ 0 < s.depth) : SameBindings σ.engine s t := by
  induction hst with
  | refl m s => exact .refl s
  | trans hst htu hs ht => exact (hs hcalm).trans (ht (hst.depth_eq ▸ hcalm))
  | note m s e hevent =>
    refine ⟨rfl, rfl, ?_⟩
    rw [s.past_push e, boundNames_cons hevent]
  | send m s c hopen hguard =>
    have hfree : c.isGuarded ≠ true := by
      intro hguarded
      obtain ⟨hmanner, hrest⟩ := hguard hguarded
      rcases hcalm with hasking | hdepth
      · exact hmanner hasking
      · omega
    apply hengine.sameBindings_sending
    · rintro rfl
      exact hfree rfl
    · rintro name v rfl
      exact absurd rfl hfree
  | call m hrun ih =>
    obtain ⟨hbound, hfunctions, hnames⟩ := ih (.inr (Nat.succ_pos _))
    exact ⟨hbound, hfunctions, hnames⟩
  | bind m s hmanner hrest =>
    rcases hcalm with hasking | hdepth
    · exact absurd hasking hmanner
    · omega
  | register s hrest =>
    rcases hcalm with hasking | hdepth
    · cases hasking
    · omega
  | _ => exact ⟨rfl, rfl, rfl⟩

/-! ### Exchanges -/

namespace Channel

variable {world : World}

theorem serveEach_answers (calls : List EngineCall) (s : State) :
    ∃ t, Act.runIn (calls.forM serve) world s = (.ok ⟨⟩, t) := by
  induction calls generalizing s with
  | nil => exact ⟨s, rfl⟩
  | cons c rest ih =>
    obtain ⟨u, hserved⟩ := serve_answers world c s
    obtain ⟨t, hrest⟩ := ih _
    refine ⟨t, ?_⟩
    show Act.runIn (serve c >>= fun _ ↦ rest.forM serve) world s = _
    rw [runIn_bind_of_ok hserved, hrest]

variable {s t : State} (hworld : world.Orderly) (hengine : Remembers world.engine)
include hworld hengine

/-- An exchange ends with the engine's outcome, and the functions that run meanwhile change no
bindings. -/
theorem sameBindings_exchange (c : Command) (s : State) :
    ∃ t, (exchange c).runIn world s = (.ok (world.engine s.history c).outcome, t) ∧
      SameBindings world.engine (s.sending world.engine c) t := by
  let calls := (world.engine s.history c).calls
  have hanswers : ∃ t,
      Act.runIn (calls.forM serve) world (s.sending world.engine c) = (.ok ⟨⟩, t) :=
    serveEach_answers calls _
  obtain ⟨t, hserved⟩ := hanswers
  have hcalls : Act.Keeps (Evolves world.setup .asking) world (calls.forM serve) :=
    .forM _ fun call _ ↦ keeps_serve hworld call
  refine ⟨t, ?_, (hcalls.of_runIn hserved).sameBindings hengine (.inl rfl)⟩
  rw [runIn_exchange]
  show Act.runIn (_ >>= fun _ ↦ _) world (s.sending world.engine c) = _
  rw [runIn_bind_of_ok hserved]
  rfl

/-- Asking whether the engine knows a function changes no bindings, and is answered with whether it
has the name bound. -/
theorem sameBindings_isFunction {name : String} {answer : Except Error Bool}
    (hrun : (isFunction name).runIn world s = (answer, t)) :
    SameBindings world.engine s t ∧
      ∀ known, answer = .ok known → (known = true ↔ name ∈ boundNames world.engine s.past) := by
  constructor
  · have hasks : (isFunction name).Keeps (Evolves world.setup .asking) world :=
      ((hworld.frame .asking).evaluate rfl).bind fun _ ↦ .pure _
    exact (hasks.of_runIn hrun).sameBindings hengine (.inl rfl)
  · rintro known rfl
    obtain ⟨value, u, hvalue, hreturn⟩ := ok_of_bind hrun
    cases hreturn
    obtain ⟨v, w, hsent, htranslated⟩ := ok_of_bind hvalue
    obtain ⟨-, hexchange⟩ := ok_of_send hsent
    obtain ⟨x, hreplied, -⟩ := sameBindings_exchange hworld hengine (.evaluate (.isFunction name)) s
    have houtcome : (world.engine s.history (.evaluate (.isFunction name))).outcome = .ok v := by
      rw [hreplied] at hexchange
      exact Except.ok.inj (congrArg Prod.fst hexchange)
    exact hengine.truthful s.history name v houtcome world w value _ htranslated

/-- Binding a function changes no bindings if it fails, and otherwise puts the function in the place
of what was bound under the name. -/
theorem cases_of_bindFunction {name : String} {r : Registration} {answer : Except Error PUnit}
    (hrun : (bindFunction name r).runIn world s = (answer, t)) :
    (∃ e, answer = .error e) ∧ SameBindings world.engine s t ∨
      answer = .ok ⟨⟩ ∧ t.bound = putNamed s.bound name r ∧ t.functions = s.functions ∧
        boundNames world.engine t.past = name :: boundNames world.engine s.past := by
  unfold bindFunction at hrun
  cases hclosed : s.closed with
  | true =>
    have hstale : (send (.bindFunction name) (.function name) (.text name)).runIn world s =
        (.error (.stale .closed), s) := by
      unfold send
      rw [runIn_requireOpen_bind, if_pos hclosed]
    rw [runIn_bind, runIn_discard, hstale] at hrun
    cases hrun
    exact .inl ⟨⟨_, rfl⟩, .refl s⟩
  | false =>
    obtain ⟨u, hexchange, hsame⟩ := sameBindings_exchange hworld hengine (.bindFunction name) s
    rw [runIn_bind, runIn_discard, runIn_send_of_exchange hclosed hexchange] at hrun
    cases houtcome : (world.engine s.history (.bindFunction name)).outcome with
    | error diagnostic =>
      rw [houtcome] at hrun
      cases hrun
      refine .inl ⟨⟨_, rfl⟩, SameBindings.trans ?_ hsame⟩
      apply hengine.sameBindings_sending (c := .bindFunction name) nofun
      rintro _ v ⟨rfl⟩ hok
      cases houtcome.symm.trans hok
    | ok v =>
      rw [houtcome] at hrun
      cases hrun
      refine .inr ⟨rfl, ?_, hsame.functions, ?_⟩
      · show putNamed u.bound name r = _
        rw [hsame.bound, hengine.bound_sending (c := .bindFunction name) nofun]
      · show boundNames world.engine u.past = _
        rw [hsame.names, boundNames_sending, houtcome,
          hengine.forgets s.history (.bindFunction name) nofun]
        simp

end Channel

/-! ### Two tables in step -/

/-- Registered functions and bindings are in step: the engine has bound what its replies say, every
function that is bound is the one that is listed, and none is listed twice. -/
structure Upkept (engine : Array Event → Command → Reply) (s : State) : Prop where
  names : ∀ name, name ∈ boundNames engine s.past ↔ (s.bound.lookup name).isSome = true
  listed : ∀ name r, s.bound.lookup name = some r → s.functions.lookup name = some r
  keyed : (s.functions.map (·.1)).Nodup

/-- A state from which functions were bound again: the tables are in step still, the same functions
are listed, and what was bound is. -/
structure Restored (engine : Array Event → Command → Reply) (s t : State) : Prop where
  upkept : Upkept engine t
  functions : t.functions = s.functions
  bound : ∀ name, (s.bound.lookup name).isSome = true → (t.bound.lookup name).isSome = true

section

variable {engine : Array Event → Command → Reply} {s t u : State}

theorem Upkept.of_same (hs : Upkept engine s) (hst : SameBindings engine s t) :
    Upkept engine t where
  names name := by rw [hst.names, hst.bound, hs.names]
  listed name r := by
    rw [hst.bound, hst.functions]
    exact hs.listed name r
  keyed := hst.functions ▸ hs.keyed

theorem Restored.of_same (hs : Upkept engine s) (hst : SameBindings engine s t) :
    Restored engine s t where
  upkept := hs.of_same hst
  functions := hst.functions
  bound name := by rw [hst.bound]; exact id

theorem Restored.trans (hst : Restored engine s t) (htu : Restored engine t u) :
    Restored engine s u :=
  ⟨htu.upkept, htu.functions.trans hst.functions, fun name h ↦ htu.bound name (hst.bound name h)⟩

/-- What is forgotten leaves the tables in step. -/
theorem Upkept.forget (hs : Upkept engine s) {c : Command}
    (hbind : ∀ name, c ≠ .bindFunction name) :
    Upkept engine (s.sending engine c) where
  names name := by
    have hkept : (s.sending engine c).bound.lookup name =
        if !(engine s.history c).forgets.contains name then s.bound.lookup name else none :=
      lookup_filter (fun name ↦ !(engine s.history c).forgets.contains name) s.bound name
    rw [boundNames_sending, hkept]
    dsimp only
    split
    · exact absurd rfl (hbind _)
    · rw [List.mem_filter, hs.names]
      split <;> simp_all
  listed name r hlookup := by
    have hkept :=
      lookup_filter (fun name ↦ !(engine s.history c).forgets.contains name) s.bound name
    change (s.bound.filter _).lookup name = some r at hlookup
    rw [hkept] at hlookup
    split at hlookup
    · exact hs.listed name r hlookup
    · cases hlookup
  keyed := hs.keyed

/-- Binding a function under a name leaves the tables in step if it is the one that is listed. -/
theorem Upkept.put (hs : Upkept engine s) {name : String} {r : Registration}
    (hbound : t.bound = putNamed s.bound name r)
    (hnames : boundNames engine t.past = name :: boundNames engine s.past)
    (hlisted : t.functions.lookup name = some r)
    (hothers : ∀ other, other ≠ name → t.functions.lookup other = s.functions.lookup other)
    (hkeyed : (t.functions.map (·.1)).Nodup) : Upkept engine t where
  names other := by
    rw [hnames, hbound, List.mem_cons, hs.names]
    by_cases hother : other = name
    · simp [hother]
    · simp [hother, lookup_putNamed_ne s.bound r hother]
  listed other q hlookup := by
    rw [hbound] at hlookup
    by_cases hother : other = name
    · subst hother
      rw [lookup_putNamed_self] at hlookup
      rw [hlisted, hlookup]
    · rw [lookup_putNamed_ne s.bound r hother] at hlookup
      rw [hothers other hother]
      exact hs.listed other q hlookup
  keyed := hkeyed

end

/-! ### Clearing -/

namespace Environment

/-- Makes one function known to the engine again, if it has lost it. -/
def restoreOne (p : String × Registration) : Act Unit := do
  if !(← Channel.isFunction p.1) then Channel.bindFunction p.1 p.2

/-- Clearing up to a point: of the functions that are listed only those that a selection leaves are
made known again. -/
def clearingUpTo (select : List (String × Registration) → List (String × Registration)) :
    Act Unit := do
  guardMutation "clear"
  discard (Channel.command .clear)
  endEpochs
  (select (← get).functions).forM restoreOne

theorem clear_eq_clearingUpTo : clear = clearingUpTo id := rfl

section

variable {world : World} {s t : State} (hworld : world.Orderly) (hengine : Remembers world.engine)
include hworld hengine

theorem restored_of_restoreOne {p : String × Registration} {answer : Except Error PUnit}
    (hs : Upkept world.engine s) (hp : s.functions.lookup p.1 = some p.2)
    (hrun : (restoreOne p).runIn world s = (answer, t)) :
    Restored world.engine s t ∧ (answer = .ok ⟨⟩ → (t.bound.lookup p.1).isSome = true) := by
  unfold restoreOne at hrun
  rw [runIn_bind] at hrun
  cases hasked : (Channel.isFunction p.1).runIn world s with
  | mk found u =>
    obtain ⟨hsame, hfound⟩ := Channel.sameBindings_isFunction hworld hengine hasked
    have hu : Restored world.engine s u := .of_same hs hsame
    rw [hasked] at hrun
    cases found with
    | error e =>
      cases hrun
      exact ⟨hu, nofun⟩
    | ok known =>
      cases known with
      | true =>
        cases hrun
        refine ⟨hu, fun _ ↦ hu.bound p.1 ?_⟩
        exact (hs.names p.1).mp ((hfound true rfl).mp rfl)
      | false =>
        obtain ⟨⟨e, rfl⟩, hunbound⟩ | ⟨rfl, hbound, hfunctions, hnames⟩ :=
          Channel.cases_of_bindFunction hworld hengine hrun
        · exact ⟨hu.trans (.of_same hu.upkept hunbound), nofun⟩
        · have hlisted : t.functions.lookup p.1 = some p.2 := by rw [hfunctions, hu.functions, hp]
          have ht : Upkept world.engine t := hu.upkept.put hbound hnames hlisted
            (fun other _ ↦ by rw [hfunctions]) (hfunctions ▸ hu.upkept.keyed)
          refine ⟨hu.trans ⟨ht, hfunctions, fun name hname ↦ ?_⟩, fun _ ↦ ?_⟩
          · rw [← ht.names, hnames]
            exact List.mem_cons_of_mem _ ((hu.upkept.names name).mpr hname)
          · rw [hbound, lookup_putNamed_self]
            rfl

/-- Making functions that are listed known again keeps the tables in step, and has bound them if it
answers. -/
theorem restored_of_forM (ps : List (String × Registration)) {answer : Except Error PUnit}
    (hs : Upkept world.engine s) (hps : ∀ p ∈ ps, s.functions.lookup p.1 = some p.2)
    (hrun : Act.runIn (ps.forM restoreOne) world s = (answer, t)) :
    Restored world.engine s t ∧
      (answer = .ok ⟨⟩ → ∀ p ∈ ps, (t.bound.lookup p.1).isSome = true) := by
  induction ps generalizing s with
  | nil =>
    cases hrun
    exact ⟨.of_same hs (.refl _), fun _ _ hp ↦ nomatch hp⟩
  | cons p rest ih =>
    change Act.runIn (restoreOne p >>= fun _ ↦ rest.forM restoreOne) world s = _ at hrun
    rw [runIn_bind] at hrun
    cases hfirst : (restoreOne p).runIn world s with
    | mk found u =>
      obtain ⟨hu, hfound⟩ := restored_of_restoreOne hworld hengine hs
        (hps p List.mem_cons_self) hfirst
      rw [hfirst] at hrun
      cases found with
      | error e =>
        cases hrun
        exact ⟨hu, nofun⟩
      | ok _ =>
        have hrest : ∀ q ∈ rest, u.functions.lookup q.1 = some q.2 := by
          rw [hu.functions]
          exact fun q hq ↦ hps q (List.mem_cons_of_mem p hq)
        obtain ⟨ht, hall⟩ := ih hu.upkept hrest hrun
        refine ⟨hu.trans ht, fun hanswer q hq ↦ ?_⟩
        rcases List.mem_cons.mp hq with rfl | hq
        · exact ht.bound q.1 (hfound rfl)
        · exact hall hanswer q hq

/-- Clearing, however far it gets, keeps the tables in step, and has bound the functions of its
selection if it answers. -/
theorem upkept_of_clearingUpTo
    {select : List (String × Registration) → List (String × Registration)}
    (hselect : ∀ functions, select functions ⊆ functions) {answer : Except Error PUnit}
    (hs : Upkept world.engine s) (hrun : (clearingUpTo select).runIn world s = (answer, t)) :
    Upkept world.engine t ∧ t.functions = s.functions ∧
      (answer = .ok ⟨⟩ → ∀ p ∈ select s.functions, (t.bound.lookup p.1).isSome = true) := by
  unfold clearingUpTo at hrun
  rw [runIn_guardMutation_bind] at hrun
  by_cases hclosed : s.closed
  · rw [if_pos hclosed] at hrun
    cases hrun
    exact ⟨hs, rfl, nofun⟩
  rw [if_neg hclosed] at hrun
  by_cases hdepth : 0 < s.depth
  · rw [if_pos hdepth] at hrun
    cases hrun
    exact ⟨hs, rfl, nofun⟩
  rw [if_neg hdepth] at hrun
  obtain ⟨u, hexchange, hsame⟩ := Channel.sameBindings_exchange hworld hengine .clear s
  have hu : Upkept world.engine u := (hs.forget (c := .clear) fun _ ↦ nofun).of_same hsame
  have hfunctions : u.functions = s.functions := hsame.functions
  rw [runIn_bind, runIn_discard] at hrun
  unfold Channel.command at hrun
  rw [Channel.runIn_requireOpen_bind, if_neg hclosed, runIn_bind_of_ok hexchange] at hrun
  cases houtcome : (world.engine s.history .clear).outcome with
  | error diagnostic =>
    rw [houtcome] at hrun
    cases hrun
    exact ⟨hu, hfunctions, nofun⟩
  | ok v =>
    rw [houtcome] at hrun
    -- The epochs end between the command and the functions, which is nothing to the tables.
    let ended : State :=
      { u with constructEpoch := u.constructEpoch + 1, dataEpoch := u.dataEpoch + 1 }
    have hended : Upkept world.engine ended := ⟨hu.names, hu.listed, hu.keyed⟩
    have hlisted : ∀ p ∈ select ended.functions, ended.functions.lookup p.1 = some p.2 := fun p hp ↦
      lookup_of_mem_of_nodup hended.keyed (hselect _ hp)
    have hrestoring : Act.runIn ((select ended.functions).forM restoreOne) world ended =
        (answer, t) := hrun
    obtain ⟨ht, hall⟩ := restored_of_forM hworld hengine _ hended hlisted hrestoring
    refine ⟨ht.upkept, ht.functions.trans hfunctions, fun hanswer p hp ↦ ?_⟩
    exact hall hanswer p (by rwa [show ended.functions = s.functions from hfunctions])

end

end Environment

/-! ### Registering -/

namespace Environment

variable {world : World} {s t : State}

theorem runIn_functionName {f : Callable} {name : Value} {answer : Except Error HostText}
    (hrun : (functionName f name).runIn world s = (answer, t)) : t = s := by
  have : IsPreorder State fun s t ↦ t = s :=
    { refl := fun _ ↦ rfl, trans := fun _ _ _ hst htu ↦ htu.trans hst }
  have hkeeps : (functionName f name).Keeps (fun s t ↦ t = s) world :=
    Meets.iff_keeps.mp (meets_functionName f name)
  exact hkeeps.of_runIn hrun

/-- Registering fails before it changes anything, or comes to binding the function under the name of
a signature that was read of it, and then listing it there. -/
theorem runIn_register (f : Callable) (name : Value) :
    (∃ e, (register f name).runIn world s = (.error e, s)) ∨
      ∃ signature r, r.signature = signature ∧ r.function = f ∧
        (register f name).runIn world s = Act.runIn (do
          Channel.bindFunction signature.name r
          modify fun s ↦ { s with functions := putNamed s.functions signature.name r }
          return signature) world { s with serial := s.serial + 1 } := by
  unfold register
  rw [runIn_guardMutation_bind]
  by_cases hclosed : s.closed
  · rw [if_pos hclosed]
    exact .inl ⟨_, rfl⟩
  rw [if_neg hclosed]
  by_cases hdepth : 0 < s.depth
  · rw [if_pos hdepth]
    exact .inl ⟨_, rfl⟩
  rw [if_neg hdepth, runIn_bind]
  cases hname : (functionName f name).runIn world s with
  | mk found u =>
    obtain rfl := runIn_functionName hname
    cases found with
    | error e => exact .inl ⟨e, rfl⟩
    | ok text =>
      dsimp only
      rw [runIn_bind_of_ok (runIn_read world _), runIn_bind, runIn_ofExcept]
      cases hsig : Signature.inspect world.types text f with
      | error e => exact .inl ⟨e, rfl⟩
      | ok sig =>
        obtain rfl := Signature.text_of_inspect hsig
        let signature : Signature := { sig with serial := u.serial + 1 }
        let listed := (u.functions.lookup sig.text.content).map (·.listedAs)
        exact .inr ⟨signature, ⟨signature, f, listed.getD sig.text⟩, rfl, rfl, rfl⟩

/-- Registering changes no bindings if it fails, and otherwise binds the function under the name of
its signature and lists it there. -/
theorem cases_of_register (hworld : world.Orderly) (hengine : Remembers world.engine) {f : Callable}
    {name : Value} {answer : Except Error Signature}
    (hrun : (register f name).runIn world s = (answer, t)) :
    (∃ e, answer = .error e) ∧ SameBindings world.engine s t ∨
      ∃ signature r, answer = .ok signature ∧ r.signature = signature ∧ r.function = f ∧
        t.bound = putNamed s.bound signature.name r ∧
          t.functions = putNamed s.functions signature.name r ∧
        boundNames world.engine t.past = signature.name :: boundNames world.engine s.past := by
  obtain ⟨e, hfails⟩ | ⟨signature, r, hsignature, hfunction, hbinds⟩ := runIn_register f name
  · rw [hfails] at hrun
    cases hrun
    exact .inl ⟨⟨e, rfl⟩, .refl s⟩
  · rw [hbinds, runIn_bind] at hrun
    let numbered : State := { s with serial := s.serial + 1 }
    have hnumbered : SameBindings world.engine s numbered := ⟨rfl, rfl, rfl⟩
    cases hbound : (Channel.bindFunction signature.name r).runIn world numbered with
    | mk found u =>
      rw [hbound] at hrun
      obtain ⟨⟨e, rfl⟩, hsame⟩ | ⟨rfl, hput, hfunctions, hnames⟩ :=
        Channel.cases_of_bindFunction hworld hengine hbound
      · cases hrun
        exact .inl ⟨⟨e, rfl⟩, hnumbered.trans hsame⟩
      · cases hrun
        refine .inr ⟨signature, r, rfl, hsignature, hfunction, hput, ?_, hnames⟩
        show putNamed u.functions signature.name r = _
        rw [hfunctions]

end Environment

/-! ### Any number of steps -/

/-- A step in the upkeep of the functions that the engine can call. -/
inductive Upkeep where
  | define (f : Callable) (name : Value)
  | clear

/-- What a step does; defining a function answers its signature. -/
def Upkeep.act : Upkeep → Act (Option Signature)
  | .define f name => some <$> Environment.register f name
  | .clear => (fun _ ↦ none) <$> Environment.clear

/-- What came of some steps, the last of which comes first. -/
abbrev UpkeepLog := List (Upkeep × Except Error (Option Signature))

/-- Steps lead from a state to another, with what came of each. -/
inductive Upkeeps (world : World) (begun : State) : UpkeepLog → State → Prop where
  | none : Upkeeps world begun [] begun
  | step {log : UpkeepLog} {s t : State} {u : Upkeep} {answer : Except Error (Option Signature)}
      (hlog : Upkeeps world begun log s) (hrun : u.act.runIn world s = (answer, t)) :
      Upkeeps world begun ((u, answer) :: log) t

/-- The function that was last registered under a name, and the signature that was answered for
it. -/
def lastRegistered (name : String) : UpkeepLog → Option (Signature × Callable)
  | [] => none
  | (.define f _, .ok (some signature)) :: log =>
    if signature.name = name then some (signature, f) else lastRegistered name log
  | _ :: log => lastRegistered name log

/-- What a registration calls, and the signature that it reads the arguments by. -/
def Registration.made (r : Registration) : Signature × Callable := (r.signature, r.function)

/-- The two tables are in step, and the functions that are listed are those that were registered
last. -/
structure Current (engine : Array Event → Command → Reply) (log : UpkeepLog) (s : State) :
    Prop extends Upkept engine s where
  last : ∀ name, (s.functions.lookup name).map (·.made) = lastRegistered name log

section

variable {world : World} {begun s t : State} {log : UpkeepLog}

/-- What is bound was registered last. -/
theorem Current.bound_last (hs : Current world.engine log s) {name : String} {r : Registration}
    (hlookup : s.bound.lookup name = some r) : lastRegistered name log = some r.made := by
  rw [← hs.last name, hs.listed name r hlookup]
  rfl

/-- What was registered last is bound, if all functions that are listed are. -/
theorem Current.bound_of_last (hs : Current world.engine log s)
    (hall : ∀ p ∈ s.functions, (s.bound.lookup p.1).isSome = true) {name : String}
    {made : Signature × Callable} (hlast : lastRegistered name log = some made) :
    name ∈ boundNames world.engine s.past ∧ ∃ r, s.bound.lookup name = some r ∧ r.made = made := by
  obtain ⟨listed, hlisted, -⟩ := Option.map_eq_some_iff.mp ((hs.last name).trans hlast)
  have hbound := hall (name, listed) (mem_of_lookup hlisted)
  obtain ⟨r, hr⟩ := Option.isSome_iff_exists.mp hbound
  constructor
  · exact (hs.names name).mpr hbound
  · exact ⟨r, hr, Option.some.inj ((hs.bound_last hr).symm.trans hlast)⟩

/-- Registering keeps the tables in step and current. -/
theorem Current.define (hworld : world.Orderly) (hengine : Remembers world.engine)
    (hs : Current world.engine log s) {f : Callable} {given : Value}
    {answer : Except Error Signature}
    (hrun : (Environment.register f given).runIn world s = (answer, t)) :
    Current world.engine ((.define f given, answer.map some) :: log) t := by
  obtain ⟨⟨e, rfl⟩, hsame⟩ | ⟨signature, r, rfl, hsignature, hfunction, hbound,
      hfunctions, hnames⟩ :=
    Environment.cases_of_register hworld hengine hrun
  · refine ⟨hs.of_same hsame, fun name ↦ ?_⟩
    rw [hsame.functions]
    exact hs.last name
  · constructor
    · apply hs.put hbound hnames
      · rw [hfunctions, lookup_putNamed_self]
      · intro other hother
        rw [hfunctions, lookup_putNamed_ne s.functions r hother]
      · rw [hfunctions]
        exact nodup_putNamed hs.keyed signature.name r
    · intro name
      show _ = if signature.name = name then some (signature, f) else lastRegistered name log
      rw [hfunctions]
      by_cases hname : signature.name = name
      · rw [if_pos hname, ← hname, lookup_putNamed_self, ← hsignature, ← hfunction]
        rfl
      · rw [if_neg hname, lookup_putNamed_ne s.functions r (Ne.symm hname)]
        exact hs.last name

/-- Clearing, however far it gets, keeps the tables in step and current. -/
theorem Current.clearingUpTo (hworld : world.Orderly) (hengine : Remembers world.engine)
    (hs : Current world.engine log s)
    {select : List (String × Registration) → List (String × Registration)}
    (hselect : ∀ functions, select functions ⊆ functions) {answer : Except Error PUnit}
    (hrun : (Environment.clearingUpTo select).runIn world s = (answer, t)) :
    Current world.engine log t := by
  obtain ⟨ht, hfunctions, -⟩ :=
    Environment.upkept_of_clearingUpTo hworld hengine hselect hs.toUpkept hrun
  refine ⟨ht, fun name ↦ ?_⟩
  rw [hfunctions]
  exact hs.last name

/-- Clearing keeps the tables in step and current, and has bound every function that is listed if it
answers. -/
theorem Current.clear (hworld : world.Orderly) (hengine : Remembers world.engine)
    (hs : Current world.engine log s) {answer : Except Error PUnit}
    (hrun : Environment.clear.runIn world s = (answer, t)) :
    Current world.engine log t ∧
      (answer = .ok ⟨⟩ → ∀ p ∈ t.functions, (t.bound.lookup p.1).isSome = true) := by
  have hselect : ∀ functions : List (String × Registration),
      id functions ⊆ functions := List.Subset.refl
  obtain ⟨-, hfunctions, hall⟩ :=
    Environment.upkept_of_clearingUpTo hworld hengine hselect hs.toUpkept hrun
  constructor
  · exact hs.clearingUpTo hworld hengine hselect hrun
  · rw [hfunctions]
    exact hall

/-- One step keeps the tables in step and current. -/
theorem Current.step (hworld : world.Orderly) (hengine : Remembers world.engine)
    (hs : Current world.engine log s) {u : Upkeep} {answer : Except Error (Option Signature)}
    (hrun : u.act.runIn world s = (answer, t)) : Current world.engine ((u, answer) :: log) t := by
  unfold Upkeep.act at hrun
  cases u with
  | define f given =>
    rw [runIn_map] at hrun
    cases hrun
    exact hs.define hworld hengine rfl
  | clear =>
    rw [runIn_map] at hrun
    cases hrun
    obtain ⟨ht, -⟩ := hs.clear hworld hengine rfl
    refine ⟨ht.toUpkept, fun name ↦ (ht.last name).trans ?_⟩
    cases (Environment.clear.runIn world s).1 <;> rfl

/-- Any number of steps, from a state in which nothing is registered, keep the tables in step and
current. -/
theorem Upkeeps.current (hworld : world.Orderly) (hengine : Remembers world.engine)
    (hfunctions : begun.functions = []) (hbound : begun.bound = [])
    (hnames : boundNames world.engine begun.past = []) (hlog : Upkeeps world begun log s) :
    Current world.engine log s := by
  induction hlog with
  | none =>
    constructor
    · constructor
      · intro name
        simp [hnames, hbound]
      · intro name r hlookup
        simp [hbound] at hlookup
      · simp [hfunctions]
    · intro name
      rw [hfunctions]
      rfl
  | step hlog hrun ih => exact ih.step hworld hengine hrun

/-- After any number of registrations and clears from a state in which nothing is registered, a
clear that returns leaves every name under which a function was ever registered bound to the one
that was registered last. Nothing else is ever bound, neither between the steps nor while a clear is
under way. -/
theorem registered_survive_clear (hworld : world.Orderly) (hengine : Remembers world.engine)
    (hfunctions : begun.functions = []) (hbound : begun.bound = [])
    (hnames : boundNames world.engine begun.past = []) (hlog : Upkeeps world begun log s) :
    (∀ t, Environment.clear.runIn world s = (.ok ⟨⟩, t) →
      ∀ name made, lastRegistered name log = some made →
        name ∈ boundNames world.engine t.past ∧ ∃ r, t.bound.lookup name = some r ∧ r.made = made) ∧
      (∀ name r, s.bound.lookup name = some r → lastRegistered name log = some r.made) ∧
      ∀ count answer t, (Environment.clearingUpTo (·.take count)).runIn world s = (answer, t) →
        ∀ name r, t.bound.lookup name = some r → lastRegistered name log = some r.made := by
  have hs : Current world.engine log s := hlog.current hworld hengine hfunctions hbound hnames
  refine ⟨?_, fun name r ↦ hs.bound_last, ?_⟩
  · intro t hclear name made hlast
    obtain ⟨ht, hall⟩ := hs.clear hworld hengine hclear
    exact ht.bound_of_last (hall rfl) hlast
  · intro count answer t hrun name r hlookup
    have ht : Current world.engine log t :=
      hs.clearingUpTo hworld hengine (fun functions ↦ List.take_subset count functions) hrun
    exact ht.bound_last hlookup

end

/-- The functions that are bound after some events by an engine that refuses to bind a function when
two events are behind it, and forgets everything when it clears. -/
def forgetfullyBound : List Event → List String
  | .command (.bindFunction name) :: past =>
    if past.length = 2 then forgetfullyBound past else name :: forgetfullyBound past
  | .command .clear :: _ => []
  | _ :: past => forgetfullyBound past
  | [] => []

/-- The engine that does so, and says which functions it knows. -/
def forgetfulEngine (history : Array Event) : Command → Reply
  | .bindFunction _ => { outcome := if history.size = 2 then .error "busy" else .ok .null }
  | .clear => { forgets := forgetfullyBound history.toList.reverse }
  | .evaluate (.isFunction name) =>
    { outcome := .ok
        (.symbol (if name ∈ forgetfullyBound history.toList.reverse then "TRUE" else "FALSE")) }
  | _ => {}

theorem boundNames_forgetfulEngine (past : List Event) :
    boundNames forgetfulEngine past = forgetfullyBound past := by
  induction past with
  | nil => rfl
  | cons e past ih =>
    have hkept : (boundNames forgetfulEngine past).filter (fun _ ↦ true) =
        forgetfullyBound past := by
      simp [ih]
    cases e with
    | command c =>
      cases c with
      | bindFunction name =>
        by_cases hlength : past.length = 2
        · simp [boundNames, forgetfullyBound, forgetfulEngine, hlength, ih]
        · simp [boundNames, forgetfullyBound, forgetfulEngine, hlength, ih]
      | clear => simp [boundNames, forgetfullyBound, forgetfulEngine, ih]
      | evaluate e => cases e <;> exact hkept
      | _ => exact hkept
    | _ => exact ih

theorem remembers_forgetfulEngine : Remembers forgetfulEngine where
  forgets history c hclear := by
    cases c with
    | clear => exact absurd rfl hclear
    | evaluate e => cases e <;> rfl
    | _ => rfl
  truthful history name v houtcome world s value t htranslated := by
    cases houtcome
    cases htranslated
    rw [boundNames_forgetfulEngine]
    by_cases hbound : name ∈ forgetfullyBound history.toList.reverse
    · simp [hbound, EngineValue.isTrue, EngineValue.isFalse, EngineValue.isNil]
    · simp [hbound, EngineValue.isTrue, EngineValue.isFalse, EngineValue.isNil]

/-- A function that takes nothing and answers a number. -/
def ticking (n : Int) : Callable :=
  .function (.mk none [] none true (.mk none [] false (.value (.int .unsized n))))

/-- The registration of such a function, with the serial number of its signature. -/
def tickingRegistration (serial : Nat) (n : Int) : Registration where
  signature :=
    { text := .plain "tick", params := [], required := 0, variadic := none, returns := .any
      errorTerminal := false, serial }
  function := ticking n
  listedAs := .plain "tick"

/-- Two functions are registered under one name, and the engine refuses a third. Once it has cleared
and forgotten them all, it is the second that it has bound again. -/
theorem registered_survive_clear_tick :
    let world := World.ofDepth {} {} forgetfulEngine 1
    let ticks (n : Int) : Upkeep := .define (ticking n) (.text "tick")
    ∃ log s t, Upkeeps world {} log s ∧ log.map (·.1) = [ticks 3, ticks 2, ticks 1] ∧
      Environment.clear.runIn world s = (.ok ⟨⟩, t) ∧
        "tick" ∈ boundNames world.engine t.past ∧
          ∃ r, t.bound.lookup "tick" = some r ∧ r.made = (tickingRegistration 2 2).made := by
  intro world ticks
  have hworld : world.Orderly := World.ofDepth_orderly {} {} forgetfulEngine 1
  -- The states after the steps: the third leaves nothing but its number and its command behind.
  let binds : Event := .command (.bindFunction "tick")
  let first := tickingRegistration 1 1
  let second := tickingRegistration 2 2
  let s₁ : State :=
    { functions := [("tick", first)], bound := [("tick", first)], serial := 1, history := #[binds] }
  let s₂ : State :=
    { functions := [("tick", second)], bound := [("tick", second)], serial := 2,
      history := #[binds, binds] }
  let s₃ : State := { s₂ with serial := 3, history := #[binds, binds, binds] }
  have hfirst : (ticks 1).act.runIn world {} = (.ok (some first.signature), s₁) := rfl
  have hsecond : (ticks 2).act.runIn world s₁ = (.ok (some second.signature), s₂) := rfl
  have hthird : (ticks 3).act.runIn world s₂ =
      (.error (.construction (.function "tick") (some (.text "tick")) "busy"), s₃) := rfl
  have hlog : Upkeeps world {} _ s₃ := ((Upkeeps.none.step hfirst).step hsecond).step hthird
  have hanswer : (Environment.clear.runIn world s₃).1 = .ok ⟨⟩ := rfl
  obtain ⟨hclear, -, -⟩ :=
    registered_survive_clear hworld remembers_forgetfulEngine rfl rfl rfl hlog
  exact ⟨_, _, _, hlog, rfl, Prod.ext hanswer rfl, hclear _ (Prod.ext hanswer rfl) "tick" _ rfl⟩

end RuleMarshal
