import RuleMarshal.Proofs.Computation.Carrying
import RuleMarshal.Proofs.Computation.Contract
/-!
What computations raise. A computation raises errors of a kind if each of its runs that fails does
so with such an error, in states of which something holds that every run passes on (`Act.Raises`).
As for what is kept, there is one rule for each way of building a computation; the difference is
that an error is looked at where it is raised.

Runs that fail are read backwards like those that answer: a computation in two parts fails in the
first, or in the second after an answer of the first (`Carrying.cases_of_bind_error`).
-/

set_option autoImplicit false
set_option relaxedAutoImplicit false

namespace RuleMarshal

/-- What holds of the first state holds of the second. -/
def PassesOn (inv : State → Prop) (s t : State) : Prop := inv s → inv t

instance PassesOn.isPreorder {inv : State → Prop} : IsPreorder State (PassesOn inv) where
  refl _ := id
  trans _ _ _ hst htu := htu ∘ hst

/-- A computation passes on what holds of a state, and from such states it raises errors of one kind
only. -/
structure Act.Raises (inv : State → Prop) (kind : Error → Prop) (world : World) {α : Type}
    (act : Act α) : Prop where
  passesOn : act.Keeps (PassesOn inv) world
  raised : ∀ {s t e}, inv s → act.runIn world s = (.error e, t) → kind e

namespace Act.Raises

variable {inv : State → Prop} {kind : Error → Prop} {world : World} {α β γ : Type}

theorem mono {act : Act α} {other : Error → Prop} (hact : Raises inv kind world act)
    (hkind : ∀ e, kind e → other e) : Raises inv other world act where
  passesOn := hact.passesOn
  raised hs hrun := hkind _ (hact.raised hs hrun)

/-- What has only answers raises nothing. -/
theorem of_answers {act : Act α} (hkeeps : act.Keeps (PassesOn inv) world)
    (hanswers : ∀ s, ∃ a t, act.runIn world s = (.ok a, t)) : Raises inv kind world act where
  passesOn := hkeeps
  raised _ hrun := by
    obtain ⟨a, t, hanswer⟩ := hanswers _
    cases hanswer.symm.trans hrun

theorem pure (a : α) : Raises inv kind world (pure a : Act α) :=
  .of_answers (.pure a) fun s ↦ ⟨a, s, rfl⟩

theorem get : Raises inv kind world (get : Act State) := .of_answers .get fun s ↦ ⟨s, s, rfl⟩

theorem read : Raises inv kind world (read : Act World) := .of_answers .read fun s ↦ ⟨world, s, rfl⟩

theorem modifyGet {run : State → α × State} (hrun : ∀ s, inv s → inv (run s).2) :
    Raises inv kind world (modifyGet run : Act α) :=
  .of_answers (.modifyGet hrun) fun _ ↦ ⟨_, _, rfl⟩

theorem throw {e : Error} (he : kind e) : Raises inv kind world (throw e : Act α) where
  passesOn := .throw e
  raised _ hrun := by
    cases hrun
    exact he

theorem ofExcept {found : Except Error α} (hfound : ∀ e, found = .error e → kind e) :
    Raises inv kind world (MonadExcept.ofExcept found : Act α) := by
  cases found with
  | ok a => exact pure a
  | error e => exact throw (hfound e rfl)

theorem bind {act : Act α} {next : α → Act β} (hact : Raises inv kind world act)
    (hnext : ∀ a, Raises inv kind world (next a)) : Raises inv kind world (act >>= next) where
  passesOn := hact.passesOn.bind fun a ↦ (hnext a).passesOn
  raised hs hrun := by
    obtain hfirst | ⟨a, u, hfirst, hrest⟩ := cases_of_bind_error hrun
    · exact hact.raised hs hfirst
    · exact (hnext a).raised (hact.passesOn.of_runIn hfirst hs) hrest

/-- What a computation reads is the world that it runs in. -/
theorem reading {next : World → Act α} (hnext : (next world).Raises inv kind world) :
    Raises inv kind world (MonadReader.read >>= next) where
  passesOn := .reading hnext.passesOn
  raised hs hrun := by
    rw [Act.runIn_bind, Act.runIn_read] at hrun
    exact hnext.raised hs hrun

theorem ite {c : Prop} [Decidable c] {act other : Act α} (hact : Raises inv kind world act)
    (hother : Raises inv kind world other) : Raises inv kind world (if c then act else other) := by
  split
  · exact hact
  · exact hother

theorem map {act : Act α} (f : α → β) (hact : Raises inv kind world act) :
    Raises inv kind world (f <$> act) := by
  rw [map_eq_pure_bind]
  exact hact.bind fun _ ↦ pure _

theorem forM {f : γ → Act PUnit} (items : List γ) (hf : ∀ c ∈ items, Raises inv kind world (f c)) :
    Raises inv kind world (items.forM f) := by
  induction items with
  | nil => exact pure _
  | cons c rest ih =>
    exact (hf c List.mem_cons_self).bind fun _ ↦ ih fun d hd ↦ hf d (List.mem_cons_of_mem c hd)

theorem mapM {f : γ → Act β} (items : List γ) (hf : ∀ c ∈ items, Raises inv kind world (f c)) :
    Raises inv kind world (items.mapM f) := by
  induction items with
  | nil => exact pure _
  | cons c rest ih =>
    rw [List.mapM_cons]
    refine (hf c List.mem_cons_self).bind fun _ ↦ ?_
    exact (ih fun d hd ↦ hf d (List.mem_cons_of_mem c hd)).bind fun _ ↦ pure _

end Act.Raises

namespace Carrying

variable {σ α β γ : Type} {world : World} {s t : State} {c : σ}

/-! ### Runs that fail -/

theorem cases_of_bind_error {act : StateT σ Act α} {next : α → StateT σ Act β} {e : Error}
    (hrun : runIn (act >>= next) world c s = (.error e, t)) :
    runIn act world c s = (.error e, t) ∨
      ∃ a d u, runIn act world c s = (.ok (a, d), u) ∧
        runIn (next a) world d u = (.error e, t) := by
  obtain hfirst | ⟨⟨a, d⟩, u, hfirst, hrest⟩ := Act.cases_of_bind_error hrun
  · exact .inl hfirst
  · exact .inr ⟨a, d, u, hfirst, hrest⟩

theorem error_of_lift {act : Act α} {e : Error}
    (hrun : runIn (liftM act : StateT σ Act α) world c s = (.error e, t)) :
    act.runIn world s = (.error e, t) := by
  obtain hfirst | ⟨a, u, -, hreturn⟩ := Act.cases_of_bind_error hrun
  · exact hfirst
  · cases hreturn

theorem error_of_throw {raised e : Error}
    (hrun : runIn (throw raised : StateT σ Act α) world c s = (.error e, t)) :
    raised = e ∧ s = t := by
  cases hrun
  exact ⟨rfl, rfl⟩

theorem error_of_ofExcept {found : Except Error α} {e : Error}
    (hrun : runIn (MonadExcept.ofExcept found : StateT σ Act α) world c s = (.error e, t)) :
    found = .error e ∧ s = t := by
  cases found with
  | ok a => cases hrun
  | error raised =>
    obtain ⟨rfl, rfl⟩ := error_of_throw hrun
    exact ⟨rfl, rfl⟩

end Carrying

/-- A computation that carries a state of its own raises errors of a kind if it does so from each
such state. -/
def Carrying.Raises (inv : State → Prop) (kind : Error → Prop) (world : World) {σ α : Type}
    (act : StateT σ Act α) : Prop :=
  ∀ c, (act.run c).Raises inv kind world

namespace Carrying.Raises

variable {inv : State → Prop} {kind : Error → Prop} {world : World} {σ α β γ : Type}

theorem pure (a : α) : Raises inv kind world (pure a : StateT σ Act α) := fun _ ↦ .pure _

theorem get : Raises inv kind world (get : StateT σ Act σ) := fun _ ↦ .pure _

theorem modify (change : σ → σ) : Raises inv kind world (modify change : StateT σ Act PUnit) :=
  fun _ ↦ .pure _

theorem throw {e : Error} (he : kind e) : Raises inv kind world (throw e : StateT σ Act α) :=
  fun _ ↦ (Act.Raises.throw he : (MonadExcept.throw e : Act (α × σ)).Raises inv kind world)

theorem lift {act : Act α} (hact : act.Raises inv kind world) :
    Raises inv kind world (liftM act : StateT σ Act α) :=
  fun _ ↦ hact.bind fun _ ↦ .pure _

theorem bind {act : StateT σ Act α} {next : α → StateT σ Act β} (hact : Raises inv kind world act)
    (hnext : ∀ a, Raises inv kind world (next a)) : Raises inv kind world (act >>= next) :=
  fun c ↦ (hact c).bind fun p ↦ hnext p.1 p.2

theorem map {act : StateT σ Act α} (f : α → β) (hact : Raises inv kind world act) :
    Raises inv kind world (f <$> act) := by
  rw [map_eq_pure_bind]
  exact hact.bind fun _ ↦ pure _

theorem ite {p : Prop} [Decidable p] {act other : StateT σ Act α} (hact : Raises inv kind world act)
    (hother : Raises inv kind world other) : Raises inv kind world (if p then act else other) := by
  split
  · exact hact
  · exact hother

theorem foldlM {f : β → γ → StateT σ Act β} (items : List γ) (first : β)
    (hf : ∀ b, ∀ c ∈ items, Raises inv kind world (f b c)) :
    Raises inv kind world (items.foldlM f first) := by
  induction items generalizing first with
  | nil => exact pure _
  | cons c rest ih =>
    rw [List.foldlM_cons]
    exact (hf first c List.mem_cons_self).bind fun b ↦
      ih b fun b d hd ↦ hf b d (List.mem_cons_of_mem c hd)

end Carrying.Raises

end RuleMarshal
