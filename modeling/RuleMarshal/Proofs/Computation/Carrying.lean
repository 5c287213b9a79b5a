import RuleMarshal.Proofs.Computation.Keeps
/-!
Runs of computations that carry a state of their own, read backwards: a run that ends with an answer
is taken apart into the runs of its parts, in the order of the parts.
-/

set_option autoImplicit false
set_option relaxedAutoImplicit false

namespace RuleMarshal.Carrying

variable {σ α β : Type} {world : World} {s t : State} {c d : σ} {a : α}

/-- Runs a computation that carries a state in a world. -/
def runIn (act : StateT σ Act α) (world : World) (c : σ) (s : State) :
    Except Error (α × σ) × State :=
  (act.run c).runIn world s

theorem ok_of_bind {act : StateT σ Act α} {next : α → StateT σ Act β} {b : β}
    (hrun : runIn (act >>= next) world c s = (.ok (b, d), t)) :
    ∃ a e u, runIn act world c s = (.ok (a, e), u) ∧
      runIn (next a) world e u = (.ok (b, d), t) := by
  obtain ⟨⟨a, e⟩, u, hfirst, hnext⟩ := Act.ok_of_bind hrun
  exact ⟨a, e, u, hfirst, hnext⟩

/-- A computation whose first part ends with an answer goes on from there. -/
theorem runIn_bind_of_ok {act : StateT σ Act α} {next : α → StateT σ Act β}
    (hact : runIn act world c s = (.ok (a, d), t)) :
    runIn (act >>= next) world c s = runIn (next a) world d t :=
  Act.runIn_bind_of_ok hact

/-- A computation whose first part fails goes no further. -/
theorem runIn_bind_of_error {act : StateT σ Act α} {next : α → StateT σ Act β} {e : Error}
    (hact : runIn act world c s = (.error e, t)) :
    runIn (act >>= next) world c s = (.error e, t) := by
  change Act.runIn (act.run c >>= fun p ↦ (next p.1).run p.2) world s = _
  rw [Act.runIn_bind, show (act.run c).runIn world s = (.error e, t) from hact]

theorem ok_of_pure {b : α} (hrun : runIn (pure b) world c s = (.ok (a, d), t)) :
    b = a ∧ c = d ∧ s = t := by
  cases hrun
  exact ⟨rfl, rfl, rfl⟩

/-- Computations go on alike where their first parts run alike, and so do the others after every
answer. -/
theorem runIn_bind_congr {act other : StateT σ Act α} {next following : α → StateT σ Act β}
    (hact : runIn act world c s = runIn other world c s)
    (hnext : ∀ a d t, runIn other world c s = (.ok (a, d), t) →
      runIn (next a) world d t = runIn (following a) world d t) :
    runIn (act >>= next) world c s = runIn (other >>= following) world c s := by
  change Act.runIn (act.run c >>= fun p ↦ (next p.1).run p.2) world s =
    Act.runIn (other.run c >>= fun p ↦ (following p.1).run p.2) world s
  rw [Act.runIn_bind, Act.runIn_bind,
    show (act.run c).runIn world s = (other.run c).runIn world s from hact]
  cases hrun : (other.run c).runIn world s with
  | mk answer t =>
    cases answer with
    | error e => rfl
    | ok p => exact hnext p.1 p.2 t hrun

theorem ok_of_throw {e : Error} : runIn (throw e : StateT σ Act α) world c s ≠ (.ok (a, d), t) := by
  intro hrun
  cases hrun

/-- A check that a computation passed. -/
theorem ok_of_refuse {p : Prop} [Decidable p] {e : Error} {next : PUnit → StateT σ Act α}
    (hrun : runIn (if p then (throw e : StateT σ Act PUnit) >>= next else next ⟨⟩) world c s =
      (.ok (a, d), t)) : ¬p ∧ runIn (next ⟨⟩) world c s = (.ok (a, d), t) := by
  by_cases hp : p
  · rw [if_pos hp] at hrun
    obtain ⟨_, _, _, hthrow, -⟩ := ok_of_bind hrun
    exact absurd hthrow ok_of_throw
  · exact ⟨hp, by rwa [if_neg hp] at hrun⟩

theorem ok_of_lift {act : Act α}
    (hrun : runIn (liftM act : StateT σ Act α) world c s = (.ok (a, d), t)) :
    act.runIn world s = (.ok a, t) ∧ c = d := by
  obtain ⟨b, u, hfirst, hrest⟩ := Act.ok_of_bind hrun
  cases hrest
  exact ⟨hfirst, rfl⟩

theorem runIn_lift_of_ok {act : Act α} (hact : act.runIn world s = (.ok a, t)) :
    runIn (liftM act : StateT σ Act α) world c s = (.ok (a, c), t) :=
  Act.runIn_bind_of_ok hact

theorem runIn_lift_of_error {act : Act α} {e : Error} (hact : act.runIn world s = (.error e, t)) :
    runIn (liftM act : StateT σ Act α) world c s = (.error e, t) := by
  change Act.runIn (act >>= fun a ↦ pure (a, c)) world s = _
  rw [Act.runIn_bind, hact]

theorem ok_of_map {act : StateT σ Act α} {f : α → β} {b : β}
    (hrun : runIn (f <$> act) world c s = (.ok (b, d), t)) :
    ∃ a, f a = b ∧ runIn act world c s = (.ok (a, d), t) := by
  rw [map_eq_pure_bind] at hrun
  obtain ⟨a, _, _, hact, hreturn⟩ := ok_of_bind hrun
  obtain ⟨rfl, rfl, rfl⟩ := ok_of_pure hreturn
  exact ⟨a, rfl, hact⟩

theorem ok_of_discard {act : StateT σ Act α} {u : PUnit}
    (hrun : runIn (discard act) world c s = (.ok (u, d), t)) :
    ∃ a, runIn act world c s = (.ok (a, d), t) := by
  obtain ⟨a, -, hact⟩ := ok_of_map hrun
  exact ⟨a, hact⟩

theorem ok_of_ofExcept {found : Except Error α}
    (hrun : runIn (MonadExcept.ofExcept found : StateT σ Act α) world c s = (.ok (a, d), t)) :
    found = .ok a ∧ c = d ∧ s = t := by
  cases found with
  | error e => exact absurd hrun ok_of_throw
  | ok b =>
    obtain ⟨rfl, rfl, rfl⟩ := ok_of_pure hrun
    exact ⟨rfl, rfl, rfl⟩

theorem runIn_ofExcept (found : Except Error α) (world : World) (c : σ) (s : State) :
    runIn (MonadExcept.ofExcept found : StateT σ Act α) world c s =
      (found.map fun a ↦ (a, c), s) := by
  cases found <;> rfl

theorem ok_of_get {found : σ}
    (hrun : runIn (get : StateT σ Act σ) world c s = (.ok (found, d), t)) :
    c = found ∧ c = d ∧ s = t := by
  cases hrun
  exact ⟨rfl, rfl, rfl⟩

theorem ok_of_modify {change : σ → σ} {u : PUnit}
    (hrun : runIn (modify change : StateT σ Act PUnit) world c s = (.ok (u, d), t)) :
    change c = d ∧ s = t := by
  cases hrun
  exact ⟨rfl, rfl⟩

/-- A look at the state that a computation carries its own beside. -/
theorem ok_of_getThe {found : State}
    (hrun : runIn (getThe State : StateT σ Act State) world c s = (.ok (found, d), t)) :
    s = found ∧ c = d ∧ s = t := by
  cases hrun
  exact ⟨rfl, rfl, rfl⟩

theorem ok_of_read {found : World}
    (hrun : runIn (read : StateT σ Act World) world c s = (.ok (found, d), t)) :
    world = found ∧ c = d ∧ s = t := by
  cases hrun
  exact ⟨rfl, rfl, rfl⟩

/-- What each step of a walk along a list keeps to is so at the end of it. -/
theorem of_foldlM {γ : Type} {f : β → γ → StateT σ Act β} {items : List γ}
    {P : β → σ → State → Prop} {b b' : β}
    (hstep : ∀ g ∈ items, ∀ b c s b' d t, P b c s →
      runIn (f b g) world c s = (.ok (b', d), t) → P b' d t)
    (hfirst : P b c s) (hrun : runIn (items.foldlM f b) world c s = (.ok (b', d), t)) :
    P b' d t := by
  induction items generalizing b c s with
  | nil =>
    obtain ⟨rfl, rfl, rfl⟩ := ok_of_pure hrun
    exact hfirst
  | cons g rest ih =>
    rw [List.foldlM_cons] at hrun
    obtain ⟨between, e, u, hhead, htail⟩ := ok_of_bind hrun
    exact ih (fun g hg ↦ hstep g (List.mem_cons_of_mem _ hg))
      (hstep g List.mem_cons_self b c s between e u hfirst hhead) htail

end RuleMarshal.Carrying
