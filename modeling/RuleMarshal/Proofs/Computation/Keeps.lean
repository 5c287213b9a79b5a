import Mathlib.Order.Defs.Unbundled
import RuleMarshal.Environment.Lemmas
/-!
What every run of a computation keeps to. A relation between states is kept by a computation when
every run of it ends in a state that is related to the one it began in, whether the run ends with an
answer or with an error (`Act.Keeps`). For a relation that is reflexive and transitive this follows
from the parts of the computation, by one rule for each way of building a computation from others.
Computations that carry a state of their own keep a relation when they do so from each such state
(`Carrying.Keeps`).
-/

set_option autoImplicit false
set_option relaxedAutoImplicit false

namespace RuleMarshal

/-- A computation keeps a relation if every run of it ends in a state related to the first. -/
def Act.Keeps (R : State → State → Prop) (world : World) {α : Type} (act : Act α) : Prop :=
  ∀ s, R s (act.runIn world s).2

namespace Act.Keeps

variable {R : State → State → Prop} {world : World} {α β : Type}

/-- What a run reaches stands in a relation that the computation keeps. -/
theorem of_runIn {act : Act α} (hact : Keeps R world act) {s t : State} {answer : Except Error α}
    (hrun : act.runIn world s = (answer, t)) : R s t := by
  have hkept := hact s
  rw [hrun] at hkept
  exact hkept

/-! ### Changes of the state -/

theorem modify {change : State → State} (hchange : ∀ s, R s (change s)) :
    Keeps R world (modify change : Act PUnit) :=
  hchange

theorem modifyGet {run : State → α × State} (hrun : ∀ s, R s (run s).2) :
    Keeps R world (modifyGet run : Act α) :=
  hrun

theorem ite {c : Prop} [Decidable c] {act other : Act α} (hact : Keeps R world act)
    (hother : Keeps R world other) : Keeps R world (if c then act else other) := by
  split
  · exact hact
  · exact hother

/-- What a computation reads is the world that it runs in. -/
theorem reading {next : World → Act α} (hnext : (next world).Keeps R world) :
    Keeps R world (MonadReader.read >>= next) := by
  intro s
  rw [runIn_bind, runIn_read]
  exact hnext s

variable [IsPreorder State R]

theorem pure (a : α) : Keeps R world (pure a : Act α) := fun s ↦ refl_of R s

theorem throw (e : Error) : Keeps R world (throw e : Act α) := fun s ↦ refl_of R s

theorem get : Keeps R world (get : Act State) := fun s ↦ refl_of R s

theorem read : Keeps R world (read : Act World) := fun s ↦ refl_of R s

theorem ofExcept (found : Except Error α) :
    Keeps R world (MonadExcept.ofExcept found : Act α) := by
  cases found with
  | error e => exact throw e
  | ok a => exact pure a

/-! ### One after the other -/

/-- What a computation leaves and what is left in the end are related if whatever follows keeps the
relation. -/
theorem after_bind {act : Act α} {next : α → Act β} (hnext : ∀ a, Keeps R world (next a))
    (s : State) :
    R (act.runIn world s).2 ((act >>= next).runIn world s).2 := by
  rw [runIn_bind]
  cases act.runIn world s with
  | mk answer after =>
    cases answer with
    | error e => exact refl_of R after
    | ok a => exact hnext a after

theorem bind {act : Act α} {next : α → Act β} (hact : Keeps R world act)
    (hnext : ∀ a, Keeps R world (next a)) : Keeps R world (act >>= next) :=
  fun s ↦ trans_of R (hact s) (after_bind hnext s)

theorem tryCatch {act : Act α} {handle : Error → Act α} (hact : Keeps R world act)
    (hhandle : ∀ e, Keeps R world (handle e)) : Keeps R world (tryCatch act handle) := by
  intro s
  have hfirst := hact s
  rw [runIn_tryCatch]
  cases hrun : act.runIn world s with
  | mk answer after =>
    rw [hrun] at hfirst
    cases answer with
    | error e => exact trans_of R hfirst (hhandle e after)
    | ok a => exact hfirst

theorem map {act : Act α} (f : α → β) (hact : Keeps R world act) : Keeps R world (f <$> act) := by
  rw [map_eq_pure_bind]
  exact hact.bind fun _ ↦ pure _

theorem discard {act : Act α} (hact : Keeps R world act) : Keeps R world (discard act) :=
  hact.map _

end Act.Keeps

/-! ### Runs that end with an answer -/

namespace Act

variable {world : World} {s t : State} {α β : Type}

/-- A computation in two parts that ends with an answer does so in both. -/
theorem ok_of_bind {act : Act α} {next : α → Act β} {b : β}
    (hrun : (act >>= next).runIn world s = (.ok b, t)) :
    ∃ a u, act.runIn world s = (.ok a, u) ∧ (next a).runIn world u = (.ok b, t) := by
  rw [runIn_bind] at hrun
  cases hfirst : act.runIn world s with
  | mk answer u =>
    rw [hfirst] at hrun
    cases answer with
    | error e => simp at hrun
    | ok a => exact ⟨a, u, rfl, hrun⟩

/-- A computation whose first part ends with an answer goes on from there. -/
theorem runIn_bind_of_ok {act : Act α} {next : α → Act β} {a : α}
    (hact : act.runIn world s = (.ok a, t)) :
    (act >>= next).runIn world s = (next a).runIn world t := by
  rw [runIn_bind, hact]

/-- A check that a computation passed. -/
theorem ok_of_refuse {c : Prop} [Decidable c] {e : Error} {next : PUnit → Act β} {b : β}
    (hrun : Act.runIn (if c then (throw e : Act PUnit) >>= next else next ⟨⟩) world s =
      (.ok b, t)) : ¬c ∧ (next ⟨⟩).runIn world s = (.ok b, t) := by
  by_cases hc : c
  · rw [if_pos hc, runIn_bind, runIn_throw] at hrun
    simp at hrun
  · rw [if_neg hc] at hrun
    exact ⟨hc, hrun⟩

/-- Where a list is gone through to its end, each of its items came to something. -/
theorem exists_run_of_mapM {f : α → Act β} {as : List α} {bs : List β}
    (hrun : (as.mapM f).runIn world s = (.ok bs, t)) {a : α} (ha : a ∈ as) :
    ∃ b u v, (f a).runIn world u = (.ok b, v) := by
  induction as generalizing bs s with
  | nil => cases ha
  | cons c rest ih =>
    rw [List.mapM_cons] at hrun
    obtain ⟨b, u, hfirst, hmore⟩ := ok_of_bind hrun
    obtain ⟨others, v, hrest, hreturn⟩ := ok_of_bind hmore
    cases hreturn
    obtain rfl | ha := List.mem_cons.mp ha
    · exact ⟨b, s, u, hfirst⟩
    · exact ih hrest ha

/-- Where a list is gone through to its end, whatever is found was found for one of its items. -/
theorem exists_run_of_mem_mapM {f : α → Act β} {as : List α} {bs : List β}
    (hrun : (as.mapM f).runIn world s = (.ok bs, t)) {b : β} (hb : b ∈ bs) :
    ∃ a ∈ as, ∃ u v, (f a).runIn world u = (.ok b, v) := by
  induction as generalizing bs s with
  | nil =>
    cases hrun
    cases hb
  | cons a rest ih =>
    rw [List.mapM_cons] at hrun
    obtain ⟨first, u, hfirst, hmore⟩ := ok_of_bind hrun
    obtain ⟨others, v, hrest, hreturn⟩ := ok_of_bind hmore
    cases hreturn
    obtain rfl | hb := List.mem_cons.mp hb
    · exact ⟨a, List.mem_cons_self, s, u, hfirst⟩
    · obtain ⟨c, hc, hfound⟩ := ih hrest hb
      exact ⟨c, List.mem_cons_of_mem _ hc, hfound⟩

/-- What comes to the same for each item of a list, whatever the state, comes to the same for the
list. -/
theorem runIn_mapM_congr {f g : α → Act β} {as : List α}
    (hsame : ∀ a ∈ as, ∀ s, (f a).runIn world s = (g a).runIn world s) (s : State) :
    (as.mapM f).runIn world s = (as.mapM g).runIn world s := by
  induction as generalizing s with
  | nil => rfl
  | cons a rest ih =>
    rw [List.mapM_cons, List.mapM_cons, runIn_bind, runIn_bind, hsame a List.mem_cons_self s]
    cases (g a).runIn world s with
    | mk answer t =>
      cases answer with
      | error e => rfl
      | ok b =>
        dsimp only
        rw [runIn_bind, runIn_bind, ih fun c hc ↦ hsame c (List.mem_cons_of_mem _ hc)]

end Act

/-! ### Computations that carry a state of their own -/

/-- A computation that carries a state of its own keeps a relation if it does so from each. -/
def Carrying.Keeps (R : State → State → Prop) (world : World) {σ α : Type}
    (act : StateT σ Act α) : Prop :=
  ∀ t, (act.run t).Keeps R world

namespace Carrying.Keeps

variable {R : State → State → Prop} {world : World} {σ α β γ : Type}

variable [IsPreorder State R]

theorem pure (a : α) : Keeps R world (pure a : StateT σ Act α) := fun _ ↦ .pure _

theorem throw (e : Error) : Keeps R world (throw e : StateT σ Act α) :=
  fun _ s ↦ refl_of R s

theorem get : Keeps R world (get : StateT σ Act σ) := fun _ ↦ .pure _

theorem modify (change : σ → σ) : Keeps R world (modify change : StateT σ Act PUnit) :=
  fun _ ↦ .pure _

theorem ofExcept (found : Except Error α) :
    Keeps R world (MonadExcept.ofExcept found : StateT σ Act α) := by
  cases found with
  | error e => exact throw e
  | ok a => exact pure a

theorem bind {act : StateT σ Act α} {next : α → StateT σ Act β} (hact : Keeps R world act)
    (hnext : ∀ a, Keeps R world (next a)) : Keeps R world (act >>= next) :=
  fun t ↦ (hact t).bind fun p ↦ hnext p.1 p.2

end Carrying.Keeps

end RuleMarshal
