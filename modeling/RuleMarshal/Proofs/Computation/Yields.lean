import RuleMarshal.Proofs.Computation.Keeps
/-!
Runs from one state. A computation yields something from a state if its run reaches a state of one
kind, however it ends, and an answer of another kind if it ends with one; and a second computation
runs alike from there (`Act.Yields`). Two computations that are built alike from parts that run
alike run alike themselves, so what is shown of one is shown of both.
-/

set_option autoImplicit false
set_option relaxedAutoImplicit false

namespace RuleMarshal.Act

variable {world : World} {s : State} {α β γ : Type}

/-- From a state, a computation reaches a state of one kind, an answer of another kind if it ends
with one, and a second computation runs alike. -/
def Yields (world : World) (reached : State → Prop) (found : α → State → Prop) (act other : Act α)
    (s : State) : Prop :=
  other.runIn world s = act.runIn world s ∧ reached (act.runIn world s).2 ∧
    ∀ a t, act.runIn world s = (.ok a, t) → found a t

namespace Yields

variable {reached before : State → Prop} {found : α → State → Prop} {given : β → State → Prop}

theorem mono {later : State → Prop} {known : α → State → Prop} {act other : Act α}
    (hact : Yields world reached found act other s) (hlater : ∀ t, reached t → later t)
    (hknown : ∀ a t, reached t → found a t → known a t) : Yields world later known act other s := by
  obtain ⟨hsame, hreached, hfound⟩ := hact
  refine ⟨hsame, hlater _ hreached, fun a t hrun ↦ hknown a t ?_ (hfound a t hrun)⟩
  rw [hrun] at hreached
  exact hreached

/-- What a run reaches and answers. -/
theorem of_runIn {act : Act α} (hreached : ∀ answer t, act.runIn world s = (answer, t) → reached t)
    (hfound : ∀ a t, act.runIn world s = (.ok a, t) → found a t) :
    Yields world reached found act act s :=
  ⟨rfl, hreached _ _ rfl, hfound⟩

theorem of_keeps {R : State → State → Prop} {act : Act α} (hact : act.Keeps R world)
    (hreached : ∀ t, R s t → reached t) :
    Yields world reached (fun _ _ ↦ True) act act s :=
  ⟨rfl, hreached _ (hact s), fun _ _ _ ↦ trivial⟩

theorem pure {a : α} (hreached : reached s) (hfound : found a s) :
    Yields world reached found (pure a) (pure a) s := by
  refine ⟨rfl, hreached, fun b t hrun ↦ ?_⟩
  cases hrun
  exact hfound

theorem throw {e : Error} (hreached : reached s) :
    Yields world reached found (throw e) (throw e) s :=
  ⟨rfl, hreached, fun _ _ hrun ↦ nomatch hrun⟩

theorem ofExcept {answer : Except Error α} (hreached : reached s)
    (hfound : ∀ a, answer = .ok a → found a s) :
    Yields world reached found (MonadExcept.ofExcept answer) (MonadExcept.ofExcept answer) s := by
  cases answer with
  | error e => exact throw hreached
  | ok a => exact pure hreached (hfound a rfl)

theorem bind {act other : Act α} {next follow : α → Act β}
    (hact : Yields world before found act other s)
    (hnext : ∀ a t, before t → found a t → Yields world reached given (next a) (follow a) t)
    (hreached : ∀ t, before t → reached t) :
    Yields world reached given (act >>= next) (other >>= follow) s := by
  obtain ⟨hsame, hbefore, hfound⟩ := hact
  unfold Yields
  rw [runIn_bind, runIn_bind, hsame]
  cases hrun : act.runIn world s with
  | mk answer t =>
    rw [hrun] at hbefore
    cases answer with
    | error e => exact ⟨rfl, hreached t hbefore, fun _ _ hend ↦ nomatch hend⟩
    | ok a => exact hnext a t hbefore (hfound a t hrun)

/-- A computation that begins by looking at the state. -/
theorem getting {next follow : State → Act β}
    (hnext : Yields world reached given (next s) (follow s) s) :
    Yields world reached given (get >>= next) (get >>= follow) s :=
  hnext

/-- A computation that begins by looking at the world. -/
theorem reading {next follow : World → Act β}
    (hnext : Yields world reached given (next world) (follow world) s) :
    Yields world reached given (MonadReader.read >>= next) (MonadReader.read >>= follow) s :=
  hnext

theorem tryCatch {act other : Act α} {handle recover : Error → Act α}
    (hact : Yields world before found act other s)
    (hhandle : ∀ e t, before t → Yields world reached found (handle e) (recover e) t)
    (hreached : ∀ t, before t → reached t) :
    Yields world reached found (tryCatch act handle) (tryCatch other recover) s := by
  obtain ⟨hsame, hbefore, hfound⟩ := hact
  unfold Yields
  rw [runIn_tryCatch, runIn_tryCatch, hsame]
  cases hrun : act.runIn world s with
  | mk answer t =>
    rw [hrun] at hbefore
    cases answer with
    | error e => exact hhandle e t hbefore
    | ok a => exact ⟨rfl, hreached t hbefore, fun b u hend ↦ by cases hend; exact hfound a t hrun⟩

end Yields

end RuleMarshal.Act
