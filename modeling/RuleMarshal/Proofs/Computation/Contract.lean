import RuleMarshal.Proofs.Computation.Keeps
/-!
Contracts: what every run of a computation comes to, said apart for runs that end with an answer and
for runs that end with an error. A contract is such that it can be met step by step: answered runs
follow one another, and an error ends the run after any of them. Whether a computation meets a
contract (`Act.Meets`) then follows from its parts, by one rule for each way of building it. What a
computation keeps to however it ends is a special case (`Contract.ofRelation`).

A contract may ask less of a whole operation that answers than of a part that is followed by others
(`Act.Concludes`). So it is with questions whose denial is an answer in an operation that reports it
and an error in one that relies on them (`Act.Decides`).
-/

set_option autoImplicit false
set_option relaxedAutoImplicit false

namespace RuleMarshal

/-- What holds between the ends of runs that answer and of runs that fail with an error, and what
holds between the ends of a whole operation that answers. -/
structure Contract where
  answered : State → State → Prop
  failed : State → Error → State → Prop
  concluded : State → State → Prop
  refl : ∀ s, answered s s
  trans : ∀ {s t u}, answered s t → answered t u → answered s u
  raise : ∀ s e, failed s e s
  failedAfter : ∀ {s t u e}, answered s t → failed t e u → failed s e u
  concludedAfter : ∀ {s t u}, answered s t → concluded t u → concluded s u
  answeredAfter : ∀ {s t u}, concluded s t → answered t u → concluded s u
  conclude : ∀ {s t}, answered s t → concluded s t

namespace Contract

instance isPreorder (C : Contract) : IsPreorder State C.answered where
  refl := C.refl
  trans _ _ _ := C.trans

/-- The contract that a relation holds between the ends of every run, however it ends. -/
def ofRelation (R : State → State → Prop) [IsPreorder State R] : Contract where
  answered := R
  failed s _ t := R s t
  concluded := R
  refl := refl_of R
  trans := trans_of R
  raise s _ := refl_of R s
  failedAfter := trans_of R
  concludedAfter := trans_of R
  answeredAfter := trans_of R
  conclude := id

/-- Failures to convert may be followed by what may follow an answer. -/
def PassesConversions (C : Contract) : Prop :=
  ∀ e, e.isConversion = true → ∀ s t, C.failed s e t → C.answered s t

end Contract

section

variable (C : Contract) (world : World)

/-- A computation meets a contract if each of its runs comes to what the contract says of it. -/
structure Act.Meets {α : Type} (act : Act α) : Prop where
  answered : ∀ {s t a}, act.runIn world s = (.ok a, t) → C.answered s t
  failed : ∀ {s t e}, act.runIn world s = (.error e, t) → C.failed s e t

/-- A whole operation concludes under a contract. -/
structure Act.Concludes {α : Type} (act : Act α) : Prop where
  concluded : ∀ {s t a}, act.runIn world s = (.ok a, t) → C.concluded s t
  failed : ∀ {s t e}, act.runIn world s = (.error e, t) → C.failed s e t

/-- A question may be denied: that is an answer if the operation ends with it, and otherwise the
reason of an error. -/
structure Act.Decides (denial : Error) (question : Act Bool) : Prop where
  affirmed : ∀ {s t}, question.runIn world s = (.ok true, t) → C.answered s t
  concluded : ∀ {s t}, question.runIn world s = (.ok false, t) → C.concluded s t
  denied : ∀ {s t}, question.runIn world s = (.ok false, t) → C.failed s denial t
  failed : ∀ {s t e}, question.runIn world s = (.error e, t) → C.failed s e t

end

namespace Act

variable {C : Contract} {world : World} {α β γ : Type}

/-- A computation in two parts that fails does so in the first, or in the second after an answer of
the first. -/
theorem cases_of_bind_error {act : Act α} {next : α → Act β} {s t : State} {e : Error}
    (hrun : (act >>= next).runIn world s = (.error e, t)) :
    act.runIn world s = (.error e, t) ∨
      ∃ a u, act.runIn world s = (.ok a, u) ∧ (next a).runIn world u = (.error e, t) := by
  rw [runIn_bind] at hrun
  cases hfirst : act.runIn world s with
  | mk answer u =>
    rw [hfirst] at hrun
    cases answer with
    | error refusal =>
      cases hrun
      exact .inl rfl
    | ok a => exact .inr ⟨a, u, rfl, hrun⟩

/-- What a computation with a handler ends with comes from the computation, or from the handler
after an error. -/
theorem cases_of_tryCatch {act : Act α} {handle : Error → Act α} {s t : State}
    {answer : Except Error α} (hrun : (tryCatch act handle).runIn world s = (answer, t)) :
    act.runIn world s = (answer, t) ∨
      ∃ e u, act.runIn world s = (.error e, u) ∧ (handle e).runIn world u = (answer, t) := by
  rw [runIn_tryCatch] at hrun
  cases hfirst : act.runIn world s with
  | mk found u =>
    rw [hfirst] at hrun
    cases found with
    | ok a => exact .inl hrun
    | error e => exact .inr ⟨e, u, rfl, hrun⟩

namespace Meets

/-- What a computation keeps to however it ends may follow or precede an error. -/
theorem of_keeps {act : Act α} (hact : act.Keeps C.answered world) : Meets C world act where
  answered hrun := hact.of_runIn hrun
  failed hrun := C.failedAfter (hact.of_runIn hrun) (C.raise _ _)

theorem iff_keeps {R : State → State → Prop} [IsPreorder State R] {act : Act α} :
    Meets (.ofRelation R) world act ↔ act.Keeps R world :=
  ⟨fun hact s ↦ by
    cases hrun : act.runIn world s with
    | mk answer t =>
      cases answer with
      | error e => exact hact.failed hrun
      | ok a => exact hact.answered hrun,
    fun hact ↦ ⟨hact.of_runIn, hact.of_runIn⟩⟩

theorem pure (a : α) : Meets C world (pure a : Act α) := of_keeps (.pure a)

theorem throw (e : Error) : Meets C world (throw e : Act α) := of_keeps (.throw e)

theorem get : Meets C world (get : Act State) := of_keeps .get

theorem read : Meets C world (read : Act World) := of_keeps .read

theorem ofExcept (found : Except Error α) : Meets C world (MonadExcept.ofExcept found : Act α) :=
  of_keeps (.ofExcept found)

theorem ite {c : Prop} [Decidable c] {act other : Act α} (hact : Meets C world act)
    (hother : Meets C world other) : Meets C world (if c then act else other) := by
  split
  · exact hact
  · exact hother

theorem bind {act : Act α} {next : α → Act β} (hact : Meets C world act)
    (hnext : ∀ a, Meets C world (next a)) : Meets C world (act >>= next) where
  answered hrun := by
    obtain ⟨a, u, hfirst, hrest⟩ := ok_of_bind hrun
    exact C.trans (hact.answered hfirst) ((hnext a).answered hrest)
  failed hrun := by
    rcases cases_of_bind_error hrun with hfirst | ⟨a, u, hfirst, hrest⟩
    · exact hact.failed hfirst
    · exact C.failedAfter (hact.answered hfirst) ((hnext a).failed hrest)

theorem map {act : Act α} (f : α → β) (hact : Meets C world act) : Meets C world (f <$> act) := by
  rw [map_eq_pure_bind]
  exact hact.bind fun _ ↦ pure _

theorem discard {act : Act α} (hact : Meets C world act) : Meets C world (discard act) :=
  hact.map _

/-- What a computation reads is the world that it runs in. -/
theorem reading {next : World → Act α} (hnext : Meets C world (next world)) :
    Meets C world (MonadReader.read >>= next) where
  answered hrun := hnext.answered (by rwa [runIn_bind, runIn_read] at hrun)
  failed hrun := hnext.failed (by rwa [runIn_bind, runIn_read] at hrun)

/-- A check that ends a computation. -/
theorem refuse {c : Prop} [Decidable c] {e : Error} {next : PUnit → Act α}
    (hnext : Meets C world (next ⟨⟩)) :
    Meets C world (if c then (MonadExcept.throw e : Act PUnit) >>= next else next ⟨⟩) :=
  ite ((throw e).bind fun _ ↦ hnext) hnext

/-- A handler passes an error on, or goes on after it as after an answer. -/
theorem tryCatch {act : Act α} {handle : Error → Act α} (hact : Meets C world act)
    (hhandle : ∀ e, handle e = MonadExcept.throw e ∨
      Meets C world (handle e) ∧ ∀ s t, C.failed s e t → C.answered s t) :
    Meets C world (tryCatch act handle) := by
  constructor
  · intro s u a hrun
    rcases cases_of_tryCatch hrun with hfirst | ⟨e, t, hfirst, hcaught⟩
    · exact hact.answered hfirst
    · rcases hhandle e with hpassed | ⟨hnext, hover⟩
      · rw [hpassed] at hcaught
        cases hcaught
      · exact C.trans (hover _ _ (hact.failed hfirst)) (hnext.answered hcaught)
  · intro s u e hrun
    rcases cases_of_tryCatch hrun with hfirst | ⟨refusal, t, hfirst, hcaught⟩
    · exact hact.failed hfirst
    · rcases hhandle refusal with hpassed | ⟨hnext, hover⟩
      · rw [hpassed] at hcaught
        cases hcaught
        exact hact.failed hfirst
      · exact C.failedAfter (hover _ _ (hact.failed hfirst)) (hnext.failed hcaught)

/-! ### Walks along lists -/

theorem forM {f : γ → Act PUnit} (items : List γ) (hf : ∀ c ∈ items, Meets C world (f c)) :
    Meets C world (items.forM f) := by
  induction items with
  | nil => exact pure _
  | cons c rest ih =>
    exact (hf c List.mem_cons_self).bind fun _ ↦ ih fun d hd ↦ hf d (List.mem_cons_of_mem c hd)

theorem mapM {f : γ → Act β} (items : List γ) (hf : ∀ c ∈ items, Meets C world (f c)) :
    Meets C world (items.mapM f) := by
  induction items with
  | nil => exact pure _
  | cons c rest ih =>
    rw [List.mapM_cons]
    exact (hf c List.mem_cons_self).bind fun _ ↦
      (ih fun d hd ↦ hf d (List.mem_cons_of_mem c hd)).bind fun _ ↦ pure _

theorem foldlM {f : β → γ → Act β} (items : List γ) (first : β)
    (hf : ∀ b, ∀ c ∈ items, Meets C world (f b c)) : Meets C world (items.foldlM f first) := by
  induction items generalizing first with
  | nil => exact pure _
  | cons c rest ih =>
    rw [List.foldlM_cons]
    exact (hf first c List.mem_cons_self).bind fun b ↦
      ih b fun b d hd ↦ hf b d (List.mem_cons_of_mem c hd)

theorem filterM {f : γ → Act Bool} (items : List γ) (hf : ∀ c ∈ items, Meets C world (f c)) :
    Meets C world (items.filterM f) := by
  have hloop : ∀ kept, Meets C world (items.filterAuxM f kept) := by
    induction items with
    | nil => exact fun kept ↦ pure _
    | cons c rest ih =>
      intro kept
      exact (hf c List.mem_cons_self).bind fun keep ↦
        ih (fun d hd ↦ hf d (List.mem_cons_of_mem c hd)) _
  exact (hloop []).bind fun _ ↦ pure _

end Meets

namespace Keeps

variable {R : State → State → Prop} [IsPreorder State R]

theorem forM {f : γ → Act PUnit} (items : List γ) (hf : ∀ c ∈ items, (f c).Keeps R world) :
    (items.forM f).Keeps R world :=
  Meets.iff_keeps.mp (.forM items fun c hc ↦ Meets.iff_keeps.mpr (hf c hc))

theorem mapM {f : γ → Act β} (items : List γ) (hf : ∀ c ∈ items, (f c).Keeps R world) :
    (items.mapM f).Keeps R world :=
  Meets.iff_keeps.mp (.mapM items fun c hc ↦ Meets.iff_keeps.mpr (hf c hc))

end Keeps

/-! ### Whole operations -/

namespace Concludes

theorem of_meets {act : Act α} (hact : act.Meets C world) : Concludes C world act where
  concluded hrun := C.conclude (hact.answered hrun)
  failed hrun := hact.failed hrun

theorem after {act : Act α} {next : α → Act β} (hact : act.Meets C world)
    (hnext : ∀ a, Concludes C world (next a)) : Concludes C world (act >>= next) where
  concluded hrun := by
    obtain ⟨a, u, hfirst, hrest⟩ := ok_of_bind hrun
    exact C.concludedAfter (hact.answered hfirst) ((hnext a).concluded hrest)
  failed hrun := by
    rcases cases_of_bind_error hrun with hfirst | ⟨a, u, hfirst, hrest⟩
    · exact hact.failed hfirst
    · exact C.failedAfter (hact.answered hfirst) ((hnext a).failed hrest)

/-- What an operation answers may be made from what another one does. -/
theorem answering {act : Act α} (hact : Concludes C world act) (f : α → β) :
    Concludes C world (act >>= fun a ↦ pure (f a)) where
  concluded hrun := by
    obtain ⟨a, u, hfirst, hrest⟩ := ok_of_bind hrun
    cases hrest
    exact hact.concluded hfirst
  failed hrun := by
    rcases cases_of_bind_error hrun with hfirst | ⟨a, u, -, hrest⟩
    · exact hact.failed hfirst
    · cases hrest

theorem ite {c : Prop} [Decidable c] {act other : Act α} (hact : Concludes C world act)
    (hother : Concludes C world other) : Concludes C world (if c then act else other) := by
  split
  · exact hact
  · exact hother

theorem keeps {R : State → State → Prop} {act : Act α} (hact : Concludes C world act)
    (hconcluded : ∀ s t, C.concluded s t → R s t) (hfailed : ∀ s e t, C.failed s e t → R s t) :
    act.Keeps R world := by
  intro s
  cases hrun : act.runIn world s with
  | mk answer t =>
    cases answer with
    | error e => exact hfailed s e t (hact.failed hrun)
    | ok a => exact hconcluded s t (hact.concluded hrun)

end Concludes

/-! ### Questions -/

namespace Decides

variable {question : Act Bool} {denial : Error}

theorem of_meets (hquestion : question.Meets C world) : Decides C world denial question where
  affirmed hrun := hquestion.answered hrun
  concluded hrun := C.conclude (hquestion.answered hrun)
  denied hrun := C.failedAfter (hquestion.answered hrun) (C.raise _ denial)
  failed hrun := hquestion.failed hrun

theorem after {act : Act α} {next : α → Act Bool} (hact : act.Meets C world)
    (hnext : ∀ a, Decides C world denial (next a)) : Decides C world denial (act >>= next) where
  affirmed hrun := by
    obtain ⟨a, u, hfirst, hrest⟩ := ok_of_bind hrun
    exact C.trans (hact.answered hfirst) ((hnext a).affirmed hrest)
  concluded hrun := by
    obtain ⟨a, u, hfirst, hrest⟩ := ok_of_bind hrun
    exact C.concludedAfter (hact.answered hfirst) ((hnext a).concluded hrest)
  denied hrun := by
    obtain ⟨a, u, hfirst, hrest⟩ := ok_of_bind hrun
    exact C.failedAfter (hact.answered hfirst) ((hnext a).denied hrest)
  failed hrun := by
    rcases cases_of_bind_error hrun with hfirst | ⟨a, u, hfirst, hrest⟩
    · exact hact.failed hfirst
    · exact C.failedAfter (hact.answered hfirst) ((hnext a).failed hrest)

theorem ite {c : Prop} [Decidable c] {other : Act Bool}
    (hquestion : Decides C world denial question) (hother : Decides C world denial other) :
    Decides C world denial (if c then question else other) := by
  split
  · exact hquestion
  · exact hother

/-- Whoever relies on what is asked for fails for the reason of the denial. -/
theorem require (hquestion : Decides C world denial question) :
    Meets C world (do if !(← question) then MonadExcept.throw denial : Act PUnit) where
  answered hrun := by
    obtain ⟨found, u, hasked, hrest⟩ := ok_of_bind hrun
    cases found with
    | true =>
      cases hrest
      exact hquestion.affirmed hasked
    | false => cases hrest
  failed hrun := by
    rcases cases_of_bind_error hrun with hasked | ⟨found, u, hasked, hrest⟩
    · exact hquestion.failed hasked
    · cases found with
      | true => cases hrest
      | false =>
        cases hrest
        exact hquestion.denied hasked

/-- Whoever reports what is asked for answers. -/
theorem answering (hquestion : Decides C world denial question) (f : Bool → β) :
    Concludes C world (question >>= fun found ↦ pure (f found)) := by
  refine Concludes.answering ⟨fun {s t a} hrun ↦ ?_, hquestion.failed⟩ f
  cases a with
  | true => exact C.conclude (hquestion.affirmed hrun)
  | false => exact hquestion.concluded hrun

/-- Whoever relies on a denial goes on after it. -/
theorem refuse (hquestion : Decides C world denial question) {e : Error} {act : Act PUnit}
    (hact : ∀ s, ∃ t, act.runIn world s = (.ok ⟨⟩, t) ∧ C.answered s t) :
    Concludes C world (do
      if ← question then MonadExcept.throw e
      act) where
  concluded hrun := by
    obtain ⟨found, u, hasked, hrest⟩ := ok_of_bind hrun
    cases found with
    | true => cases hrest
    | false =>
      obtain ⟨t, hdone, ht⟩ := hact u
      cases hdone.symm.trans hrest
      exact C.answeredAfter (hquestion.concluded hasked) ht
  failed hrun := by
    rcases cases_of_bind_error hrun with hasked | ⟨found, u, hasked, hrest⟩
    · exact hquestion.failed hasked
    · cases found with
      | true =>
        cases hrest
        exact C.failedAfter (hquestion.affirmed hasked) (C.raise _ e)
      | false =>
        obtain ⟨t, hdone, -⟩ := hact u
        cases hdone.symm.trans hrest

end Decides

end Act

/-! ### Computations that carry a state of their own -/

/-- A computation that carries a state of its own meets a contract if it does so from each. -/
def Carrying.Meets (C : Contract) (world : World) {σ α : Type} (act : StateT σ Act α) : Prop :=
  ∀ t, (act.run t).Meets C world

namespace Carrying.Meets

variable {C : Contract} {world : World} {σ α β γ : Type}

theorem of_keeps {act : StateT σ Act α} (hact : Carrying.Keeps C.answered world act) :
    Meets C world act :=
  fun t ↦ .of_keeps (hact t)

theorem iff_keeps {R : State → State → Prop} [IsPreorder State R] {act : StateT σ Act α} :
    Meets (.ofRelation R) world act ↔ Carrying.Keeps R world act :=
  forall_congr' fun _ ↦ Act.Meets.iff_keeps

theorem lift {act : Act α} (hact : act.Meets C world) :
    Meets C world (liftM act : StateT σ Act α) :=
  fun _ ↦ hact.bind fun _ ↦ .pure _

theorem pure (a : α) : Meets C world (pure a : StateT σ Act α) := of_keeps (.pure a)

theorem throw (e : Error) : Meets C world (throw e : StateT σ Act α) := of_keeps (.throw e)

theorem get : Meets C world (get : StateT σ Act σ) := of_keeps .get

/-- What a computation reads is the world that it runs in. -/
theorem reading {next : World → StateT σ Act α} (hnext : Meets C world (next world)) :
    Meets C world (MonadReader.read >>= next) :=
  fun c ↦ ⟨fun hrun ↦ (hnext c).answered hrun, fun hrun ↦ (hnext c).failed hrun⟩

theorem modify (change : σ → σ) : Meets C world (modify change : StateT σ Act PUnit) :=
  of_keeps (.modify change)

theorem ofExcept (found : Except Error α) :
    Meets C world (MonadExcept.ofExcept found : StateT σ Act α) :=
  of_keeps (.ofExcept found)

theorem ite {c : Prop} [Decidable c] {act other : StateT σ Act α} (hact : Meets C world act)
    (hother : Meets C world other) : Meets C world (if c then act else other) := by
  split
  · exact hact
  · exact hother

theorem bind {act : StateT σ Act α} {next : α → StateT σ Act β} (hact : Meets C world act)
    (hnext : ∀ a, Meets C world (next a)) : Meets C world (act >>= next) :=
  fun t ↦ (hact t).bind fun p ↦ hnext p.1 p.2

/-- A check that ends a computation. -/
theorem refuse {c : Prop} [Decidable c] {e : Error} {next : PUnit → StateT σ Act α}
    (hnext : Meets C world (next ⟨⟩)) :
    Meets C world (if c then (MonadExcept.throw e : StateT σ Act PUnit) >>= next else next ⟨⟩) :=
  ite ((throw e).bind fun _ ↦ hnext) hnext

theorem map {act : StateT σ Act α} (f : α → β) (hact : Meets C world act) :
    Meets C world (f <$> act) := by
  rw [map_eq_pure_bind]
  exact hact.bind fun _ ↦ pure _

theorem mapM {f : γ → StateT σ Act β} (items : List γ) (hf : ∀ c ∈ items, Meets C world (f c)) :
    Meets C world (items.mapM f) := by
  induction items with
  | nil => exact pure _
  | cons c rest ih =>
    rw [List.mapM_cons]
    exact (hf c List.mem_cons_self).bind fun _ ↦
      (ih fun d hd ↦ hf d (List.mem_cons_of_mem c hd)).bind fun _ ↦ pure _

theorem foldlM {f : β → γ → StateT σ Act β} (items : List γ) (first : β)
    (hf : ∀ b, ∀ c ∈ items, Meets C world (f b c)) : Meets C world (items.foldlM f first) := by
  induction items generalizing first with
  | nil => exact pure _
  | cons c rest ih =>
    rw [List.foldlM_cons]
    exact (hf first c List.mem_cons_self).bind fun b ↦
      ih b fun b d hd ↦ hf b d (List.mem_cons_of_mem c hd)

end Carrying.Meets

end RuleMarshal
