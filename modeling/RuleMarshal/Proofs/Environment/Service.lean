import RuleMarshal.Proofs.Convert.Resolution
import RuleMarshal.Proofs.Environment.Evolution
/-!
Commands and the calls that the engine makes while it works on them. A call keeps what its parts
keep (`KeptByCalls`). In an orderly world, where host functions evolve the state as host programs do
(`World.Orderly`), serving a call evolves it too (`Channel.keeps_serve`), however the call ends.
Hence evolution is a frame: in every manner for the commands that are not guarded, and for all
commands while no host function runs (`FromRest`), which is what the guard of an operation provides
(`Act.Keeps.afterGuard`).
-/

set_option autoImplicit false
set_option relaxedAutoImplicit false

namespace RuleMarshal

open Act

/-- A world whose host functions evolve the state of an environment, and whose conversions ask the
engine at most. -/
structure World.Orderly (world : World) : Prop where
  invoke : ∀ f args s, Evolves world.setup .acting s (world.invoke f args s).2
  resolve : ∀ v h s, Evolves world.setup .asking s (world.resolve v h s).2

variable {world : World} {m : Manner}

theorem Evolves.serial (s : State) (n : Nat) :
    Evolves world.setup m s { s with serial := n } :=
  .books m s _ _ _ _ _ _ n _

theorem Evolves.parked (s : State) (found : Option Error) :
    Evolves world.setup m s { s with parked := found } :=
  .books m s _ _ _ _ found _ _ _

theorem Evolves.calls (s : State) (calls : Array (Heap × Heap)) :
    Evolves world.setup m s { s with calls } :=
  .books m s _ _ _ _ _ _ _ calls

theorem keeps_note {e : Event} (hevent : e.isCommand = false) :
    (note e).Keeps (Evolves world.setup m) world :=
  fun s ↦ .note m s e hevent

theorem keeps_schemaOf (h : Hint) : (schemaOf h).Keeps (Evolves world.setup m) world :=
  fun s ↦ .reflect m s h

/-! ### Calls by the engine -/

namespace Signature

variable {R : State → State → Prop} [IsPreorder State R] (sig : Signature)
variable {resolve : Option (EngineValue → Hint → Act Value)}

theorem keeps_coerceFrom (hresolve : ∀ f ∈ resolve, ∀ v h, (f v h).Keeps R world) (position : Nat)
    (args : List EngineValue) : (sig.coerceFrom resolve position args).Keeps R world := by
  induction args generalizing position with
  | nil => exact .pure _
  | cons v rest ih =>
    refine .bind (.tryCatch (Hint.keeps_decode hresolve _ v) fun e ↦ .ite (.throw _) (.throw e)) ?_
    exact fun first ↦ (ih (position + 1)).bind fun _ ↦ .pure _

theorem keeps_coerce (hresolve : ∀ f ∈ resolve, ∀ v h, (f v h).Keeps R world)
    (args : List EngineValue) : (sig.coerce resolve args).Keeps R world :=
  .ite (sig.keeps_coerceFrom hresolve 0 args) (.throw _)

end Signature

/-- A relation that calls of host functions keep if it is kept by numbering handles, by parking a
failed call, by conversions, and by a function that runs with the count of running functions around
it. -/
structure KeptByCalls (world : World) (R : State → State → Prop) : Prop where
  serial : ∀ s n, R s { s with serial := n }
  park : ∀ s e, e.class? = some .call → R s { s with parked := some e }
  resolve : ∀ v h s, R s (world.resolve v h s).2
  run : ∀ f values s, R s
    { (world.invoke f values { s with depth := s.depth + 1 }).2 with
      depth := (world.invoke f values { s with depth := s.depth + 1 }).2.depth - 1 }

namespace Registration

variable {R : State → State → Prop} (hR : KeptByCalls world R)
variable (r : Registration) (args : List Native)
include hR

/-- The call of a host function with the count of running functions around it. -/
theorem keeps_running (values : List Value) :
    Act.Keeps R world (do
      modify fun s ↦ { s with depth := s.depth + 1 }
      tryCatch (Act.always (Act.ofRun fun w s ↦ w.invoke r.function values s)
        fun s ↦ { s with depth := s.depth - 1 }) fun e ↦
          throw (.call (.raised r.name e) (some r.name)) : Act Value) := by
  intro s
  have hrun := hR.run r.function values s
  simp only [runIn_bind, runIn_modify, runIn_tryCatch, runIn_always, runIn_ofRun]
  cases (world.invoke r.function values { s with depth := s.depth + 1 }).1 <;> exact hrun

variable [IsPreorder State R]

theorem keeps_attempt : (r.attempt args).Keeps R world := by
  refine .reading ?_
  refine (keeps_nativesToEngine hR.serial args).bind fun values ↦ ?_
  refine .bind (r.signature.keeps_coerce ?_ values) fun converted ↦ ?_
  · rintro f ⟨rfl⟩ v h s
    exact hR.resolve v h s
  · rw [← bind_assoc]
    refine (r.keeps_running hR converted).bind fun returned ↦ ?_
    exact .bind .get fun s ↦ .bind (.ofExcept _) fun v ↦ .ofExcept _

theorem keeps_call : (r.call args).Keeps R world := by
  refine (r.keeps_attempt hR args).tryCatch fun e ↦ .ite ?_ (.throw e)
  refine .bind (.modify fun s ↦ hR.park s _ ?_) fun _ ↦ .throw _
  cases e <;> rfl

end Registration

/-- In an orderly world calls evolve the state in every manner: what a function does counts as done
by it. -/
theorem World.Orderly.keptByCalls (hworld : world.Orderly) (m : Manner) :
    KeptByCalls world (Evolves world.setup m) where
  serial := Evolves.serial
  park s e _ := Evolves.parked s (some e)
  resolve v h s := (hworld.resolve v h s).freer (.inl rfl)
  run f values s := .call m (hworld.invoke f values { s with depth := s.depth + 1 })

namespace Channel

/-- Answering a call ends well, however the call ends. -/
theorem answer_answers (world : World) (c : EngineCall) (s : State) :
    ∃ t, (answer c).runIn world s = (.ok ⟨⟩, t) := by
  unfold answer
  rw [runIn_bind, runIn_get]
  dsimp only
  cases s.bound.lookup c.name with
  | none => exact ⟨_, rfl⟩
  | some r =>
    dsimp only
    rw [runIn_tryCatch, runIn_bind]
    cases (r.call c.args).runIn world s with
    | mk answer t => cases answer <;> exact ⟨_, rfl⟩

/-- A call that was answered is served, and its heaps are kept. -/
theorem runIn_serve_of_answer {c : EngineCall} {s t : State}
    (hanswer : (answer c).runIn world s = (.ok ⟨⟩, t)) :
    (serve c).runIn world s =
      (.ok ⟨⟩, { t with calls := s.calls.push (s.heap, t.heap) }) := by
  unfold serve
  rw [runIn_bind, runIn_get]
  dsimp only
  rw [runIn_bind_of_ok hanswer]
  rfl

theorem serve_answers (world : World) (c : EngineCall) (s : State) :
    ∃ t : State, (serve c).runIn world s =
      (.ok ⟨⟩, { t with calls := s.calls.push (s.heap, t.heap) }) := by
  obtain ⟨t, hanswer⟩ := answer_answers world c s
  exact ⟨t, runIn_serve_of_answer hanswer⟩

section

variable {R : State → State → Prop} [IsPreorder State R]

/-- Answering a call keeps what calls keep, if the event that ends it does. -/
theorem keeps_answer_of_kept (hR : KeptByCalls world R)
    (hnote : ∀ e, e.isCommand = false → (note e).Keeps R world) (c : EngineCall) :
    (answer c).Keeps R world := by
  refine .bind .get fun s ↦ ?_
  cases s.bound.lookup c.name with
  | none => exact hnote _ rfl
  | some r =>
    have hended : ∀ v, (note (.returned c.name v)).Keeps R world := fun v ↦ hnote _ rfl
    exact .tryCatch ((r.keeps_call hR c.args).bind hended) fun e ↦ hnote _ rfl

/-- Serving a call keeps what answering it keeps, if its heaps are of no account. -/
theorem keeps_serve_of_kept (hR : KeptByCalls world R)
    (hnote : ∀ e, e.isCommand = false → (note e).Keeps R world)
    (hcalls : ∀ s calls, R s { s with calls }) (c : EngineCall) : (serve c).Keeps R world :=
  .bind .get fun _ ↦ (keeps_answer_of_kept hR hnote c).bind fun _ ↦ .modify fun s ↦ hcalls s _

end

/-- Serving a call evolves the state in every manner, however the call ends. -/
theorem keeps_serve (hworld : world.Orderly) (c : EngineCall) :
    (serve c).Keeps (Evolves world.setup m) world :=
  keeps_serve_of_kept (hworld.keptByCalls m) (fun _ ↦ keeps_note) Evolves.calls c

/-- An exchange evolves the state if its command may be sent. -/
theorem evolves_exchange (hworld : world.Orderly) {c : Command} {s : State}
    (hopen : s.closed = false) (hguard : c.isGuarded = true → m ≠ .asking ∧ s.depth = 0) :
    Evolves world.setup m s ((exchange c).runIn world s).2 := by
  have hcalls : Act.Keeps (Evolves world.setup m) world (do
      ((world.engine s.history c).calls.forM serve : Act PUnit)
      return (world.engine s.history c).outcome) :=
    .bind (.forM _ fun call _ ↦ keeps_serve hworld call) fun _ ↦ .pure _
  exact .trans (.send m s c hopen hguard) (hcalls _)

end Channel

/-! ### Evolution as a frame -/

/-- In every manner, evolution is a frame for the commands that are not guarded. -/
theorem World.Orderly.frame (hworld : world.Orderly) (m : Manner) :
    Frame world (fun c ↦ c.isGuarded = false) (Evolves world.setup m) where
  unguarded _ hc := hc
  serial := Evolves.serial
  parked := Evolves.parked
  schemaOf := keeps_schemaOf
  exchange c hc s hopen := Channel.evolves_exchange hworld hopen fun hguarded ↦
    absurd hguarded (by simp [hc])

/-- What a state evolves to if no host function runs in it. -/
def FromRest (σ : Setup) (m : Manner) (s t : State) : Prop :=
  s.depth = 0 → Evolves σ m s t

instance FromRest.isPreorder {σ : Setup} : IsPreorder State (FromRest σ m) where
  refl s _ := .refl m s
  trans _ _ _ hst htu hrest := .trans (hst hrest) (htu ((hst hrest).depth_eq.trans hrest))

/-- Where no host function runs, evolution that gives orders is a frame for all commands. -/
theorem World.Orderly.frameFromRest (hworld : world.Orderly) (hmanner : m ≠ .asking) :
    Frame world (fun _ ↦ True) (FromRest world.setup m) where
  unguarded _ _ := trivial
  serial s n _ := Evolves.serial s n
  parked s found _ := Evolves.parked s found
  schemaOf h s _ := keeps_schemaOf h s
  exchange _ _ _ hopen hrest := Channel.evolves_exchange hworld hopen fun _ ↦ ⟨hmanner, hrest⟩

theorem Act.runIn_guardMutation_bind {α : Type} (operation : String) (next : PUnit → Act α)
    (s : State) :
    (guardMutation operation >>= next).runIn world s =
      if s.closed then (.error (.stale .closed), s)
      else if 0 < s.depth then (.error (.call (.reentered operation) none), s)
      else (next ⟨⟩).runIn world s := by
  unfold guardMutation
  rw [bind_assoc, Channel.runIn_requireOpen_bind]
  split
  · rfl
  · by_cases hdepth : 0 < s.depth <;> simp [hdepth, runIn_bind]

/-- An operation that ends with an answer has passed its guard. -/
theorem Act.ok_of_guardMutation {α : Type} {operation : String} {next : PUnit → Act α} {a : α}
    {s t : State} (hrun : (guardMutation operation >>= next).runIn world s = (.ok a, t)) :
    s.closed = false ∧ s.depth = 0 ∧ (next ⟨⟩).runIn world s = (.ok a, t) := by
  rw [runIn_guardMutation_bind] at hrun
  split at hrun
  · cases hrun
  · rename_i hopen
    split at hrun
    · cases hrun
    · rename_i hdepth
      exact ⟨Bool.eq_false_iff.mpr hopen, Nat.eq_zero_of_not_pos hdepth, hrun⟩

/-- Behind its guard an operation has to keep to what holds while no host function runs. -/
theorem Act.Keeps.afterGuard {α : Type} {operation : String} {next : PUnit → Act α}
    (hnext : (next ⟨⟩).Keeps (FromRest world.setup m) world) :
    (guardMutation operation >>= next).Keeps (Evolves world.setup m) world := by
  intro s
  rw [runIn_guardMutation_bind]
  split
  · exact .refl m s
  · split
    · exact .refl m s
    · rename_i hrest
      exact hnext s (Nat.eq_zero_of_not_pos hrest)

/-- The guard of an operation changes nothing. -/
theorem Act.keeps_guardMutation {R : State → State → Prop} [IsPreorder State R]
    (operation : String) :
    (guardMutation operation).Keeps R world :=
  .afterOpen fun s _ ↦ (Keeps.bind .get fun _ ↦ .ite (.throw _) (.pure _)) s

end RuleMarshal
