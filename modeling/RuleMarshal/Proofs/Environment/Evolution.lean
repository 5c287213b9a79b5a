import RuleMarshal.Proofs.Computation.Lookup
import RuleMarshal.Proofs.Handle.Inquiry
/-!
How the state of an environment evolves. Every change that an operation makes, and every change that
host functions make while the engine works on a command, is one of a few (`Evolves`): bookkeeping,
an event in the history, a command with what the engine forgets, a whole call of a host function, or
a change of the environment's standing. Guarded commands and changes of the standing happen only
while no host function runs; closing is the exception.

From this the laws of epochs follow by induction: no counter ever falls and a closed environment
stays closed (`Evolves.le`), and while a host function runs, or as long as nothing but commands is
sent, the standing of an environment that stays open does not change (`Evolves.sameStanding`).
-/

set_option autoImplicit false
set_option relaxedAutoImplicit false

namespace RuleMarshal

/-! ### Standing -/

/-- How often the template or class of a name was undefined. -/
def State.generation (s : State) (kind : ConstructKind) (name : String) : Nat :=
  (s.generations.lookup (kind, name)).getD 0

/-- A state after the handles on a template or class were made to refer to nothing. -/
def State.retire (s : State) (kind : ConstructKind) (name : String) : State :=
  { s with
    generations :=
      ((kind, name), s.generation kind name + 1) ::
        s.generations.filter fun p ↦ p.1 ≠ (kind, name) }

theorem State.constructEpochOf_eq (s : State) (kind : ConstructKind) (name : String) :
    s.constructEpochOf kind name = (s.constructEpoch, s.generation kind name) := rfl

theorem State.generation_retire_self (s : State) (kind : ConstructKind) (name : String) :
    (s.retire kind name).generation kind name = s.generation kind name + 1 := by
  simp [retire, generation]

theorem State.generation_retire_ne (s : State) {kind other : ConstructKind} {name given : String}
    (hne : (other, given) ≠ (kind, name)) :
    (s.retire kind name).generation other given = s.generation other given := by
  have hkey : ((other, given) == (kind, name)) = false := by simpa using hne
  have hlookup := lookup_filter (fun key ↦ decide (key ≠ (kind, name))) s.generations (other, given)
  rw [if_pos (decide_eq_true hne)] at hlookup
  unfold retire generation
  rw [List.lookup_cons, hkey]
  exact congrArg (fun found : Option Nat ↦ found.getD 0) hlookup

/-- Two states of an environment with the same standing: open or closed alike, with the same epochs
and the same registered functions. -/
structure State.SameStanding (s t : State) : Prop where
  closed : t.closed = s.closed
  constructEpoch : t.constructEpoch = s.constructEpoch
  dataEpoch : t.dataEpoch = s.dataEpoch
  generations : t.generations = s.generations
  functions : t.functions = s.functions

theorem State.SameStanding.refl (s : State) : s.SameStanding s := ⟨rfl, rfl, rfl, rfl, rfl⟩

theorem State.SameStanding.trans {s t u : State} (hst : s.SameStanding t) (htu : t.SameStanding u) :
    s.SameStanding u :=
  ⟨htu.closed.trans hst.closed, htu.constructEpoch.trans hst.constructEpoch,
    htu.dataEpoch.trans hst.dataEpoch, htu.generations.trans hst.generations,
    htu.functions.trans hst.functions⟩

/-! ### Evolution -/

/-- What an operation is free to do: to ask the engine, also to give it orders, or also to change
the standing of the environment. -/
inductive Manner where
  | asking | ordering | acting
  deriving DecidableEq

/-- What an environment has been set up with, and no operation changes. -/
structure Setup where
  types : TypeTable
  config : Config
  engine : Array Event → Command → Reply

/-- What the environment of a world has been set up with. -/
def World.setup (world : World) : Setup := ⟨world.types, world.config, world.engine⟩

/-- How the state of an environment may change in the course of an operation. -/
inductive Evolves (σ : Setup) : Manner → State → State → Prop where
  | refl (m : Manner) (s : State) : Evolves σ m s s
  | trans {m : Manner} {s t u : State} (hst : Evolves σ m s t) (htu : Evolves σ m t u) :
      Evolves σ m s u
  | books (m : Manner) (s : State) (heap : Heap) (readings : Nat)
      (named labels : List (String × Value))
      (parked : Option Error) (visited : Visited) (serial : Nat) (calls : Array (Heap × Heap)) :
      Evolves σ m s { s with heap, readings, named, labels, parked, visited, serial, calls }
  /-- A type is reflected, and remembered or forgotten. -/
  | reflect (m : Manner) (s : State) (h : Hint) :
      Evolves σ m s { s with memo := ((reflect σ.types σ.config.tags h).run s.memo).2 }
  | note (m : Manner) (s : State) (e : Event) (hevent : e.isCommand = false) :
      Evolves σ m s { s with history := s.history.push e }
  /-- A command is sent, and the engine forgets some functions. -/
  | send (m : Manner) (s : State) (c : Command) (hopen : s.closed = false)
      (hguard : c.isGuarded = true → m ≠ .asking ∧ s.depth = 0) :
      Evolves σ m s
        { s with
          history := s.history.push (.command c)
          bound := s.bound.filter fun p ↦ !(σ.engine s.history c).forgets.contains p.1 }
  /-- The engine calls a host function, which may do whatever a host program may. -/
  | call (m : Manner) {s t : State} (hrun : Evolves σ .acting { s with depth := s.depth + 1 } t) :
      Evolves σ m s { t with depth := t.depth - 1 }
  | bind (m : Manner) (s : State) (hmanner : m ≠ .asking) (hrest : s.depth = 0) (name : String)
      (r : Registration) :
      Evolves σ m s { s with bound := putNamed s.bound name r }
  | register (s : State) (hrest : s.depth = 0) (name : String) (r : Registration) :
      Evolves σ .acting s { s with functions := putNamed s.functions name r }
  | endData (s : State) (hrest : s.depth = 0) :
      Evolves σ .acting s { s with dataEpoch := s.dataEpoch + 1 }
  | endAll (s : State) (hrest : s.depth = 0) :
      Evolves σ .acting s
        { s with constructEpoch := s.constructEpoch + 1, dataEpoch := s.dataEpoch + 1 }
  | retire (s : State) (hrest : s.depth = 0) (kind : ConstructKind) (name : String) :
      Evolves σ .acting s (s.retire kind name)
  | close (s : State) (hopen : s.closed = false) :
      Evolves σ .acting s
        { s with
          closed := true
          constructEpoch := s.constructEpoch + 1
          dataEpoch := s.dataEpoch + 1 }

variable {σ : Setup} {m : Manner} {s t : State}

instance Evolves.isPreorder : IsPreorder State (Evolves σ m) where
  refl s := .refl m s
  trans _ _ _ hst htu := .trans hst htu

/-- What an operation does in one manner it is free to do in a freer one. -/
theorem Evolves.freer {m n : Manner} (hst : Evolves σ m s t)
    (hfreer : m = .asking ∨ n = .acting ∨ m = n) : Evolves σ n s t := by
  induction hst with
  | refl m s => exact .refl n s
  | trans _ _ hs ht => exact .trans (hs hfreer) (ht hfreer)
  | books m s => exact .books n s ..
  | reflect m s h => exact .reflect n s h
  | note m s e hevent => exact .note n s e hevent
  | send m s c hopen hguard =>
    refine .send n s c hopen fun hc ↦ ⟨?_, (hguard hc).2⟩
    rcases hfreer with rfl | rfl | rfl
    · exact absurd rfl (hguard hc).1
    · decide
    · exact (hguard hc).1
  | call m hrun => exact .call n hrun
  | bind m s hmanner hrest name r =>
    refine .bind n s ?_ hrest name r
    rcases hfreer with rfl | rfl | rfl
    · exact absurd rfl hmanner
    · decide
    · exact hmanner
  | register s hrest name r =>
    obtain rfl : n = .acting := by simpa [eq_comm] using hfreer
    exact .register s hrest name r
  | endData s hrest =>
    obtain rfl : n = .acting := by simpa [eq_comm] using hfreer
    exact .endData s hrest
  | endAll s hrest =>
    obtain rfl : n = .acting := by simpa [eq_comm] using hfreer
    exact .endAll s hrest
  | retire s hrest kind name =>
    obtain rfl : n = .acting := by simpa [eq_comm] using hfreer
    exact .retire s hrest kind name
  | close s hopen =>
    obtain rfl : n = .acting := by simpa [eq_comm] using hfreer
    exact .close s hopen

/-! ### The laws of epochs -/

/-- Calls of host functions are over when an operation is. -/
theorem Evolves.depth_eq (hst : Evolves σ m s t) : t.depth = s.depth := by
  induction hst with
  | trans _ _ hs ht => exact ht.trans hs
  | call m hrun ih =>
    show _ - 1 = _
    rw [ih]
    rfl
  | _ => rfl

/-- No counter of a state is ahead of that of a later state, and no closed state is open later. -/
structure State.Le (s t : State) : Prop where
  closed : s.closed = true → t.closed = true
  constructEpoch : s.constructEpoch ≤ t.constructEpoch
  dataEpoch : s.dataEpoch ≤ t.dataEpoch
  generation : ∀ kind name, s.generation kind name ≤ t.generation kind name

/-- Counters never fall, and a closed environment stays closed. -/
theorem Evolves.le (hst : Evolves σ m s t) : s.Le t := by
  induction hst with
  | trans _ _ hs ht =>
    exact ⟨ht.closed ∘ hs.closed, Nat.le_trans hs.constructEpoch ht.constructEpoch,
      Nat.le_trans hs.dataEpoch ht.dataEpoch, fun kind name ↦
        Nat.le_trans (hs.generation kind name) (ht.generation kind name)⟩
  | call m hrun ih => exact ⟨ih.closed, ih.constructEpoch, ih.dataEpoch, ih.generation⟩
  | endData s hrest => exact ⟨id, Nat.le_refl _, Nat.le_succ _, fun _ _ ↦ Nat.le_refl _⟩
  | endAll s hrest => exact ⟨id, Nat.le_succ _, Nat.le_succ _, fun _ _ ↦ Nat.le_refl _⟩
  | close s hopen => exact ⟨fun _ ↦ rfl, Nat.le_succ _, Nat.le_succ _, fun _ _ ↦ Nat.le_refl _⟩
  | retire s hrest kind name =>
    refine ⟨id, Nat.le_refl _, Nat.le_refl _, fun other given ↦ ?_⟩
    by_cases hsame : (other, given) = (kind, name)
    · obtain ⟨rfl, rfl⟩ := Prod.mk.inj hsame
      exact Nat.le_trans (Nat.le_succ _) (Nat.le_of_eq (s.generation_retire_self other given).symm)
    · exact Nat.le_of_eq (s.generation_retire_ne hsame).symm
  | _ => exact ⟨id, Nat.le_refl _, Nat.le_refl _, fun _ _ ↦ Nat.le_refl _⟩

/-- While a host function runs, and as long as only commands are sent, an environment that is open
in the end has kept its standing. -/
theorem Evolves.sameStanding (hst : Evolves σ m s t) (hcalm : m ≠ .acting ∨ 0 < s.depth)
    (hopen : t.closed = false) : s.SameStanding t := by
  induction hst with
  | refl m s => exact .refl s
  | @trans m s t u hst htu hs ht =>
    have hmiddle : t.closed = false := by
      cases hclosed : t.closed with
      | false => rfl
      | true => exact absurd (htu.le.closed hclosed) (by simp [hopen])
    exact (hs hcalm hmiddle).trans (ht (hst.depth_eq ▸ hcalm) hopen)
  | call m hrun ih =>
    obtain ⟨h₁, h₂, h₃, h₄, h₅⟩ := ih (.inr (Nat.succ_pos _)) hopen
    exact ⟨h₁, h₂, h₃, h₄, h₅⟩
  | register s hrest => simp [hrest] at hcalm
  | endData s hrest => simp [hrest] at hcalm
  | endAll s hrest => simp [hrest] at hcalm
  | retire s hrest => simp [hrest] at hcalm
  | close s => exact absurd hopen (by simp)
  | _ => exact ⟨rfl, rfl, rfl, rfl, rfl⟩

end RuleMarshal
