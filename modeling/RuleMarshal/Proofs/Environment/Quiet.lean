import RuleMarshal.Proofs.Environment.Service
import RuleMarshal.Proofs.Schema.Memory
/-!
What an operation leaves alone while it only asks the engine. The history only grows
(`Evolves.history_grows`) and no schema changes (`Evolves.memo_agrees`), whatever is done. An
operation that only asks makes no instances (`Evolves.creations_eq`) and binds no functions
(`Evolves.bound_subset`), and neither does a host function that the engine calls.
-/

set_option autoImplicit false
set_option relaxedAutoImplicit false

namespace RuleMarshal

/-- An order to make an instance. -/
structure Creation where
  name : Option String
  className : String
  slots : List (String × Term)

/-- The order to make an instance that an event is. -/
def Event.creation? : Event → Option Creation
  | .command (.evaluate (.makeInstance name className slots)) => some ⟨name, className, slots⟩
  | _ => none

/-- The orders to make instances that were sent, in order. -/
def State.creations (s : State) : List Creation := s.history.toList.filterMap Event.creation?

theorem State.creations_push (s : State) (e : Event) :
    { s with history := s.history.push e }.creations = s.creations ++ e.creation?.toList := by
  simp only [creations, Array.toList_push, List.filterMap_append]
  cases hcreation : e.creation? <;> simp [hcreation]

theorem Event.creation?_of_not_command {e : Event} (hevent : e.isCommand = false) :
    e.creation? = none := by
  cases e <;> simp_all [isCommand, creation?]

theorem Command.creation?_of_not_guarded {c : Command} (hguard : c.isGuarded = false) :
    (Event.command c).creation? = none := by
  unfold Event.creation?
  split
  · rename_i heq
    cases heq
    simp [isGuarded, Expression.isGuarded] at hguard
  · rfl

variable {σ : Setup} {m : Manner} {s t : State}

/-- What happened before stays written. -/
theorem Evolves.history_grows (hst : Evolves σ m s t) : s.history.toList <+: t.history.toList := by
  induction hst with
  | trans _ _ hs ht => exact hs.trans ht
  | call m hrun ih => exact ih
  | note m s e hevent => exact ⟨[e], by simp⟩
  | send m s c hopen hguard => exact ⟨[.command c], by simp⟩
  | _ => exact List.prefix_rfl

/-- No schema changes. -/
theorem Evolves.memo_agrees (hst : Evolves σ m s t) :
    s.memo.Agrees σ.types σ.config.tags t.memo := by
  induction hst with
  | trans _ _ hs ht => exact hs.trans ht
  | call m hrun ih => exact ih
  | reflect m s h => exact Memo.agrees_reflect h s.memo
  | _ => exact fun _ ↦ rfl

/-- Who only asks makes no instances, and neither does a function that is called. -/
theorem Evolves.creations_eq (hst : Evolves σ m s t) (hcalm : m = .asking ∨ 0 < s.depth) :
    t.creations = s.creations := by
  induction hst with
  | trans hst _ hs ht => exact (ht (hst.depth_eq ▸ hcalm)).trans (hs hcalm)
  | call m hrun ih => exact ih (.inr (Nat.succ_pos _))
  | note m s e hevent =>
    rw [State.creations_push, Event.creation?_of_not_command hevent, Option.toList_none,
      List.append_nil]
  | send m s c hopen hguard =>
    have hc : c.isGuarded = false := by
      cases hguarded : c.isGuarded with
      | false => rfl
      | true =>
        obtain ⟨hmanner, hrest⟩ := hguard hguarded
        obtain hasking | hdepth := hcalm
        · exact absurd hasking hmanner
        · exact absurd hrest (Nat.ne_of_gt hdepth)
    change State.creations { s with history := s.history.push (.command c) } = _
    rw [State.creations_push, Command.creation?_of_not_guarded hc, Option.toList_none,
      List.append_nil]
  | _ => rfl

/-- Who only asks binds no functions, and neither does a function that is called. -/
theorem Evolves.bound_subset (hst : Evolves σ m s t) (hcalm : m = .asking ∨ 0 < s.depth) :
    t.bound ⊆ s.bound := by
  induction hst with
  | trans hst _ hs ht => exact List.Subset.trans (ht (hst.depth_eq ▸ hcalm)) (hs hcalm)
  | call m hrun ih => exact ih (.inr (Nat.succ_pos _))
  | send m s c hopen hguard => exact List.filter_sublist.subset
  | bind m s hmanner hrest name r => simp [hmanner, hrest] at hcalm
  | _ => exact fun _ hp ↦ hp

end RuleMarshal
