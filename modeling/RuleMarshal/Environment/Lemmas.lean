import RuleMarshal.Environment.State
/-!
Equations of computations on an environment: what a computation comes to, and the state that it
leaves, said for each way of building one from others. A computation that fails hands on the state
that it had reached (`runIn_bind`), and a handler goes on from there (`runIn_tryCatch`).
-/

set_option autoImplicit false
set_option relaxedAutoImplicit false

namespace RuleMarshal.Act

section

variable {α β : Type} (world : World) (s : State)

/-! ### Building blocks -/

@[simp] theorem runIn_pure (a : α) : (pure a : Act α).runIn world s = (.ok a, s) := rfl

@[simp] theorem runIn_throw (e : Error) : (throw e : Act α).runIn world s = (.error e, s) := rfl

@[simp] theorem runIn_get : (get : Act State).runIn world s = (.ok s, s) := rfl

@[simp] theorem runIn_read : (read : Act World).runIn world s = (.ok world, s) := rfl

@[simp] theorem runIn_modify (change : State → State) :
    (modify change : Act PUnit).runIn world s = (.ok ⟨⟩, change s) := rfl

@[simp] theorem runIn_ofRun (run : World → State → Except Error α × State) :
    (ofRun run).runIn world s = run world s := rfl

@[simp] theorem runIn_alloc (cell : Cell) :
    (alloc cell).runIn world s =
      (.ok (s.heap.alloc cell).2, { s with heap := (s.heap.alloc cell).1 }) := rfl

/-! ### One after the other -/

theorem runIn_bind (act : Act α) (next : α → Act β) :
    (act >>= next).runIn world s =
      match act.runIn world s with
      | (.ok a, after) => (next a).runIn world after
      | (.error e, after) => (.error e, after) := by
  change StateT.bind (act world) (ExceptT.bindCont fun a ↦ next a world) s = _
  simp only [StateT.bind, runIn]
  cases act world s with
  | mk answer after => cases answer <;> rfl

theorem runIn_tryCatch (act : Act α) (handle : Error → Act α) :
    (tryCatch act handle).runIn world s =
      match act.runIn world s with
      | (.ok a, after) => (.ok a, after)
      | (.error e, after) => (handle e).runIn world after := by
  change ExceptT.tryCatch (act world) (fun e ↦ handle e world) s = _
  simp only [ExceptT.tryCatch, ExceptT.mk, runIn]
  change StateT.bind (act world) _ s = _
  simp only [StateT.bind]
  cases act world s with
  | mk answer after => cases answer <;> rfl

theorem runIn_map (f : α → β) (act : Act α) :
    (f <$> act).runIn world s = ((act.runIn world s).1.map f, (act.runIn world s).2) := by
  rw [map_eq_pure_bind, runIn_bind]
  cases act.runIn world s with
  | mk answer after => cases answer <;> rfl

theorem runIn_discard (act : Act α) :
    (discard act).runIn world s =
      match act.runIn world s with
      | (.ok _, after) => (.ok ⟨⟩, after)
      | (.error e, after) => (.error e, after) := by
  change Act.runIn (Function.const α PUnit.unit <$> act) world s = _
  rw [map_eq_pure_bind, runIn_bind]
  rfl

@[simp] theorem runIn_always (act : Act α) (change : State → State) :
    (act.always change).runIn world s =
      ((act.runIn world s).1, change (act.runIn world s).2) := rfl

end

end RuleMarshal.Act
