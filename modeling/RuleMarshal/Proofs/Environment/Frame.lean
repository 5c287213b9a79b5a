import RuleMarshal.Environment.Synthesis
import RuleMarshal.Proofs.Computation.Keeps
/-!
Frames: relations that are kept by everything an operation does between the changes of its own. A
frame allows some commands, among them all that may be sent while a host function runs, and is kept
by exchanging an allowed command with an open engine, by reflecting a type, by numbering a handle
and by parking a failure (`Frame`). Whatever is sent over the channel to the engine then stays
within it.
-/

set_option autoImplicit false
set_option relaxedAutoImplicit false

namespace RuleMarshal

/-! ### Guarded commands -/

/-- Whether an expression is only sent by operations that are refused while a host function runs. -/
def Expression.isGuarded : Expression → Bool
  | .makeInstance .. | .writeSlot .. | .deleteInstance _ | .unmakeInstance _ => true
  | .assertText _ | .assertFact .. | .retract _ | .modify .. => true
  | .undefine .. => true
  | _ => false

/-- Whether a command is only sent by operations that are refused while a host function runs.
Constructs are also defined by a synthesis, which is not refused. -/
def Command.isGuarded : Command → Bool
  | .evaluate e => e.isGuarded
  | .build _ => false
  | .load _ | .batch _ | .bindFunction _ | .run _ | .reset | .clear => true

/-! ### Frames -/

/-- A relation that exchanges of allowed commands with an open engine, reflection, numbers of
handles and parked failures keep to. -/
structure Frame (world : World) (allowed : Command → Prop) (R : State → State → Prop) : Prop where
  unguarded : ∀ c, c.isGuarded = false → allowed c
  serial : ∀ s n, R s { s with serial := n }
  parked : ∀ s found, R s { s with parked := found }
  schemaOf : ∀ h, (schemaOf h).Keeps R world
  exchange : ∀ c, allowed c → ∀ s, s.closed = false → R s ((Channel.exchange c).runIn world s).2

namespace Channel

variable {world : World} {s : State} {α : Type}

theorem runIn_requireOpen :
    requireOpen.runIn world s =
      (if s.closed then .error (.stale .closed) else .ok ⟨⟩, s) := by
  unfold requireOpen
  rw [Act.runIn_bind, Act.runIn_get]
  cases hclosed : s.closed <;> simp [hclosed]

theorem runIn_requireOpen_bind (next : PUnit → Act α) :
    (requireOpen >>= next).runIn world s =
      if s.closed then (.error (.stale .closed), s) else (next ⟨⟩).runIn world s := by
  rw [Act.runIn_bind, runIn_requireOpen]
  cases s.closed <;> rfl

end Channel

section

variable {world : World} {allowed : Command → Prop} {R : State → State → Prop} {α : Type}

open Act

/-- What begins with the demand for an open environment has to keep a relation from open states. -/
theorem Act.Keeps.afterOpen [IsPreorder State R] {next : PUnit → Act α}
    (hnext : ∀ s, s.closed = false → R s ((next ⟨⟩).runIn world s).2) :
    (Channel.requireOpen >>= next).Keeps R world := by
  intro s
  rw [Channel.runIn_requireOpen_bind]
  cases hclosed : s.closed with
  | true => exact refl_of R s
  | false => exact hnext s hclosed

/-! ### What the engine hands over -/

section

variable (hserial : ∀ s n, R s { s with serial := n })
include hserial

theorem Act.keeps_nextSerial : nextSerial.Keeps R world :=
  .modifyGet fun s ↦ hserial s (s.serial + 1)

variable [IsPreorder State R]

theorem Act.keeps_instanceHandle (name : String) : (instanceHandle name).Keeps R world :=
  (keeps_nextSerial hserial).bind fun _ ↦ .bind .get fun _ ↦ .pure _

theorem Act.keeps_factHandle (index : Int) : (factHandle index).Keeps R world :=
  (keeps_nextSerial hserial).bind fun _ ↦ .bind .get fun _ ↦ .pure _

end

section

variable [IsPreorder State R]

mutual

theorem Native.keeps_toEngine (hserial : ∀ s n, R s { s with serial := n }) :
    ∀ v : Native, v.toEngine.Keeps R world
  | .null => .pure _
  | .bool _ => .pure _
  | .int _ => .ofExcept _
  | .float _ => .pure _
  | .text _ => .pure _
  | .symbol _ => .pure _
  | .instanceName _ => .pure _
  | .list items => (keeps_nativesToEngine hserial items).bind fun _ ↦ .pure _
  | .inst name => (keeps_instanceHandle hserial name).bind fun _ ↦ .pure _
  | .fact index _ => (keeps_factHandle hserial index).bind fun _ ↦ .pure _
  | .external _ => .pure _

theorem keeps_nativesToEngine (hserial : ∀ s n, R s { s with serial := n }) :
    ∀ vs : List Native, (nativesToEngine vs).Keeps R world
  | [] => .pure _
  | v :: rest => (v.keeps_toEngine hserial).bind fun _ ↦
      (keeps_nativesToEngine hserial rest).bind fun _ ↦ .pure _

end

end

namespace Frame

theorem takeParked (hF : Frame world allowed R) : Act.takeParked.Keeps R world :=
  .modifyGet fun s ↦ hF.parked s none

variable [IsPreorder State R]

variable (hF : Frame world allowed R)
include hF

theorem instanceHandle (name : String) : (Act.instanceHandle name).Keeps R world :=
  keeps_instanceHandle hF.serial name

/-! ### The channel -/

theorem exchange_bind {c : Command} (hallowed : allowed c)
    {next : Except String Native → Act α} (hnext : ∀ outcome, (next outcome).Keeps R world)
    {s : State} (hopen : s.closed = false) :
    R s ((Channel.exchange c >>= next).runIn world s).2 := by
  have hexchange := hF.exchange c hallowed s hopen
  rw [runIn_bind]
  cases hrun : (Channel.exchange c).runIn world s with
  | mk answer after =>
    rw [hrun] at hexchange
    cases answer with
    | error e => exact hexchange
    | ok outcome => exact trans_of R hexchange (hnext outcome after)

theorem send {c : Command} (hallowed : allowed c) (refusal : Construction) (sent : Native) :
    (Channel.send c refusal sent).Keeps R world := by
  refine .afterOpen fun s hopen ↦ hF.exchange_bind hallowed (fun outcome ↦ ?_) hopen
  cases outcome with
  | error diagnostic => exact .throw _
  | ok v => exact .pure v

theorem command {c : Command} (hallowed : allowed c) : (Channel.command c).Keeps R world := by
  refine .afterOpen fun s hopen ↦ hF.exchange_bind hallowed (fun outcome ↦ ?_) hopen
  cases outcome with
  | error diagnostic => exact .throw _
  | ok v => exact .pure v

theorem evaluate {e : Expression} (hallowed : allowed (.evaluate e)) :
    (Channel.evaluate e).Keeps R world :=
  (hF.send hallowed _ _).bind fun v ↦ v.keeps_toEngine hF.serial

/-! ### Operations that take up parked failures -/

theorem checked {act : Act α} (hact : act.Keeps R world) : act.checked.Keeps R world := by
  refine (hact.tryCatch fun e ↦ .ite (hF.takeParked.bind fun parked ↦ ?_) (.throw e)).bind
    fun answer ↦ hF.takeParked.bind fun parked ↦ ?_
  · cases parked <;> exact .throw _
  · cases parked with
    | none => exact .pure answer
    | some e => exact .throw e

theorem eval {e : Expression} (hallowed : allowed (.evaluate e)) : (Act.eval e).Keeps R world :=
  hF.checked (hF.evaluate hallowed)

theorem evalTrue {e : Expression} (hallowed : allowed (.evaluate e)) :
    (Act.evalTrue e).Keeps R world :=
  (hF.eval hallowed).bind fun _ ↦ .pure _

end Frame

end

end RuleMarshal
