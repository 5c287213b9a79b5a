import RuleMarshal.Proofs.Computation.Raising
import RuleMarshal.Proofs.Host.Shown
import RuleMarshal.Proofs.Session.Nesting
/-!
A call of a host function is all or nothing. Before the function runs, the arguments are translated,
counted and converted, each to the type that is declared for it, and none of that depends on what
host functions do (`Registration.unaware_entry`). A call that gets so far is admitted
(`Registration.Admits`); the function then runs once, from the state that the conversions have led
to, and what the call comes to is a matter of what it did there (`Registration.runIn_passage`). An
error on the way blames no other function (`Registration.raises_attempt`), so that every error of
this library leaves the call as the failure of this function, and is parked.
-/

set_option autoImplicit false
set_option relaxedAutoImplicit false

namespace RuleMarshal

open Act

/-! ### Running no host function -/

/-- A computation that runs no host function by itself: it runs alike whatever they do. -/
def Act.Unaware {α : Type} (act : Act α) : Prop :=
  ∀ (world : World) (invoke : Callable → List Value → State → Except Error Value × State)
    (s : State),
    act.runIn { world with invoke } s = act.runIn world s

namespace Act.Unaware

variable {α β : Type}

theorem pure (a : α) : Unaware (pure a : Act α) := fun _ _ _ ↦ rfl

theorem throw (e : Error) : Unaware (throw e : Act α) := fun _ _ _ ↦ rfl

theorem ofExcept (found : Except Error α) : Unaware (MonadExcept.ofExcept found : Act α) := by
  cases found with
  | error e => exact throw e
  | ok a => exact pure a

theorem bind {act : Act α} {next : α → Act β} (hact : act.Unaware) (hnext : ∀ a, (next a).Unaware) :
    (act >>= next).Unaware := by
  intro world invoke s
  rw [runIn_bind, runIn_bind, hact world invoke s]
  cases act.runIn world s with
  | mk answer t =>
    cases answer with
    | error e => rfl
    | ok a => exact hnext a world invoke t

theorem tryCatch {act : Act α} {handle : Error → Act α} (hact : act.Unaware)
    (hhandle : ∀ e, (handle e).Unaware) : (tryCatch act handle).Unaware := by
  intro world invoke s
  rw [runIn_tryCatch, runIn_tryCatch, hact world invoke s]
  cases act.runIn world s with
  | mk answer t =>
    cases answer with
    | error e => exact hhandle e world invoke t
    | ok a => rfl

theorem ite {c : Prop} [Decidable c] {act other : Act α} (hact : act.Unaware)
    (hother : other.Unaware) :
    (if c then act else other).Unaware := by
  split
  · exact hact
  · exact hother

theorem passedByConversion : PassedByConversion fun _ act ↦ act.Unaware where
  pure := pure
  throw := throw
  bind := bind
  orElse hact hnext := hact.tryCatch fun e ↦ .ite hnext (throw e)

end Act.Unaware

mutual

theorem Native.unaware_toEngine : ∀ v : Native, v.toEngine.Unaware
  | .int n => .ofExcept (EngineValue.ofInt n)
  | .list items => (unaware_nativesToEngine items).bind fun _ ↦ .pure _
  | .null | .bool _ | .float _ | .text _ | .symbol _ | .instanceName _ => fun _ _ _ ↦ rfl
  | .inst _ | .fact .. | .external _ => fun _ _ _ ↦ rfl

theorem unaware_nativesToEngine : ∀ vs : List Native, (nativesToEngine vs).Unaware
  | [] => .pure _
  | v :: rest =>
    v.unaware_toEngine.bind fun _ ↦ (unaware_nativesToEngine rest).bind fun _ ↦ .pure _

end

/-- How a world builds what a plain conversion of an argument cannot. -/
def World.resolving (world : World) (v : EngineValue) (h : Hint) : Act Value :=
  Act.ofRun fun _ s ↦ world.resolve v h s

theorem Signature.unaware_coerceFrom (sig : Signature) (world : World) (position : Nat)
    (args : List EngineValue) : (sig.coerceFrom (some world.resolving) position args).Unaware := by
  induction args generalizing position with
  | nil => exact .pure _
  | cons v rest ih =>
    have hresolve : ∀ f ∈ some world.resolving, ∀ v h, (f v h).Unaware := by
      rintro f ⟨rfl⟩ v h world invoke s
      rfl
    have hfirst := Hint.passes_decode Unaware.passedByConversion hresolve (sig.hintAt position) v
    refine .bind (hfirst.tryCatch fun e ↦ .ite (.throw _) (.throw e)) fun _ ↦ ?_
    exact (ih (position + 1)).bind fun _ ↦ .pure _

namespace Registration

variable {world : World} {s t u : State} {values : List Value}

/-- What a call does before the function runs is to translate the arguments, to convert them and to
count the function. -/
theorem runIn_entry (r : Registration) (args : List Native) :
    (r.entry args).runIn world s = Act.runIn (do
      let given ← nativesToEngine args
      let converted ← r.signature.coerce (some world.resolving) given
      modify fun s ↦ { s with depth := s.depth + 1 }
      return converted) world s := rfl

theorem unaware_entry (r : Registration) (args : List Native) : (r.entry args).Unaware := by
  intro world invoke s
  rw [runIn_entry, runIn_entry]
  refine Unaware.bind (unaware_nativesToEngine args)
    (fun given ↦ .bind (.ite ?_ (.throw _)) fun _ ↦ ?_) _ _ s
  · exact r.signature.unaware_coerceFrom world 0 given
  · exact fun _ _ _ ↦ rfl

end Registration

/-! ### Admission -/

namespace Signature

/-- The type that a signature declares for the argument at a position: that of the parameter there,
and behind the parameters that of all further arguments. -/
inductive Declares (sig : Signature) (position : Nat) (h : Hint) : Prop
  | positional (hparam : sig.params[position]? = some h)
  | variadic (hbehind : sig.params.length ≤ position) (hfurther : sig.variadic = some h)

theorem Declares.eq_hintAt {sig : Signature} {position : Nat} {h : Hint}
    (hdeclared : sig.Declares position h) :
    sig.hintAt position = h := by
  unfold hintAt
  cases hdeclared with
  | positional hparam => rw [hparam, Option.getD_some]
  | variadic hbehind hfurther =>
    rw [List.getElem?_eq_none hbehind, hfurther]
    rfl

/-- A call with a number of arguments that fits has a declared type for each. -/
theorem declares_hintAt {sig : Signature} {count position : Nat}
    (haccepts : sig.accepts count = true) (hposition : position < count) :
    sig.Declares position (sig.hintAt position) := by
  simp only [accepts, Bool.and_eq_true, Bool.or_eq_true, decide_eq_true_eq] at haccepts
  unfold hintAt
  by_cases hparam : position < sig.params.length
  · rw [List.getElem?_eq_getElem hparam]
    exact .positional (List.getElem?_eq_getElem hparam)
  · have hbehind : sig.params.length ≤ position := Nat.le_of_not_lt hparam
    obtain ⟨h, hfurther⟩ : ∃ h, sig.variadic = some h :=
      Option.isSome_iff_exists.mp (haccepts.2.resolve_right (by omega))
    rw [List.getElem?_eq_none hbehind, hfurther]
    exact .variadic hbehind hfurther

/-- The arguments from a position on convert to host values in their order, each to its declared
type, which leads from one state to another. -/
inductive Converts (world : World) (sig : Signature) :
    Nat → List EngineValue → State → List Value → State → Prop
  | nil (position : Nat) (s : State) : Converts world sig position [] s [] s
  | cons {position : Nat} {v : EngineValue} {rest : List EngineValue} {s t u : State}
      {h : Hint} {x : Value}
      {others : List Value} (hdeclared : sig.Declares position h)
      (hfirst : (h.decode (some world.resolving) v).runIn world s = (.ok x, t))
      (hrest : Converts world sig (position + 1) rest t others u) :
      Converts world sig position (v :: rest) s (x :: others) u

variable {world : World} {s t : State} {sig : Signature} {position : Nat} {args : List EngineValue}
variable {values : List Value}

theorem Converts.runIn_coerceFrom (hconverts : sig.Converts world position args s values t) :
    (sig.coerceFrom (some world.resolving) position args).runIn world s = (.ok values, t) := by
  induction hconverts with
  | nil position s => rfl
  | cons hdeclared hfirst hrest ih =>
    unfold coerceFrom
    rw [runIn_bind, runIn_tryCatch, hdeclared.eq_hintAt, hfirst]
    dsimp only
    rw [runIn_bind_of_ok ih]
    rfl

theorem converts_of_coerceFrom
    (hdeclared : ∀ i, position ≤ i → i < position + args.length → sig.Declares i (sig.hintAt i))
    (hrun : (sig.coerceFrom (some world.resolving) position args).runIn world s = (.ok values, t)) :
    sig.Converts world position args s values t := by
  induction args generalizing position s values with
  | nil =>
    cases hrun
    exact .nil _ _
  | cons v rest ih =>
    obtain ⟨first, u, hfirst, hmore⟩ := ok_of_bind hrun
    obtain ⟨others, w, hrest, hreturn⟩ := ok_of_bind hmore
    cases hreturn
    refine .cons (hdeclared position (Nat.le_refl _) (by simp)) ?_ (ih ?_ hrest)
    · -- An error of the conversion is never answered.
      obtain hdecoded | ⟨e, x, -, hraised⟩ := cases_of_tryCatch hfirst
      · exact hdecoded
      · split at hraised <;> cases hraised
    · intro i hle hlt
      apply hdeclared i (by omega)
      rw [List.length_cons]
      omega

/-- The arguments of a call convert if and only if their number fits and each converts to its
declared type. -/
theorem coerce_ok_iff :
    (sig.coerce (some world.resolving) args).runIn world s = (.ok values, t) ↔
      sig.accepts args.length = true ∧ sig.Converts world 0 args s values t := by
  unfold coerce
  constructor
  · intro hrun
    split at hrun
    · rename_i haccepts
      refine ⟨haccepts, converts_of_coerceFrom (fun i _ hlt ↦ declares_hintAt haccepts ?_) hrun⟩
      omega
    · cases hrun
  · rintro ⟨haccepts, hconverts⟩
    rw [if_pos haccepts]
    exact hconverts.runIn_coerceFrom

end Signature

namespace Registration

variable {world : World} {r : Registration} {args : List Native} {s t u : State}
variable {values : List Value}

/-- A call is admitted: the arguments translate, their number fits, and each converts to its
declared type. The function is counted from there, and runs on the converted values. -/
inductive Admits (world : World) (r : Registration) (args : List Native) (s : State) :
    List Value → State → Prop
  | intro {given : List EngineValue} {values : List Value} {t u : State}
      (hgiven : (nativesToEngine args).runIn world s = (.ok given, t))
      (haccepts : r.signature.accepts given.length = true)
      (hconverts : r.signature.Converts world 0 given t values u) :
      Admits world r args s values { u with depth := u.depth + 1 }

theorem entry_ok_iff :
    (r.entry args).runIn world s = (.ok values, u) ↔ r.Admits world args s values u := by
  rw [runIn_entry]
  constructor
  · intro hrun
    obtain ⟨given, t, hgiven, hmore⟩ := ok_of_bind hrun
    obtain ⟨converted, w, hconverted, hcounted⟩ := ok_of_bind hmore
    cases hcounted
    obtain ⟨haccepts, hconverts⟩ := Signature.coerce_ok_iff.mp hconverted
    exact .intro hgiven haccepts hconverts
  · rintro ⟨hgiven, haccepts, hconverts⟩
    rw [runIn_bind_of_ok hgiven,
      runIn_bind_of_ok (Signature.coerce_ok_iff.mpr ⟨haccepts, hconverts⟩)]
    rfl

/-- Whether a call is admitted, with which values and in which state does not depend on what host
functions do. -/
theorem admits_iff (invoke : Callable → List Value → State → Except Error Value × State) :
    r.Admits { world with invoke } args s values u ↔ r.Admits world args s values u := by
  rw [← entry_ok_iff, ← entry_ok_iff, r.unaware_entry args world invoke s]

end Registration

/-! ### Blame -/

/-- An error that blames no other function: if it is the failure of a call, then of the function of
the name. -/
def Error.Blames (name : String) : Error → Prop
  | .call _ blamed => blamed = some name
  | _ => True

theorem Error.blames_of_foreign {name : String} {e : Error} (he : e.isOwn = false) :
    e.Blames name := by
  cases e with
  | call failure blamed => cases he
  | _ => trivial

section

variable {world : World} {name : String}

/-- Raising only errors that blame no other function. -/
abbrev Act.RaisesBlaming (name : String) (world : World) {α : Type} (act : Act α) : Prop :=
  act.Raises (fun _ ↦ True) (Error.Blames name) world

/-- A computation that may reach any state raises what it raises. -/
theorem Act.raisesBlaming_of {α : Type} {act : Act α}
    (hact : ∀ s e t, act.runIn world s = (.error e, t) → e.Blames name) :
    act.RaisesBlaming name world where
  passesOn _ _ := trivial
  raised _ hrun := hact _ _ _ hrun

mutual

theorem Native.raises_toEngine : ∀ v : Native, v.toEngine.RaisesBlaming name world
  | .int n => by
    refine .ofExcept fun e he ↦ ?_
    unfold EngineValue.ofInt at he
    split at he <;> cases he
    trivial
  | .list items => (raises_nativesToEngine items).bind fun _ ↦ .pure _
  | .null | .bool _ | .float _ | .text _ | .symbol _ | .instanceName _ | .external _ => .pure _
  | .inst _ | .fact .. => .of_answers (fun _ _ ↦ trivial) fun _ ↦ ⟨_, _, rfl⟩

theorem raises_nativesToEngine : ∀ vs : List Native, (nativesToEngine vs).RaisesBlaming name world
  | [] => .pure _
  | v :: rest =>
    v.raises_toEngine.bind fun _ ↦ (raises_nativesToEngine rest).bind fun _ ↦ .pure _

end

namespace Signature

variable (sig : Signature)

theorem raises_coerceFrom (position : Nat) (args : List EngineValue) :
    (sig.coerceFrom (some world.resolving) position args).RaisesBlaming sig.name world := by
  induction args generalizing position with
  | nil => exact .pure _
  | cons v rest ih =>
    refine .bind (raisesBlaming_of fun s e t hrun ↦ ?_) fun _ ↦
      (ih (position + 1)).bind fun _ ↦ .pure _
    rw [runIn_tryCatch] at hrun
    split at hrun
    · cases hrun
    · split at hrun
      · cases hrun
        rfl
      · rename_i hforeign
        cases hrun
        exact Error.blames_of_foreign (Bool.eq_false_iff.mpr hforeign)

theorem raises_coerce (args : List EngineValue) :
    (sig.coerce (some world.resolving) args).RaisesBlaming sig.name world :=
  .ite (sig.raises_coerceFrom 0 args) (.throw rfl)

theorem blames_of_failed {table : TypeTable} {heap : Heap} {v : Value} {e : Error}
    (he : returnedValues.failed sig table heap v = .error e) : e.Blames sig.name := by
  obtain hwritten | ⟨text, -, hthrown⟩ := Except.cases_of_bind_error he
  · exact Error.blames_of_foreign (v.isForeign_written table heap hwritten)
  · cases hthrown
    rfl

theorem blames_of_returnedValues {table : TypeTable} {heap : Heap} {returned : Value} {e : Error}
    (he : sig.returnedValues table heap returned = .error e) : e.Blames sig.name := by
  unfold returnedValues at he
  split at he
  · exact sig.blames_of_failed he
  · cases he
  · split at he
    · split at he
      · cases he
        rfl
      · cases he
      · exact sig.blames_of_failed he
    · cases he
  · cases he

theorem blames_of_result {table : TypeTable} {heap : Heap} {returned : Value} {e : Error}
    (he : sig.result table heap returned = .error e) : e.Blames sig.name := by
  obtain hvalues | ⟨values, -, hencoded⟩ := Except.cases_of_bind_error he
  · exact sig.blames_of_returnedValues hvalues
  · split at hencoded
    · cases hencoded
    · split at hencoded
      · cases hencoded
        rfl
      · rename_i hforeign
        cases hencoded
        exact Error.blames_of_foreign (Bool.eq_false_iff.mpr hforeign)

end Signature

mutual

theorem EngineValue.blames_of_toNative :
    ∀ (v : EngineValue) {e : Error}, v.toNative = .error e → e.Blames name
  | .multifield items, e, he => by
    obtain hitems | ⟨_, _, hreturn⟩ := Except.cases_of_bind_error he
    · exact blames_of_toNativeEach items hitems
    · cases hreturn
  | .bare, e, he | .factAddress _, e, he => by
    cases he
    trivial
  | .integer .., e, he | .float _, e, he | .string _, e, he | .symbol _, e,
      he | .instanceName _, e, he
  | .instanceAddress _, e, he | .externalAddress _, e, he => by cases he

theorem blames_of_toNativeEach :
    ∀ (vs : List EngineValue) {e : Error}, toNativeEach vs = .error e → e.Blames name
  | [], e, he => by cases he
  | v :: rest, e, he => by
    obtain hfirst | ⟨_, -, hmore⟩ := Except.cases_of_bind_error he
    · exact v.blames_of_toNative hfirst
    · obtain hrest | ⟨_, _, hreturn⟩ := Except.cases_of_bind_error hmore
      · exact blames_of_toNativeEach rest hrest
      · cases hreturn

end

/-! ### The course of a call -/

namespace Registration

variable (r : Registration)

/-- What a call answers by what the function returned: the result under the declared return type, in
the form that the engine takes. -/
def answered (types : TypeTable) (heap : Heap) (returned : Value) : Except Error Native := do
  (← r.signature.result types heap (heap.content returned)).toNative

theorem blames_of_answered {types : TypeTable} {heap : Heap} {returned : Value} {e : Error}
    (he : r.answered types heap returned = .error e) : e.Blames r.name := by
  obtain hresult | ⟨v, -, hnative⟩ := Except.cases_of_bind_error he
  · exact r.signature.blames_of_result hresult
  · exact v.blames_of_toNative hnative

/-- The function runs once, and is counted no longer when it ends. What it raised is raised as its
failure; what it returned is answered. -/
theorem runIn_passage (values : List Value) (u : State) :
    (r.passage values).runIn world u =
      match world.invoke r.function values u with
      | (.error e, v) =>
        (.error (.call (.raised r.name e) (some r.name)), { v with depth := v.depth - 1 })
      | (.ok returned, v) =>
        (r.answered world.types v.heap returned, { v with depth := v.depth - 1 }) := by
  unfold passage
  rw [runIn_bind, runIn_tryCatch, runIn_always, runIn_ofRun]
  cases world.invoke r.function values u with
  | mk came v =>
    cases came with
    | error e => rfl
    | ok returned =>
      dsimp only
      rw [runIn_bind_of_ok (runIn_get world _), runIn_bind_of_ok (runIn_read world _), runIn_bind,
        runIn_ofExcept]
      unfold answered
      cases r.signature.result world.types v.heap (v.heap.content returned) with
      | error e => rfl
      | ok w => exact runIn_ofExcept _ _ _

theorem raises_entry (args : List Native) : (r.entry args).RaisesBlaming r.name world := by
  refine raisesBlaming_of fun s e t hrun ↦ ?_
  rw [runIn_entry] at hrun
  refine Raises.raised (.bind (raises_nativesToEngine args) fun given ↦ ?_) trivial hrun
  refine .bind (r.signature.raises_coerce given) fun _ ↦ .bind ?_ fun _ ↦ .pure _
  exact .of_answers (fun _ _ ↦ trivial) fun _ ↦ ⟨_, _, rfl⟩

/-- No error on the way blames another function: what the function raised is wrapped as its own
failure. -/
theorem raises_attempt (args : List Native) : (r.attempt args).RaisesBlaming r.name world := by
  refine raisesBlaming_of fun s e t hrun ↦ ?_
  rw [r.runIn_attempt] at hrun
  obtain hentry | ⟨values, u, -, hpassage⟩ := cases_of_bind_error hrun
  · exact (r.raises_entry args).raised trivial hentry
  · rw [runIn_passage] at hpassage
    split at hpassage
    · cases hpassage
      rfl
    · exact r.blames_of_answered (congrArg Prod.fst hpassage)

variable {r} {args : List Native} {s t : State}

/-- A call fails from a state: it raises the failure of the function, and leaves that error
parked. -/
def FailsFrom (r : Registration) (t : State) (called : Except Error Native × State) : Prop :=
  ∃ failure, called =
    (.error (.call failure (some r.name)), { t with parked := some (.call failure (some r.name)) })

theorem runIn_call_of_ok {native : Native}
    (hrun : (r.attempt args).runIn world s = (.ok native, t)) :
    (r.call args).runIn world s = (.ok native, t) := by
  unfold call
  rw [runIn_tryCatch, hrun]

theorem runIn_call_of_foreign {e : Error} (hrun : (r.attempt args).runIn world s = (.error e, t))
    (he : e.isOwn = false) : (r.call args).runIn world s = (.error e, t) := by
  unfold call
  rw [runIn_tryCatch, hrun]
  dsimp only
  rw [if_neg (by simp [he])]
  rfl

/-- Every error of this library on the way leaves a call as the failure of its function. -/
theorem failsFrom_of_own {e : Error} (hrun : (r.attempt args).runIn world s = (.error e, t))
    (he : e.isOwn = true) : r.FailsFrom t ((r.call args).runIn world s) := by
  have hblames : e.Blames r.name := (r.raises_attempt args).raised trivial hrun
  unfold call
  rw [runIn_tryCatch, hrun]
  dsimp only
  rw [if_pos he]
  cases e with
  | call failure blamed =>
    obtain rfl : blamed = some r.name := hblames
    exact ⟨failure, rfl⟩
  | _ => exact ⟨.carried _, rfl⟩

/-- A call whose way ends with an error: it is raised as the failure of the function if it is one of
this library's, and passes through if not. -/
theorem call_of_error {e : Error} (hrun : (r.attempt args).runIn world s = (.error e, t)) :
    (e.isOwn = true → r.FailsFrom t ((r.call args).runIn world s)) ∧
      (e.isOwn = false → (r.call args).runIn world s = (.error e, t)) :=
  ⟨failsFrom_of_own hrun, runIn_call_of_foreign hrun⟩

end Registration

end

/-- A call of a host function is all or nothing. It is admitted if and only if its arguments
translate, fit in number and convert to their declared types, which does not depend on what host
functions do. An admitted call runs the function once, on the converted values: if the function
raises, the call fails with that from what the function left; else the call answers the native form
of the converted result, or fails with what was wrong with it. A call that is not admitted goes the
same way whatever the function would do, and fails with what was wrong with its arguments. Failing
with an error of this library is raising the failure of this function, which is left parked. In each
case as many functions are counted in the end as before. -/
theorem call_all_or_nothing {world : World} (hworld : world.Orderly) (r : Registration)
    (args : List Native) (s : State) :
    let called := (r.call args).runIn world s
    (∀ invoke values u, r.Admits { world with invoke } args s values u ↔
      r.Admits world args s values u) ∧
    (∀ values u returned v, r.Admits world args s values u →
      world.invoke r.function values u = (returned, v) →
      let left : State := { v with depth := v.depth - 1 }
      (∀ e, returned = .error e → r.FailsFrom left called) ∧
      ∀ x, returned = .ok x →
        (∀ native, r.answered world.types v.heap x = .ok native → called = (.ok native, left)) ∧
        ∀ e, r.answered world.types v.heap x = .error e →
          (e.isOwn = true → r.FailsFrom left called) ∧
            (e.isOwn = false → called = (.error e, left))) ∧
    ((¬∃ values u, r.Admits world args s values u) →
      (∀ invoke, (r.call args).runIn { world with invoke } s = called) ∧
      ∃ e t, (r.entry args).runIn world s = (.error e, t) ∧
        (e.isOwn = true → r.FailsFrom t called) ∧ (e.isOwn = false → called = (.error e, t))) ∧
    called.2.depth = s.depth := by
  intro called
  refine ⟨fun invoke values u ↦ r.admits_iff invoke, ?_, ?_, ?_⟩
  · intro values u returned v hadmits hinvoked left
    have hattempt : (r.attempt args).runIn world s = (r.passage values).runIn world u := by
      rw [r.runIn_attempt, runIn_bind_of_ok (Registration.entry_ok_iff.mpr hadmits)]
    rw [r.runIn_passage, hinvoked] at hattempt
    constructor
    · rintro e rfl
      exact Registration.failsFrom_of_own hattempt rfl
    · rintro x rfl
      dsimp only at hattempt
      constructor
      · intro native hanswered
        rw [hanswered] at hattempt
        exact Registration.runIn_call_of_ok hattempt
      · intro e hanswered
        rw [hanswered] at hattempt
        exact Registration.call_of_error hattempt
  · intro hrefused
    cases hentry : (r.entry args).runIn world s with
    | mk answer t =>
      cases answer with
      | ok values => exact absurd ⟨values, t, Registration.entry_ok_iff.mp hentry⟩ hrefused
      | error e =>
        have hattempt : ∀ invoke,
            (r.attempt args).runIn { world with invoke } s = (.error e, t) := by
          intro invoke
          rw [r.runIn_attempt, runIn_bind, r.unaware_entry args world invoke s, hentry]
        refine ⟨fun invoke ↦ ?_, e, t, rfl, Registration.call_of_error (hattempt world.invoke)⟩
        dsimp only [called]
        unfold Registration.call
        rw [runIn_tryCatch, runIn_tryCatch, hattempt invoke, hattempt world.invoke]
        dsimp only
        split <;> rfl
  · exact (r.keeps_call (hworld.keptByCalls .acting) args s).depth_eq

/-- The registration of a function that takes any number of symbols and answers how many it was
given. -/
def tallyRegistration : Registration where
  signature :=
    { text := .plain "tally", params := [], required := 0
      variadic := some .symbol, returns := .int .unsized, errorTerminal := false }
  function := .function
    (.mk (some "tally") [⟨"names", some .symbol, .variadic, false⟩] (some (.int .unsized)) true
      (.mk none [] false .count))
  listedAs := .plain "tally"

theorem tally_answered (types : TypeTable) (heap : Heap) :
    tallyRegistration.answered types heap (.int .unsized 2) = .ok (.int 2) := by
  have hcontent : heap.content (.int .unsized 2) = .int .unsized 2 := by
    simp [Heap.content, Value.settledWithin]
  unfold Registration.answered Signature.result
  rw [hcontent]
  unfold Signature.encodeReturned
  dsimp only [Signature.returnedValues, bind, Except.bind]
  rw [hcontent]
  rfl

/-- Given two symbols, the function runs once and answers their number. Given a number behind a
symbol it does not run at all, and its failure is raised and parked. -/
theorem call_all_or_nothing_tally :
    let world := World.ofDepth {} {} (fun _ _ ↦ {}) 1
    let counted := (tallyRegistration.call [.symbol "a", .symbol "b"]).runIn world {}
    let refused := (tallyRegistration.call [.symbol "a", .int 3]).runIn world {}
    counted.1 = .ok (.int 2) ∧
      counted.2.history = #[.invoked "tally" ((Value.list [.symbol "a", .symbol "b"]).view {} {})] ∧
      counted.2.depth = 0 ∧ tallyRegistration.FailsFrom {} refused := by
  intro world counted refused
  have hworld : world.Orderly := World.ofDepth_orderly {} {} (fun _ _ ↦ {}) 1
  obtain ⟨-, hadmitted, -, hdepth⟩ :=
    call_all_or_nothing hworld tallyRegistration [.symbol "a", .symbol "b"] {}
  obtain ⟨-, -, hrefused, -⟩ :=
    call_all_or_nothing hworld tallyRegistration [.symbol "a", .int 3] {}
  have hadmits : tallyRegistration.Admits world [.symbol "a", .symbol "b"] {}
      [.symbol "a", .symbol "b"] { depth := 1 } := Registration.entry_ok_iff.mp rfl
  obtain ⟨-, hanswered⟩ := hadmitted _ _ (.ok (.int .unsized 2)) _ hadmits rfl
  have hcounted := (hanswered (.int .unsized 2) rfl).1 (.int 2) (tally_answered _ _)
  have hrefuses : ¬∃ values u,
      tallyRegistration.Admits world [.symbol "a", .int 3] {} values u := by
    rintro ⟨values, u, hadmits⟩
    cases Registration.entry_ok_iff.mpr hadmits
  obtain ⟨-, e, t, hentry, hfails, -⟩ := hrefused hrefuses
  cases hentry
  exact ⟨congrArg Prod.fst hcounted, congrArg (fun left ↦ left.2.history) hcounted,
    hdepth, hfails rfl⟩

end RuleMarshal
