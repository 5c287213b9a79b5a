import Mathlib.Algebra.Group.Nat.Defs
import Mathlib.Algebra.Group.Pi.Basic
import Mathlib.Algebra.GroupWithZero.Nat
import Mathlib.Data.List.Forall2
import RuleMarshal.Environment.Extraction
import RuleMarshal.Proofs.Computation.Lookup
import RuleMarshal.Proofs.Computation.Yields
import RuleMarshal.Proofs.Environment.Exchange
import RuleMarshal.Proofs.Handle.Inquiry
/-!
Engines that answer from a store. A store holds instances of classes and a value in every slot of
each; an engine answers from it when it replies to what is asked of instances with what the store
holds and does nothing else (`Answers`). What is asked of such an engine changes the history, the
numbers of handles and the parked failure alone (`Inquires`), and is answered with the names of the
slots (`yields_slotNames`) and with what a slot holds (`yields_slot`).
-/

set_option autoImplicit false
set_option relaxedAutoImplicit false

namespace RuleMarshal

open Act

/-! ### Stores -/

/-- Instances with their classes, the slots of each class, and what the slots of instances hold. -/
structure Store where
  instances : List (String × String)
  slots : String → List String
  value : String → String → Native

namespace Store

/-- Whether there is an instance of a name. -/
def Knows (store : Store) (name : String) : Prop := (store.instances.lookup name).isSome

/-- The slots of an instance, in the order of its class. -/
def slotsOf (store : Store) (name : String) : List String :=
  ((store.instances.lookup name).map store.slots).getD []

/-- The answer to what is asked of instances; other expressions have none. -/
def answer? (store : Store) : Expression → Option Native
  | .instanceExists name =>
    some (.symbol (if (store.instances.lookup name).isSome then "TRUE" else "FALSE"))
  | .classOf name => (store.instances.lookup name).map .symbol
  | .classSlots className =>
    if store.instances.any (·.2 = className) then
      some (.list ((store.slots className).map .symbol))
    else none
  | .readSlot name slot =>
    if slot ∈ store.slotsOf name then some (store.value name slot) else none
  | _ => none

end Store

mutual

/-- Whether nothing that the binding hands over refers to a fact. -/
def Native.isFactFree : Native → Bool
  | .fact .. => false
  | .list items => eachFactFree items
  | _ => true

/-- Whether nothing in a list refers to a fact. -/
def eachFactFree : List Native → Bool
  | [] => true
  | v :: rest => v.isFactFree && eachFactFree rest

end

/-- Whether no slot of a store refers to a fact. -/
def Store.IsFactFree (store : Store) : Prop :=
  ∀ name, ∀ slot ∈ store.slotsOf name, (store.value name slot).isFactFree

/-! ### What the binding's values become -/

/-- The values of the engine that the binding's values become. What becomes of a reference is a
handle on the instance or fact, whichever handle it is. -/
inductive Native.Gives : Native → EngineValue → Prop
  | null : Gives .null .nil
  | bool (b : Bool) : Gives (.bool b) (.ofBool b)
  | int (n : Int) (fits : FitsEngine n) : Gives (.int n) (.integer n fits)
  | float (x : Binary64) : Gives (.float x) (.float x)
  | text (s : String) : Gives (.text s) (.string s)
  | symbol (s : String) : Gives (.symbol s) (.symbol s)
  | instanceName (s : String) : Gives (.instanceName s) (.instanceName s)
  | list {vs : List Native} {es : List EngineValue} : List.Forall₂ Gives vs es →
      Gives (.list vs) (.multifield es)
  | inst (h : InstanceHandle) : Gives (.inst h.name) (.instanceAddress h)
  | fact (h : FactHandle) (ofTemplate : Bool) : Gives (.fact h.index ofTemplate) (.factAddress h)
  | external (label : String) : Gives (.external label) (.externalAddress label)

section

variable {world : World} {s t : State}

mutual

theorem Native.gives_of_toEngine : ∀ {v : Native} {e : EngineValue} {s t : State},
    v.toEngine.runIn world s = (.ok e, t) → v.Gives e
  | .null, _, _, _, hrun => by
    cases hrun
    exact .null
  | .bool b, _, _, _, hrun => by
    cases hrun
    exact .bool b
  | .int n, _, _, _, hrun => by
    unfold Native.toEngine EngineValue.ofInt at hrun
    split at hrun
    · cases hrun
      exact .int n _
    · cases hrun
  | .float x, _, _, _, hrun => by
    cases hrun
    exact .float x
  | .text s, _, _, _, hrun => by
    cases hrun
    exact .text s
  | .symbol s, _, _, _, hrun => by
    cases hrun
    exact .symbol s
  | .instanceName s, _, _, _, hrun => by
    cases hrun
    exact .instanceName s
  | .list items, _, _, _, hrun => by
    obtain ⟨es, u, hitems, hreturn⟩ := ok_of_bind hrun
    cases hreturn
    exact .list (gives_of_nativesToEngine hitems)
  | .inst name, _, _, _, hrun => by
    obtain ⟨handle, u, hhandle, hreturn⟩ := ok_of_bind hrun
    cases hreturn
    cases hhandle
    exact .inst ⟨name, _, _⟩
  | .fact index ofTemplate, _, _, _, hrun => by
    obtain ⟨handle, u, hhandle, hreturn⟩ := ok_of_bind hrun
    cases hreturn
    cases hhandle
    exact .fact ⟨index, _, _⟩ ofTemplate
  | .external label, _, _, _, hrun => by
    cases hrun
    exact .external label

theorem gives_of_nativesToEngine : ∀ {vs : List Native} {es : List EngineValue} {s t : State},
    (nativesToEngine vs).runIn world s = (.ok es, t) → List.Forall₂ Native.Gives vs es
  | [], _, _, _, hrun => by
    cases hrun
    exact .nil
  | v :: rest, _, _, _, hrun => by
    obtain ⟨first, u, hfirst, hrest⟩ := ok_of_bind hrun
    obtain ⟨others, w, hothers, hreturn⟩ := ok_of_bind hrest
    cases hreturn
    exact .cons (Native.gives_of_toEngine hfirst) (gives_of_nativesToEngine hothers)

end

end

/-- The name of the instance that a value refers to. -/
def EngineValue.instance? : EngineValue → Option String
  | .instanceAddress h => some h.name
  | .instanceName name => some name
  | _ => none

/-- Whether a value came of something that refers to no fact. -/
def EngineValue.IsFactFree (e : EngineValue) : Prop := ∃ v : Native, v.isFactFree ∧ v.Gives e

namespace EngineValue.IsFactFree

theorem ne_factAddress {h : FactHandle} : ¬(EngineValue.factAddress h).IsFactFree := by
  rintro ⟨v, hv, hgives⟩
  cases hgives with
  | fact h ofTemplate => simp [Native.isFactFree] at hv

theorem of_mem {items : List EngineValue} {e : EngineValue}
    (hitems : (EngineValue.multifield items).IsFactFree) (he : e ∈ items) : e.IsFactFree := by
  obtain ⟨v, hv, hgives⟩ := hitems
  cases hgives with
  | list heach =>
    unfold Native.isFactFree at hv
    induction heach with
    | nil => simp at he
    | cons hfirst _ ih =>
      simp only [eachFactFree, Bool.and_eq_true] at hv
      rcases List.mem_cons.mp he with rfl | hrest
      · exact ⟨_, hv.1, hfirst⟩
      · exact ih hrest hv.2

end EngineValue.IsFactFree

/-! ### Engines that answer from a store -/

/-- What an expression is in a history. -/
def Expression.asked (e : Expression) : Event := .command (.evaluate e)

/-- Whether an engine answers from a store, from a history on and as long as nothing else is
asked. -/
def Answers (engine : Array Event → Command → Reply) (store : Store) (past : Array Event) : Prop :=
  ∀ (asked : List Expression) (e : Expression) (v : Native),
    (∀ q ∈ asked, (store.answer? q).isSome) → store.answer? e = some v →
      engine (past ++ (asked.map Expression.asked).toArray) (.evaluate e) = { outcome := .ok v }

namespace Answers

variable {engine : Array Event → Command → Reply} {store : Store} {past : Array Event}

theorem reply (hanswers : Answers engine store past) {e : Expression} {v : Native}
    (he : store.answer? e = some v) : engine past (.evaluate e) = { outcome := .ok v } := by
  simpa using hanswers [] e v (by simp) he

theorem append (hanswers : Answers engine store past) {asked : List Expression}
    (hasked : ∀ q ∈ asked, (store.answer? q).isSome) :
    Answers engine store (past ++ (asked.map Expression.asked).toArray) := by
  intro more e v hmore he
  have happended := hanswers (asked ++ more) e v
    (fun q hq ↦ (List.mem_append.mp hq).elim (hasked q) (hmore q)) he
  simpa [Array.append_assoc] using happended

end Answers

/-- An engine that answers from a store, and refuses what the store has no answer to. -/
def Store.engine (store : Store) (_ : Array Event) : Command → Reply
  | .evaluate e =>
    match store.answer? e with
    | some v => { outcome := .ok v }
    | none => { outcome := .error "no answer" }
  | _ => {}

theorem Store.answers_engine (store : Store) (past : Array Event) :
    Answers store.engine store past := by
  intro asked e v _ he
  simp [Store.engine, he]

/-! ### What is asked -/

/-- Whether an expression reads a slot of an instance. -/
def Expression.reads (name slot : String) : Expression → Bool
  | .readSlot owner read => owner = name && read = slot
  | _ => false

/-- Whether an event is the reading of a slot of an instance. -/
def Event.reads (name slot : String) : Event → Bool
  | .command (.evaluate e) => e.reads name slot
  | _ => false

/-- How often a slot of an instance has been read. -/
def State.reads (s : State) (name slot : String) : Nat :=
  s.history.toList.countP (Event.reads name slot)

/-- How often an expression reads a slot of an instance. -/
def Expression.share (e : Expression) (name slot : String) : Nat :=
  if e.reads name slot then 1 else 0

/-- What lies between two states if only questions were asked in between that a store answers, and
no slot was read more often than allowed. -/
def Inquires (store : Store) (allowed : String → String → Nat) (s t : State) : Prop :=
  ∃ serial parked, ∃ asked : List Expression,
    t = { s with
      serial := serial
      parked := parked
      history := s.history ++ (asked.map Expression.asked).toArray } ∧
    (∀ q ∈ asked, (store.answer? q).isSome) ∧
    ∀ name slot, asked.countP (·.reads name slot) ≤ allowed name slot

namespace Inquires

variable {world : World} {store : Store} {allowed more : String → String → Nat} {s t u : State}

theorem refl (s : State) : Inquires store 0 s s :=
  ⟨s.serial, s.parked, [], by simp, by simp, by simp⟩

theorem trans (hst : Inquires store allowed s t) (htu : Inquires store more t u) :
    Inquires store (allowed + more) s u := by
  obtain ⟨_, _, first, rfl, hfirst, hreads⟩ := hst
  obtain ⟨serial, parked, second, rfl, hsecond, hmore⟩ := htu
  refine ⟨serial, parked, first ++ second, by simp [Array.append_assoc], fun q hq ↦ ?_,
    fun name slot ↦ ?_⟩
  · exact (List.mem_append.mp hq).elim (hfirst q) (hsecond q)
  · rw [List.countP_append]
    exact Nat.add_le_add (hreads name slot) (hmore name slot)

theorem after (hst : Inquires store 0 s t) (htu : Inquires store allowed t u) :
    Inquires store allowed s u := by
  simpa using hst.trans htu

theorem before (hst : Inquires store allowed s t) (htu : Inquires store 0 t u) :
    Inquires store allowed s u := by
  simpa using hst.trans htu

theorem mono (hst : Inquires store allowed s t)
    (hle : ∀ name slot, allowed name slot ≤ more name slot) : Inquires store more s t := by
  obtain ⟨serial, parked, asked, rfl, hasked, hreads⟩ := hst
  exact ⟨serial, parked, asked, rfl, hasked, fun name slot ↦
    Nat.le_trans (hreads name slot) (hle name slot)⟩

/-- A change of the numbers of handles and of the parked failure. -/
theorem of_aside (s : State) (serial : Nat) (parked : Option Error) :
    Inquires store 0 s { s with serial := serial, parked := parked } :=
  ⟨serial, parked, [], by simp, by simp, by simp⟩

theorem answers (hst : Inquires store allowed s t)
    (hanswers : Answers world.engine store s.history) : Answers world.engine store t.history := by
  obtain ⟨serial, parked, asked, rfl, hasked, -⟩ := hst
  exact hanswers.append hasked

theorem heap_eq (hst : Inquires store allowed s t) : t.heap = s.heap := by
  obtain ⟨serial, parked, asked, rfl, -, -⟩ := hst
  rfl

theorem visited_eq (hst : Inquires store allowed s t) : t.visited = s.visited := by
  obtain ⟨serial, parked, asked, rfl, -, -⟩ := hst
  rfl

theorem reads_le (hst : Inquires store allowed s t) (name slot : String) :
    t.reads name slot ≤ s.reads name slot + allowed name slot := by
  obtain ⟨serial, parked, asked, rfl, -, hreads⟩ := hst
  have hcount : (asked.map Expression.asked).countP (Event.reads name slot) =
      asked.countP (·.reads name slot) := by
    rw [List.countP_map]
    rfl
  simpa [State.reads, hcount] using hreads name slot

end Inquires

section

variable {world : World} {store : Store} {s : State} {name : String}

/-- What relates states as inquiries that read no slot do, of which nothing is known beforehand. -/
instance Inquires.isPreorder : IsPreorder State (Inquires store 0) where
  refl := refl
  trans _ _ _ hst htu := hst.after htu

theorem yields_eval {e : Expression} {v : Native} (hanswers : Answers world.engine store s.history)
    (he : store.answer? e = some v) :
    Yields world (Inquires store e.share s) (fun r _ ↦ v.Gives r) (eval e) (eval e) s := by
  have hevaluate : (Channel.evaluate e).runIn world s = _ :=
    Channel.runIn_evaluate (hanswers.reply he)
  refine ⟨rfl, ?_, fun r t hrun ↦ ?_⟩
  · obtain ⟨parked, hchecked⟩ : ∃ parked, ((Channel.evaluate e).checked.runIn world s).2 =
        { ((Channel.evaluate e).runIn world s).2 with parked := parked } := runIn_checked _
    have hserial : v.toEngine.Keeps (Inquires store 0) world :=
      v.keeps_toEngine fun s n ↦ Inquires.of_aside s n s.parked
    unfold eval
    rw [hchecked, hevaluate]
    by_cases hclosed : s.closed
    · rw [if_pos hclosed]
      exact (Inquires.of_aside s s.serial parked).mono fun _ _ ↦ Nat.zero_le _
    · rw [if_neg hclosed]
      have hasked : Inquires store e.share s { s with history := s.history.push e.asked } := by
        refine ⟨s.serial, s.parked, [e], by simp, by simp [he], fun name slot ↦ ?_⟩
        simp [Expression.share, List.countP_cons]
      exact (hasked.before (hserial _)).before (Inquires.of_aside _ _ parked)
  · obtain ⟨u, hfound, rfl⟩ := ok_of_checked hrun
    rw [hevaluate] at hfound
    by_cases hclosed : s.closed
    · rw [if_pos hclosed] at hfound
      cases hfound
    · rw [if_neg hclosed] at hfound
      exact Native.gives_of_toEngine hfound

/-! ### Instances of a store -/

theorem yields_isAlive (hanswers : Answers world.engine store s.history) (h : InstanceHandle) :
    Yields world (Inquires store 0 s) (fun alive _ ↦ alive = true → store.Knows h.name) h.isAlive
      h.isAlive s := by
  refine .getting ?_
  split
  · refine (yields_eval hanswers (e := .instanceExists h.name) rfl).bind (fun r t hst hgives ↦ ?_)
      fun t hst ↦ hst
    refine .pure hst fun htrue ↦ ?_
    cases hgives
    unfold Store.Knows
    by_cases hknown : (store.instances.lookup h.name).isSome
    · exact hknown
    · rw [if_neg hknown] at htrue
      exact absurd htrue (by decide)
  · exact .pure (.refl s) nofun

theorem yields_check (hanswers : Answers world.engine store s.history) (h : InstanceHandle) :
    Yields world (Inquires store 0 s) (fun _ _ ↦ store.Knows h.name) h.check h.check s := by
  refine (yields_isAlive hanswers h).bind (fun alive t hst hknows ↦ ?_) fun _ ↦ id
  cases alive with
  | false => exact .throw hst
  | true => exact .pure hst (hknows rfl)

/-- The class of an instance is one whose slots can be asked for. -/
theorem Store.Knows.exists_class (hknows : store.Knows name) : ∃ className,
    store.instances.lookup name = some className ∧
      store.answer? (.classSlots className) =
        some (.list ((store.slots className).map .symbol)) := by
  obtain ⟨className, hclass⟩ := Option.isSome_iff_exists.mp hknows
  obtain ⟨first, rest, hinstances, -⟩ := List.lookup_eq_some_iff.mp hclass
  have hany : store.instances.any (·.2 = className) := by simp [hinstances]
  refine ⟨className, hclass, ?_⟩
  dsimp only [Store.answer?]
  rw [if_pos hany]

theorem lexemes_of_gives {names : List String} {e : EngineValue}
    (hgives : (Native.list (names.map .symbol)).Gives e) : e.lexemes = names := by
  cases hgives with
  | list heach =>
    rename_i es
    unfold EngineValue.lexemes
    dsimp only
    induction names generalizing es with
    | nil =>
      cases heach
      rfl
    | cons name rest ih =>
      cases heach with
      | cons hfirst hrest =>
        cases hfirst
        rw [List.map_cons, ih hrest]
        rfl

theorem yields_slotNames (hanswers : Answers world.engine store s.history) (h : InstanceHandle) :
    Yields world (Inquires store 0 s)
      (fun names _ ↦ store.Knows h.name ∧ names = store.slotsOf h.name) h.slotNames
        h.slotNames s := by
  refine (yields_check hanswers h).bind (fun _ t hst hknows ↦ ?_) fun _ ↦ id
  obtain ⟨className, hclass, hslots⟩ := hknows.exists_class
  have hasked : store.answer? (.classOf h.name) = some (.symbol className) := by
    rw [Store.answer?, hclass]
    rfl
  refine (yields_eval (hst.answers hanswers) hasked).bind (fun r u htu hgives ↦ ?_) fun _ ↦
    hst.after
  cases hgives
  have hsu : Inquires store 0 s u := hst.after htu
  refine (yields_eval (hsu.answers hanswers) hslots).bind (fun r w huw hgives ↦ ?_) fun _ ↦
    hsu.after
  refine .pure (hsu.after huw) ⟨hknows, ?_⟩
  rw [lexemes_of_gives hgives, Store.slotsOf, hclass]
  rfl

/-- What a slot holds, with one reading of it. -/
theorem yields_slot (hanswers : Answers world.engine store s.history) (h : InstanceHandle)
    {slot : String} (hslot : slot ∈ store.slotsOf h.name) :
    Yields world (Inquires store (Expression.readSlot h.name slot).share s)
      (fun r _ ↦ (store.value h.name slot).Gives r) (h.slot (.text slot))
        (h.slot (.text slot)) s := by
  have hle : ∀ name read, (0 : String → String → Nat) name read ≤
    (Expression.readSlot h.name slot).share name read := fun _ _ ↦ Nat.zero_le _
  refine (yields_check hanswers h).bind (fun _ t hst _ ↦ ?_) fun t hst ↦ hst.mono hle
  have hasked : store.answer? (.readSlot h.name slot) = some (store.value h.name slot) := by
    rw [Store.answer?, if_pos hslot]
  have hsymbol : (symbol .slot (.text slot)).Keeps (Inquires store 0) world := .symbol .slot _
  have hname : Yields world (Inquires store 0 s) (fun found _ ↦ found = slot)
      (symbol .slot (.text slot)) (symbol .slot (.text slot)) t := by
    refine .of_runIn (fun _ u hrun ↦ hst.after (hsymbol.of_runIn hrun)) fun found u hrun ↦ ?_
    obtain ⟨text, w, htext, hreturn⟩ := ok_of_bind hrun
    cases hreturn
    unfold symbolText at htext
    dsimp only [Value.hostText?] at htext
    split at htext
    · cases htext
      rfl
    · obtain ⟨shown, v, -, hthrown⟩ := ok_of_bind htext
      cases hthrown
  refine hname.bind (fun found u hsu hfound ↦ ?_) fun u hsu ↦ hsu.mono hle
  subst hfound
  exact (yields_eval (hsu.answers hanswers) hasked).mono (fun _ ↦ hsu.after) fun _ _ _ ↦ id

end

end RuleMarshal
