import RuleMarshal.Proofs.Computation.Carrying
import RuleMarshal.Proofs.Environment.Exchange
import RuleMarshal.Proofs.Environment.Operation
import RuleMarshal.Proofs.Environment.Quiet
/-!
The engine's part in an insertion. An insertion counts on the engine for names that are fresh
(`NamesFreshly`), for instances under the names that were asked for (`NamesAsAsked`), and for calls
that leave a part of the heap as it is (`Calm`). What is then so in a state in the midst of an
insertion (`Amid`) stays so, whatever is sent: it is a frame for all commands (`Calm.frame`).

A question for a fresh name that is answered was written down with its answer (`ok_of_freshName`),
and an instance that was made is one order, written down once (`ok_of_createInstance`).
-/

set_option autoImplicit false
set_option relaxedAutoImplicit false

namespace RuleMarshal

open Act

/-! ### What the engine is counted on for -/

/-- From a history on, fresh names are symbols, each a new one and none of those that are
avoided. -/
structure NamesFreshly (engine : Array Event → Command → Reply) (past : Array Event)
    (avoided : String → Prop) : Prop where
  isSymbol : ∀ history v, past.toList <+: history.toList →
    (engine history (.evaluate .freshName)).outcome = .ok v → ∃ name, v = .symbol name
  unused : ∀ history name, past.toList <+: history.toList →
    (engine history (.evaluate .freshName)).outcome = .ok (.symbol name) → ¬avoided name
  distinct : ∀ history later name, past.toList <+: history.toList →
    (history.push (.command (.evaluate .freshName))).toList <+: later.toList →
    (engine history (.evaluate .freshName)).outcome = .ok (.symbol name) →
    (engine later (.evaluate .freshName)).outcome ≠ .ok (.symbol name)

/-- An engine that names by the length of the history names freshly, if no two lengths give one
name. -/
theorem NamesFreshly.of_injective {engine : Array Event → Command → Reply} {past : Array Event}
    {avoided : String → Prop} {name : Nat → String}
    (hnames : ∀ history,
      (engine history (.evaluate .freshName)).outcome = .ok (.symbol (name history.size)))
    (hinjective : name.Injective) (hunused : ∀ n, ¬avoided (name n)) :
    NamesFreshly engine past avoided where
  isSymbol history v _ houtcome := by
    rw [hnames] at houtcome
    cases houtcome
    exact ⟨_, rfl⟩
  unused history given _ houtcome := by
    rw [hnames] at houtcome
    cases houtcome
    exact hunused history.size
  distinct history later given _ hlater hissued hagain := by
    rw [hnames] at hissued hagain
    cases hissued
    have hlonger := hlater.length_le
    have hsize := hinjective (Native.symbol.inj (Except.ok.inj hagain))
    simp at hlonger
    omega

/-- From a history on, an instance that is made has the name that was asked for. -/
def NamesAsAsked (engine : Array Event → Command → Reply) (past : Array Event) : Prop :=
  ∀ history name className slots v, past.toList <+: history.toList →
    (engine history (.evaluate (.makeInstance (some name) className slots))).outcome = .ok v →
      v = .instanceName name ∨ v = .inst name

/-- From a state on, the functions that are bound leave the heap as it has to be kept when the
engine calls them. -/
def Calm (world : World) (past : State) (keep : Heap → Prop) : Prop :=
  ∀ s history c, s.bound ⊆ past.bound → keep s.heap → ∀ call ∈ (world.engine history c).calls,
    keep ((Channel.serve call).runIn world s).2.heap

/-- Where an engine makes no calls, nothing is left to keep. -/
theorem calm_of_no_calls {world : World} (past : State) (keep : Heap → Prop)
    (hcalls : ∀ history c, (world.engine history c).calls = []) : Calm world past keep := by
  intro s history c _ _ call hcall
  rw [hcalls] at hcall
  simp at hcall

/-- What is so in the midst of an insertion that began in a past state. -/
structure Amid (world : World) (past : State) (keep : Heap → Prop) (s : State) : Prop where
  heap : keep s.heap
  bound : s.bound ⊆ past.bound
  history : past.history.toList <+: s.history.toList
  schemas : past.memo.Agrees world.types world.config.tags s.memo

theorem Amid.refl {world : World} {past : State} {keep : Heap → Prop} (hkeep : keep past.heap) :
    Amid world past keep past :=
  ⟨hkeep, fun _ hp ↦ hp, List.prefix_rfl, fun _ ↦ rfl⟩

/-- What leads from states in the midst of an insertion to others. -/
def StaysAmid (world : World) (past : State) (keep : Heap → Prop) (s t : State) : Prop :=
  Amid world past keep s → Amid world past keep t

instance StaysAmid.isPreorder {world : World} {past : State} {keep : Heap → Prop} :
    IsPreorder State (StaysAmid world past keep) where
  refl _ hs := hs
  trans _ _ _ hst htu hs := htu (hst hs)

section

variable {world : World} {past s t u : State} {keep : Heap → Prop}

/-- What asks the engine at most stays amid as long as it leaves the heap as it has to be kept. -/
theorem Amid.of_evolves (hs : Amid world past keep s) (hst : Evolves world.setup .asking s t)
    (hkeep : keep t.heap) : Amid world past keep t where
  heap := hkeep
  bound := List.Subset.trans (hst.bound_subset (.inl rfl)) hs.bound
  history := hs.history.trans hst.history_grows
  schemas := hs.schemas.trans hst.memo_agrees

/-- In a calm world every exchange stays amid. -/
theorem Calm.frame (hcalm : Calm world past keep) (hworld : world.Orderly) :
    Frame world (fun _ ↦ True) (StaysAmid world past keep) where
  unguarded _ _ := trivial
  serial _ _ hs := ⟨hs.heap, hs.bound, hs.history, hs.schemas⟩
  parked _ _ hs := ⟨hs.heap, hs.bound, hs.history, hs.schemas⟩
  schemaOf h s hs := hs.of_evolves (keeps_schemaOf h s) hs.heap
  exchange c _ s _ hs := by
    have hserve : ∀ call ∈ (world.engine s.history c).calls,
        (Channel.serve call).Keeps (StaysAmid world past keep) world := fun call hcall t ht ↦
      ht.of_evolves (Channel.keeps_serve hworld call t)
        (hcalm t s.history c ht.bound ht.heap call hcall)
    rw [Channel.runIn_exchange]
    exact (Act.Keeps.forM _ hserve).bind (fun _ ↦ .pure _) _
      ⟨hs.heap, List.Subset.trans List.filter_sublist.subset hs.bound,
        hs.history.trans ⟨[.command c], by simp⟩, hs.schemas⟩

theorem Calm.keeps_createInstance (hcalm : Calm world past keep) (hworld : world.Orderly)
    (e : Expression) : (createInstance e).Keeps (StaysAmid world past keep) world := by
  have hframe := hcalm.frame hworld
  intro s
  unfold createInstance
  rw [runIn_guardMutation_bind]
  split
  · exact id
  · split
    · exact id
    · refine (hframe.eval trivial).bind (fun v ↦ ?_) s
      split
      · exact hframe.instanceHandle _
      · exact .pure _
      · exact .throw _

/-! ### Questions that are answered -/

/-- An exchange hands over the engine's outcome; after the command was written down, only calls were
served. -/
theorem ok_of_exchange (hworld : world.Orderly) {c : Command} {outcome : Except String Native}
    (hrun : (Channel.exchange c).runIn world s = (.ok outcome, t)) :
    outcome = (world.engine s.history c).outcome ∧
      t.creations = s.creations ++ (Event.command c).creation?.toList ∧
      (s.history.push (.command c)).toList <+: t.history.toList := by
  rw [Channel.runIn_exchange] at hrun
  obtain ⟨⟨⟩, u, hcalls, hanswer⟩ := ok_of_bind hrun
  cases hanswer
  have hserved := (Act.Keeps.forM (R := Evolves world.setup .asking) _
    fun call _ ↦ Channel.keeps_serve hworld call).of_runIn hcalls
  exact ⟨rfl, (hserved.creations_eq (.inl rfl)).trans (s.creations_push _), hserved.history_grows⟩

/-- A fresh name is what the engine replied to the question for one, which was written down. -/
theorem ok_of_freshName (hworld : world.Orderly) {name : String}
    (hfresh : ∀ v, (world.engine s.history (.evaluate .freshName)).outcome = .ok v →
      ∃ found, v = .symbol found)
    (hrun : freshName.runIn world s = (.ok name, t)) :
    (world.engine s.history (.evaluate .freshName)).outcome = .ok (.symbol name) ∧
      (s.history.push (.command (.evaluate .freshName))).toList <+: t.history.toList := by
  obtain ⟨v, u, heval, hname⟩ := ok_of_bind hrun
  obtain ⟨found, w, x, hexchange, hvalue, rfl⟩ := ok_of_eval heval
  obtain ⟨houtcome, -, hhistory⟩ := ok_of_exchange hworld hexchange
  obtain ⟨text, rfl⟩ := hfresh found houtcome.symm
  cases hvalue
  cases hname
  exact ⟨houtcome.symm, hhistory⟩

/-- An instance that was made was ordered once. -/
theorem creations_of_createInstance (hworld : world.Orderly) {given : Option String}
    {className : String} {slots : List (String × Term)} {handle : InstanceHandle}
    (hrun : (createInstance (.makeInstance given className slots)).runIn world s =
      (.ok handle, t)) :
    t.creations = s.creations ++ [⟨given, className, slots⟩] := by
  obtain ⟨-, -, hordered⟩ := ok_of_guardMutation hrun
  obtain ⟨v, u, heval, hmade⟩ := ok_of_bind hordered
  obtain ⟨found, w, x, hexchange, hvalue, rfl⟩ := ok_of_eval heval
  obtain ⟨-, hcreations, -⟩ := ok_of_exchange hworld hexchange
  have hasking := hworld.frame .asking
  have hvalued : x.creations = w.creations :=
    ((found.keeps_toEngine hasking.serial).of_runIn hvalue).creations_eq (.inl rfl)
  have hleft : t.creations = x.creations := by
    split at hmade
    · exact ((hasking.instanceHandle _).of_runIn hmade).creations_eq (.inl rfl)
    · cases hmade
      rfl
    · cases hmade
  exact hleft.trans (hvalued.trans hcreations)

/-- An instance that was made has the name that was asked for, and was ordered once. -/
theorem ok_of_createInstance (hworld : world.Orderly) {name className : String}
    {slots : List (String × Term)} {handle : InstanceHandle}
    (hnames : ∀ v, (world.engine s.history
      (.evaluate (.makeInstance (some name) className slots))).outcome = .ok v →
        v = .instanceName name ∨ v = .inst name)
    (hrun : (createInstance (.makeInstance (some name) className slots)).runIn world s =
      (.ok handle, t)) :
    handle.name = name ∧ t.creations = s.creations ++ [⟨some name, className, slots⟩] := by
  refine ⟨?_, creations_of_createInstance hworld hrun⟩
  obtain ⟨-, -, hordered⟩ := ok_of_guardMutation hrun
  obtain ⟨v, u, heval, hmade⟩ := ok_of_bind hordered
  obtain ⟨found, w, x, hexchange, hvalue, rfl⟩ := ok_of_eval heval
  obtain ⟨houtcome, -, -⟩ := ok_of_exchange hworld hexchange
  obtain rfl | rfl := hnames found houtcome.symm
  · cases hvalue
    cases hmade
    rfl
  · cases hvalue
    cases hmade
    rfl

/-- A type that was prepared has the schema that it had in the past, and no object was named. -/
theorem ok_of_prepare {h : Hint} {i j : Insertion} {schema : ClassSchema}
    (hrun : Carrying.runIn (prepare h) world i s = (.ok (schema, j), t)) :
    s.memo.schema? world.types world.config.tags h = some schema ∧ j.names = i.names := by
  obtain ⟨found, i₁, s₁, hschema, hprepare⟩ := Carrying.ok_of_bind hrun
  obtain ⟨hreflected, rfl⟩ := Carrying.ok_of_lift hschema
  have hlast : ∀ (i : Insertion) (u : State), Carrying.runIn (do
      verify found
      modify fun s ↦ { s with prepared := h :: s.prepared }
      return found : Inserting ClassSchema) world i u = (.ok (schema, j), t) →
        schema = found ∧ j.names = i.names := by
    intro i u hlast
    obtain ⟨_, _, _, hverify, hmark⟩ := Carrying.ok_of_bind hlast
    obtain ⟨-, rfl⟩ := Carrying.ok_of_lift hverify
    obtain ⟨_, _, _, hmodify, hreturn⟩ := Carrying.ok_of_bind hmark
    obtain ⟨rfl, rfl⟩ := Carrying.ok_of_modify hmodify
    obtain ⟨rfl, rfl, rfl⟩ := Carrying.ok_of_pure hreturn
    exact ⟨rfl, rfl⟩
  suffices hdone : schema = found ∧ j.names = i.names by
    obtain ⟨rfl, hsame⟩ := hdone
    exact ⟨schema?_of_reflect (congrArg Prod.fst hreflected), hsame⟩
  obtain ⟨_, _, _, hget, hunprepared⟩ := Carrying.ok_of_bind hprepare
  obtain ⟨rfl, rfl, rfl⟩ := Carrying.ok_of_get hget
  split at hunprepared
  · obtain ⟨rfl, rfl, rfl⟩ := Carrying.ok_of_pure hunprepared
    exact ⟨rfl, rfl⟩
  · obtain ⟨_, _, _, hread, hrest⟩ := Carrying.ok_of_bind hunprepared
    obtain ⟨rfl, rfl, rfl⟩ := Carrying.ok_of_read hread
    dsimp only at hrest
    split at hrest
    · obtain ⟨_, _, _, hdiscard, hverified⟩ := Carrying.ok_of_bind hrest
      obtain ⟨emitted, hsynthesize⟩ := Carrying.ok_of_discard hdiscard
      obtain ⟨-, rfl⟩ := Carrying.ok_of_lift hsynthesize
      exact hlast _ _ hverified
    · exact hlast _ _ hrest

end

end RuleMarshal
