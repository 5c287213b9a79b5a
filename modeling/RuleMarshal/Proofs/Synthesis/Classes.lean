import RuleMarshal.Proofs.Environment.Quiet
import RuleMarshal.Proofs.Extraction.Store
import RuleMarshal.Proofs.Schema.History
/-!
The engine's part in a synthesis. A synthesis counts on the engine to say truthfully which classes
exist, and on classes to come to be by the definitions that the engine accepts and in no other way
meanwhile (`World.TellsClasses`). Then a question whether a class exists changes nothing and is
answered with what is so (`ok_of_classIsDefined`), and a definition that succeeds adds its class
(`ok_of_build`).

The types that are defined are looked up in the memory of the environment, which every operation
leaves settled (`Evolves.memo_settled`), so what is found is the schema that can be built
(`ok_of_schemaOf`).
-/

set_option autoImplicit false
set_option relaxedAutoImplicit false

namespace RuleMarshal

open Act

/-! ### Constructs that are defined -/

/-- The construct that an event has the engine define. -/
def Event.construct? : Event → Option Native
  | .command (.build construct) => some construct
  | _ => none

/-- The constructs that the engine was told to define, in order. -/
def State.constructs (s : State) : List Native := s.history.toList.filterMap Event.construct?

theorem State.constructs_push (s : State) (e : Event) :
    { s with history := s.history.push e }.constructs = s.constructs ++ e.construct?.toList := by
  simp only [constructs, Array.toList_push, List.filterMap_append]
  cases hconstruct : e.construct? <;> simp [hconstruct]

theorem State.constructs_congr {s t : State} (hhistory : t.history = s.history) :
    t.constructs = s.constructs := by
  unfold constructs
  rw [hhistory]

/-- Whether a command is one that a synthesis sends: whether a class exists, or a definition. -/
def Command.isOfSynthesis : Command → Bool
  | .evaluate (.classQuery .isDefined _) | .build _ => true
  | _ => false

/-- The definition of the class of a schema, in which some classes are not named. -/
def World.definition (world : World) (schema : ClassSchema) (pending : List String) : String :=
  schema.render world.config.superclass.content world.config.patternMatch.content pending

/-! ### Classes that exist -/

/-- Whether a predicate on histories says, from a state on, which classes exist; a class is known by
the text of its name. The engine says truthfully whether a class exists, and to be asked changes
nothing. A definition that it accepts makes its class exist and no other, and no class ceases to.
The functions that it calls meanwhile define no constructs and leave the classes as they are. -/
structure World.TellsClasses (world : World) (past : State)
    (defined : Array Event → String → Prop) : Prop where
  truthful : ∀ s name v e, Evolves world.setup .asking past s →
    (world.engine s.history (.evaluate (.classQuery .isDefined name))).outcome = .ok v → v.Gives e →
      (e.isTrue = true ↔ defined s.history name)
  asked : ∀ s name given, Evolves world.setup .asking past s →
    (defined (s.history.push (.command (.evaluate (.classQuery .isDefined name)))) given ↔
      defined s.history given)
  built : ∀ s h schema pending v given, Evolves world.setup .asking past s →
    buildSchema world.types world.config.tags h = .ok schema →
    (world.engine s.history (.build (.text (world.definition schema pending)))).outcome = .ok v →
      (defined (s.history.push (.command (.build (.text (world.definition schema pending)))))
        given ↔ defined s.history given ∨ given = schema.name)
  undisturbed : ∀ s history c, Evolves world.setup .asking past s → c.isOfSynthesis = true →
    ∀ call ∈ (world.engine history c).calls,
      ((Channel.serve call).runIn world s).2.constructs = s.constructs ∧
        ∀ given, defined ((Channel.serve call).runIn world s).2.history given ↔
          defined s.history given

/-- What leads from one state to another without a construct being defined or a class coming or
going. -/
structure Idles (world : World) (defined : Array Event → String → Prop) (s t : State) : Prop where
  evolves : Evolves world.setup .asking s t
  constructs : t.constructs = s.constructs
  classes : ∀ given, defined t.history given ↔ defined s.history given

variable {world : World} {past s t u : State} {defined : Array Event → String → Prop}

theorem Idles.refl (s : State) : Idles world defined s s := ⟨.refl _ s, rfl, fun _ ↦ Iff.rfl⟩

theorem Idles.trans (hst : Idles world defined s t) (htu : Idles world defined t u) :
    Idles world defined s u :=
  ⟨.trans hst.evolves htu.evolves, htu.constructs.trans hst.constructs,
    fun given ↦ (htu.classes given).trans (hst.classes given)⟩

theorem Idles.of_history (hst : Evolves world.setup .asking s t)
    (hhistory : t.history = s.history) :
    Idles world defined s t :=
  ⟨hst, State.constructs_congr hhistory, fun _ ↦ by rw [hhistory]⟩

/-! ### Exchanges -/

theorem Act.ok_of_discard {α : Type} {act : Act α} {answer : PUnit}
    (hrun : (discard act).runIn world s = (.ok answer, t)) :
    ∃ a, act.runIn world s = (.ok a, t) := by
  change Act.runIn (Function.const _ PUnit.unit <$> act) world s = _ at hrun
  rw [map_eq_pure_bind] at hrun
  obtain ⟨a, u, hact, hreturn⟩ := ok_of_bind hrun
  cases hreturn
  exact ⟨a, hact⟩

/-- What was sent is written down, and only calls were served after it. -/
theorem World.TellsClasses.ok_of_exchange (htells : world.TellsClasses past defined)
    (hworld : world.Orderly) {c : Command} {outcome : Except String Native}
    (hpast : Evolves world.setup .asking past s) (hopen : s.closed = false)
    (hc : c.isOfSynthesis = true) (hrun : (Channel.exchange c).runIn world s = (.ok outcome, t)) :
    outcome = (world.engine s.history c).outcome ∧ ∃ sent : State,
      sent.history = s.history.push (.command c) ∧ Evolves world.setup .asking s sent ∧
        Idles world defined sent t := by
  have hguard : c.isGuarded = false := by
    unfold Command.isOfSynthesis at hc
    split at hc
    · rfl
    · rfl
    · cases hc
  have hsent := Evolves.send (σ := world.setup) .asking s c hopen fun hguarded ↦
    absurd hguarded (by simp [hguard])
  rw [Channel.runIn_exchange] at hrun
  obtain ⟨⟨⟩, v, hcalls, hanswer⟩ := ok_of_bind hrun
  cases hanswer
  refine ⟨rfl, _, rfl, hsent, ?_⟩
  have : IsPreorder State fun a b ↦ Evolves world.setup .asking past a → Idles world defined a b :=
    { refl := fun a _ ↦ .refl a
      trans := fun _ _ _ hab hbc ha ↦ (hab ha).trans (hbc (.trans ha (hab ha).evolves)) }
  have hserve : ∀ call ∈ (world.engine s.history c).calls, (Channel.serve call).Keeps
      (fun a b ↦ Evolves world.setup .asking past a → Idles world defined a b) world :=
    fun call hcall a ha ↦
      ⟨Channel.keeps_serve hworld call a, (htells.undisturbed a s.history c ha hc call hcall).1,
        (htells.undisturbed a s.history c ha hc call hcall).2⟩
  exact (Act.Keeps.forM _ hserve).of_runIn hcalls (.trans hpast hsent)

/-- What comes from the binding is noted in no history. -/
theorem history_of_toEngine {v : Native} {e : EngineValue}
    (hrun : v.toEngine.runIn world s = (.ok e, t)) :
    t.history = s.history := by
  have : IsPreorder State fun s t ↦ t.history = s.history :=
    { refl := fun _ ↦ rfl, trans := fun _ _ _ hst htu ↦ htu.trans hst }
  have hkeeps : v.toEngine.Keeps (fun s t ↦ t.history = s.history) world :=
    v.keeps_toEngine fun _ _ ↦ rfl
  exact hkeeps.of_runIn hrun

/-- Whether a class exists is answered with what is so, and nothing else happens. -/
theorem World.TellsClasses.ok_of_classIsDefined (htells : world.TellsClasses past defined)
    (hworld : world.Orderly) {name : String} {b : Bool} (hpast : Evolves world.setup .asking past s)
    (hrun : (classIsDefined name).runIn world s = (.ok b, t)) :
    Idles world defined s t ∧ (b = true ↔ defined s.history name) := by
  obtain ⟨e, u, hevaluate, hreturn⟩ := ok_of_bind hrun
  cases hreturn
  obtain ⟨v, w, hsend, hvalue⟩ := ok_of_bind hevaluate
  obtain ⟨hopen, hexchange⟩ := ok_of_send hsend
  obtain ⟨houtcome, sent, hhistory, hsent, hidles⟩ :=
    htells.ok_of_exchange hworld hpast hopen rfl hexchange
  refine ⟨.trans ⟨hsent, ?_, fun given ↦ ?_⟩
    (hidles.trans (.of_history ?_ (history_of_toEngine hvalue))), ?_⟩
  · rw [State.constructs_congr (t := sent) (s := { s with history := s.history.push _ }) hhistory,
      State.constructs_push]
    exact List.append_nil _
  · rw [hhistory]
    exact htells.asked s name given hpast
  · exact (Native.keeps_toEngine Evolves.serial v).of_runIn hvalue
  · exact htells.truthful s name v e hpast houtcome.symm (Native.gives_of_toEngine hvalue)

/-- A definition that succeeded was sent once, and added its class. -/
theorem World.TellsClasses.ok_of_build (htells : world.TellsClasses past defined)
    (hworld : world.Orderly) {h : Hint} {schema : ClassSchema} {pending : List String}
    {answer : Unit} (hpast : Evolves world.setup .asking past s)
    (hbuilt : buildSchema world.types world.config.tags h = .ok schema)
    (hrun : (Channel.build (.text (world.definition schema pending))).runIn world s =
      (.ok answer, t)) :
    Evolves world.setup .asking s t ∧
      t.constructs = s.constructs ++ [.text (world.definition schema pending)] ∧
      (∀ given, defined t.history given ↔ defined s.history given ∨ given = schema.name) ∧
      (s.history.push (.command (.build (.text (world.definition schema pending))))).toList <+:
        t.history.toList := by
  obtain ⟨v, hsend⟩ := ok_of_discard hrun
  obtain ⟨hopen, hexchange⟩ := ok_of_send hsend
  obtain ⟨houtcome, sent, hhistory, hsent, hidles⟩ :=
    htells.ok_of_exchange hworld hpast hopen rfl hexchange
  refine ⟨.trans hsent hidles.evolves, ?_, fun given ↦ ?_, ?_⟩
  · rw [hidles.constructs,
      State.constructs_congr (t := sent) (s := { s with history := s.history.push _ }) hhistory,
      State.constructs_push]
    rfl
  · rw [hidles.classes, hhistory]
    exact htells.built s h schema pending v given hpast hbuilt houtcome.symm
  · rw [← hhistory]
    exact hidles.evolves.history_grows

/-! ### Schemas -/

/-- Every operation leaves the memory settled. -/
theorem Evolves.memo_settled {σ : Setup} {m : Manner} (hst : Evolves σ m s t)
    (hsettled : s.memo.Settled σ.types σ.config.tags) : t.memo.Settled σ.types σ.config.tags := by
  induction hst with
  | trans _ _ hs ht => exact ht (hs hsettled)
  | call m hrun ih => exact ih hsettled
  | reflect m s h => exact hsettled.after_reflect h
  | _ => exact hsettled

/-- The schema that is found of a type is the one that can be built, and nothing else happens. -/
theorem ok_of_schemaOf (defined : Array Event → String → Prop) {h : Hint} {schema : ClassSchema}
    (hsettled : s.memo.Settled world.types world.config.tags)
    (hrun : (schemaOf h).runIn world s = (.ok schema, t)) :
    buildSchema world.types world.config.tags h = .ok schema ∧ Idles world defined s t := by
  have hidles : Idles world defined s t := by
    refine .of_history ((keeps_schemaOf h).of_runIn hrun) ?_
    have hkeeps : (schemaOf h).Keeps (fun s t ↦ t.history = s.history) world := fun _ ↦ rfl
    exact hkeeps.of_runIn hrun
  exact ⟨hsettled.buildSchema_of_reflect (congrArg Prod.fst hrun), hidles⟩

end RuleMarshal
