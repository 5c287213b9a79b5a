import RuleMarshal.Proofs.Config
import RuleMarshal.Proofs.Synthesis.Constraint
import RuleMarshal.Proofs.Synthesis.Course
import RuleMarshal.Proofs.Session.Evolution
/-!
What a synthesis defines. A synthesis sends definitions one after the other, and each is safe when
it is sent (`Defining.Safe`): its class does not exist yet, and the classes that the constraints in
its text name do. What a part of a synthesis does is told by what it sends and what it leaves begun
(`Advances`); parts that follow each other come together (`Advances.append`), and a class is defined
after what its schema refers to (`Advances.define`). So a synthesis that ends with an answer went on
from nothing begun to the class that it was for (`exists_advances_of_synthesize`), and it does so
whatever bounds its depth (`synthesize_safe`).
-/

set_option autoImplicit false
set_option relaxedAutoImplicit false

namespace RuleMarshal

open Carrying

/-! ### Definitions that were sent -/

/-- A definition that a synthesis sends: the schema of its class, the classes that it does not name,
and what happened before. -/
structure Defining where
  schema : ClassSchema
  pending : List String
  before : Array Event

namespace Defining

/-- The name of the class that is defined. -/
def name (m : Defining) : String := m.schema.name

/-- The text of the definition. -/
def text (world : World) (m : Defining) : String := world.definition m.schema m.pending

/-- What has happened when the definition is sent. -/
def sent (world : World) (m : Defining) : Array Event :=
  m.before.push (.command (.build (.text (m.text world))))

/-- How a definition is sent between two states: it is that of the class of a type, and all that the
type refers to has a schema. The class does not exist yet, and what existed in the first state does
still. The constraints in the text name what the slots refer to, but for the classes that the
definition does not name, and every class that one of them names exists already. -/
structure Safe (world : World) (defined : Array Event → String → Prop) (s t : State)
    (m : Defining) : Prop where
  type : ∃ h, buildSchema world.types world.config.tags h = .ok m.schema
  references : ∀ g ∈ m.schema.references, world.types.Buildable world.config.tags g
  after : s.history.toList <+: m.before.toList
  sent : (m.sent world).toList <+: t.history.toList
  new : ¬defined m.before m.name
  kept : ∀ name, defined s.history name → defined m.before name
  names : namedClasses (m.text world) = m.schema.referredClasses.filter (· ∉ m.pending)
  named : ∀ name ∈ namedClasses (m.text world), defined m.before name

end Defining

/-- What a part of a synthesis does: it sends some definitions, of classes that were neither begun
nor there, and has begun these classes then, and they exist. Each is sent once those before it have
been accepted. What a definition does not name was begun. -/
structure Advances (world : World) (defined : Array Event → String → Prop) (c : Synthesis)
    (s : State) (made : List Defining) (d : Synthesis) (t : State) : Prop where
  evolves : Evolves world.setup .asking s t
  emitted : d.emitted = c.emitted ++ made.map (·.text world)
  constructs : t.constructs = s.constructs ++ made.map fun m ↦ .text (m.text world)
  visiting : ∀ name, name ∈ d.visiting ↔ name ∈ c.visiting ∨ name ∈ made.map (·.name)
  classes : ∀ name, defined t.history name ↔ defined s.history name ∨ name ∈ made.map (·.name)
  fresh : ∀ m ∈ made, m.name ∉ c.visiting ∧ ¬defined s.history m.name
  nodup : (made.map (·.name)).Nodup
  safe : ∀ m ∈ made, m.Safe world defined s t
  chronological : made.Pairwise fun k m ↦ defined m.before k.name
  pending : ∀ m ∈ made, ∀ name ∈ m.pending, name ∈ c.visiting ∨ name ∈ made.map (·.name)

/-- Whether each of some types has a schema, and its class is either not to be named or exists. -/
def AllMet (world : World) (defined : Array Event → String → Prop) (history : Array Event)
    (forward : List String) (items : List Hint) : Prop :=
  ∀ g ∈ items, ∃ k, buildSchema world.types world.config.tags g = .ok k ∧
    (k.name ∈ forward ∨ defined history k.name)

section

variable {world : World} {defined : Array Event → String → Prop} {past s t u : State}
variable {c d e : Synthesis} {made more : List Defining} {m : Defining} {schema : ClassSchema}
variable {g h : Hint} {depth : Nat} {forward after : List String}

theorem Defining.Safe.mono {s' t' : State} (hsafe : m.Safe world defined s t)
    (hs : s'.history.toList <+: s.history.toList)
    (hkept : ∀ name, defined s'.history name → defined s.history name)
    (ht : t.history.toList <+: t'.history.toList) : m.Safe world defined s' t' :=
  { hsafe with
    after := hs.trans hsafe.after
    sent := hsafe.sent.trans ht
    kept := fun name hdefined ↦ hsafe.kept name (hkept name hdefined) }

namespace Advances

theorem of_idles (hidles : Idles world defined s t) : Advances world defined c s [] c t where
  evolves := hidles.evolves
  emitted := (List.append_nil _).symm
  constructs := hidles.constructs.trans (List.append_nil _).symm
  visiting _ := by simp
  classes name := by simp [hidles.classes name]
  fresh := nofun
  nodup := .nil
  safe := nofun
  chronological := .nil
  pending := nofun

theorem append (hfirst : Advances world defined c s made d t)
    (hrest : Advances world defined d t more e u) :
    Advances world defined c s (made ++ more) e u where
  evolves := .trans hfirst.evolves hrest.evolves
  emitted := by rw [hrest.emitted, hfirst.emitted, List.map_append, List.append_assoc]
  constructs := by rw [hrest.constructs, hfirst.constructs, List.map_append, List.append_assoc]
  visiting name := by
    rw [hrest.visiting, hfirst.visiting, List.map_append, List.mem_append, or_assoc]
  classes name := by rw [hrest.classes, hfirst.classes, List.map_append, List.mem_append, or_assoc]
  fresh m hm := by
    obtain hmade | hmore := List.mem_append.mp hm
    · exact hfirst.fresh m hmade
    · obtain ⟨hnew, hundefined⟩ := hrest.fresh m hmore
      exact ⟨fun hbegun ↦ hnew ((hfirst.visiting _).mpr (.inl hbegun)),
        fun hdefined ↦ hundefined ((hfirst.classes _).mpr (.inl hdefined))⟩
  nodup := by
    rw [List.map_append]
    refine hfirst.nodup.append hrest.nodup fun name hmade hmore ↦ ?_
    obtain ⟨m, hm, rfl⟩ := List.mem_map.mp hmore
    exact (hrest.fresh m hm).1 ((hfirst.visiting _).mpr (.inr hmade))
  safe m hm := by
    obtain hmade | hmore := List.mem_append.mp hm
    · exact (hfirst.safe m hmade).mono List.prefix_rfl (fun _ ↦ id) hrest.evolves.history_grows
    · exact (hrest.safe m hmore).mono hfirst.evolves.history_grows
        (fun name hdefined ↦ (hfirst.classes name).mpr (.inl hdefined)) List.prefix_rfl
  chronological := by
    refine List.pairwise_append.mpr ⟨hfirst.chronological, hrest.chronological, fun k hk m hm ↦ ?_⟩
    exact (hrest.safe m hm).kept k.name ((hfirst.classes _).mpr (.inr (List.mem_map_of_mem hk)))
  pending m hm name hname := by
    rw [List.map_append, List.mem_append, ← or_assoc]
    obtain hmade | hmore := List.mem_append.mp hm
    · exact .inl (hfirst.pending m hmade name hname)
    · exact (hrest.pending m hmore name hname).imp_left (hfirst.visiting name).mp

/-- What was so before is so after idling. -/
theorem after_idles (hidles : Idles world defined s t)
    (hrest : Advances world defined c t made d u) :
    Advances world defined c s made d u := by
  simpa using (of_idles hidles).append hrest

end Advances

/-! ### One definition -/

theorem Synthesis.mem_begin {name : String} :
    name ∈ (c.begin schema).visiting ↔ name = schema.name ∨ name ∈ c.visiting := List.mem_cons

/-- The constraints in a definition name what the slots refer to, but for the classes that are left
out. -/
theorem World.namedClasses_definition (hvalid : world.config.IsValid)
    (hwritable : schema.Writable) :
    namedClasses (world.definition schema forward) =
      schema.referredClasses.filter (· ∉ forward) := by
  have hmodes : ∀ mode ∈ patternMatchModes, '(' ∉ mode.toList := by decide
  exact hwritable.namedClasses_render (open_notMem_of_accepts hvalid.superclass)
    (hmodes _ hvalid.patternMatch)

/-- What a schema refers to is not to be named or exists, where that holds of all the types that it
refers to. -/
theorem mem_or_defined_of_referred
    (hbuilt : buildSchema world.types world.config.tags h = .ok schema)
    (hreferences : AllMet world defined t.history forward schema.references) {name : String}
    (hname : name ∈ schema.referredClasses) : name ∈ forward ∨ defined t.history name := by
  obtain ⟨slot, hslot, g, hreference⟩ := ClassSchema.mem_referredClasses.mp hname
  have hrefers := refersTo_of_buildSchema hbuilt hslot hreference
  obtain ⟨k, hk, hknown⟩ :=
    hreferences g ((mem_references_iff hbuilt).mpr ⟨slot, hslot, name, hrefers⟩)
  obtain rfl : k.name = name :=
    Except.ok.inj ((className_of_buildSchema hk).symm.trans hrefers.className)
  exact hknown

/-- A definition is safe that is sent when its class does not exist and all that the schema refers
to is either not to be named or exists. -/
theorem Defining.safe_of_sent (hvalid : world.config.IsValid)
    (hbuilt : buildSchema world.types world.config.tags h = .ok schema)
    (hst : s.history.toList <+: t.history.toList)
    (hkept : ∀ name, defined s.history name → defined t.history name)
    (hreferences : AllMet world defined t.history forward schema.references)
    (hundefined : ¬defined t.history schema.name)
    (hhistory : (Defining.sent world ⟨schema, forward, t.history⟩).toList <+: u.history.toList) :
    Defining.Safe world defined s u ⟨schema, forward, t.history⟩ := by
  have hbuildable : ∀ g ∈ schema.references, world.types.Buildable world.config.tags g :=
    fun g hg ↦ (hreferences g hg).imp fun _ hk ↦ hk.1
  have hnames : namedClasses (world.definition schema forward) =
      schema.referredClasses.filter (· ∉ forward) :=
    world.namedClasses_definition hvalid (writable_of_buildSchema hbuilt hbuildable)
  exact
    { type := ⟨h, hbuilt⟩
      references := hbuildable
      after := hst
      sent := hhistory
      new := hundefined
      kept := hkept
      names := hnames
      named := fun name hname ↦ by
        obtain ⟨hreferred, hnamed⟩ := List.mem_filter.mp (hnames ▸ hname)
        exact (mem_or_defined_of_referred hbuilt hreferences hreferred).resolve_left
          (of_decide_eq_true hnamed) }

/-- A definition that is sent once all that the schema refers to was gone through. -/
theorem Advances.define (htells : world.TellsClasses past defined) (hworld : world.Orderly)
    (hvalid : world.config.IsValid) (hpast : Evolves world.setup .asking past s)
    (hbuilt : buildSchema world.types world.config.tags h = .ok schema)
    (hnew : schema.name ∉ c.visiting) (hundefined : ¬defined s.history schema.name)
    (hnested : Advances world defined (c.begin schema) s made d t)
    (hforward : ∀ name ∈ forward, name ∈ d.visiting)
    (hreferences : AllMet world defined t.history forward schema.references)
    (hsent : (Channel.build (.text (world.definition schema forward))).runIn world t =
      (.ok (), u)) :
    Advances world defined c s (made ++ [⟨schema, forward, t.history⟩])
      (d.emit (world.definition schema forward)) u := by
  obtain ⟨hevolves, hconstructs, hclasses, hhistory⟩ :=
    htells.ok_of_build hworld (.trans hpast hnested.evolves) hbuilt hsent
  have hapart : ∀ m ∈ made, m.name ≠ schema.name ∧ m.name ∉ c.visiting := fun m hm ↦ by
    rw [ne_eq, ← not_or, ← Synthesis.mem_begin]
    exact (hnested.fresh m hm).1
  have habsent : ¬defined t.history schema.name := fun hdefined ↦ by
    obtain hbefore | hmade := (hnested.classes _).mp hdefined
    · exact hundefined hbefore
    · obtain ⟨m, hm, hname⟩ := List.mem_map.mp hmade
      exact (hapart m hm).1 hname
  have hnames : (made ++ [(⟨schema, forward, t.history⟩ : Defining)]).map (·.name) =
      made.map (·.name) ++ [schema.name] := List.map_append
  -- what was begun with the class is begun without it, or is what is defined here
  have hbegun (name : String) : name ∈ d.visiting ↔
      name ∈ c.visiting ∨ name ∈
        (made ++ [(⟨schema, forward, t.history⟩ : Defining)]).map (·.name) := by
    rw [hnested.visiting, Synthesis.mem_begin, hnames, List.mem_append, List.mem_singleton]
    simp only [or_comm, or_left_comm, or_assoc]
  exact
    { evolves := .trans hnested.evolves hevolves
      emitted := by
        rw [List.map_append, ← List.append_assoc]
        exact congrArg (· ++ [world.definition schema forward]) hnested.emitted
      constructs := by
        rw [hconstructs, hnested.constructs, List.map_append, List.append_assoc]
        rfl
      visiting := hbegun
      classes := fun name ↦ by
        rw [hclasses, hnested.classes, hnames, List.mem_append, List.mem_singleton, or_assoc]
      fresh := fun m hm ↦ by
        obtain hmade | hlast := List.mem_append.mp hm
        · exact ⟨(hapart m hmade).2, (hnested.fresh m hmade).2⟩
        · obtain rfl := List.mem_singleton.mp hlast
          exact ⟨hnew, hundefined⟩
      nodup := by
        rw [hnames]
        refine hnested.nodup.append (List.nodup_singleton _) fun name hmade hlast ↦ ?_
        obtain ⟨m, hm, rfl⟩ := List.mem_map.mp hmade
        exact (hapart m hm).1 (List.mem_singleton.mp hlast)
      safe := fun m hm ↦ by
        obtain hmade | hlast := List.mem_append.mp hm
        · exact (hnested.safe m hmade).mono List.prefix_rfl (fun _ ↦ id) hevolves.history_grows
        · obtain rfl := List.mem_singleton.mp hlast
          exact Defining.safe_of_sent hvalid hbuilt hnested.evolves.history_grows
            (fun name hdefined ↦ (hnested.classes name).mpr (.inl hdefined))
              hreferences habsent hhistory
      chronological := by
        refine List.pairwise_append.mpr ⟨hnested.chronological, List.pairwise_singleton _ _,
          fun k hk m hm ↦ ?_⟩
        obtain rfl := List.mem_singleton.mp hm
        exact (hnested.classes _).mpr (.inr (List.mem_map_of_mem hk))
      pending := fun m hm name hname ↦ by
        refine (hbegun name).mp ?_
        obtain hmade | hlast := List.mem_append.mp hm
        · exact (hnested.visiting name).mpr (hnested.pending m hmade name hname)
        · obtain rfl := List.mem_singleton.mp hlast
          exact hforward name hname }

/-! ### A whole synthesis -/

/-- What a synthesis comes to that goes at most a number of classes deep. -/
def Ends (world : World) (defined : Array Event → String → Prop) (past : State) (depth : Nat) :
    Prop :=
  ∀ (schema : ClassSchema) (h : Hint) (c d : Synthesis) (s t : State),
    Evolves world.setup .asking past s →
    s.memo.Settled world.types world.config.tags →
      buildSchema world.types world.config.tags h = .ok schema →
    runIn (synthesizeWithin depth schema) world c s = (.ok ((), d), t) →
      ∃ made, Advances world defined c s made d t ∧
        (schema.name ∈ c.visiting ∨ defined t.history schema.name)

/-- What is done for what a schema refers to, one type after the other. -/
theorem Ends.references (hends : Ends world defined past depth) (items : List Hint)
    (hpast : Evolves world.setup .asking past s)
    (hsettled : s.memo.Settled world.types world.config.tags)
    (hrun : runIn (items.foldlM (synthesizeNested depth) forward) world c s = (.ok (after, d), t)) :
    ∃ made, Advances world defined c s made d t ∧ forward ⊆ after ∧
      (∀ name ∈ after, name ∈ forward ∨ name ∈ d.visiting) ∧
        AllMet world defined t.history after items := by
  induction items generalizing forward c s with
  | nil =>
    obtain ⟨rfl, rfl, rfl⟩ := ok_of_pure hrun
    exact ⟨[], .of_idles (.refl s), fun _ hmem ↦ hmem, fun _ hmem ↦ .inl hmem, nofun⟩
  | cons g rest ih =>
    rw [List.foldlM_cons] at hrun
    obtain ⟨between, e, u, hstep, hrest⟩ := ok_of_bind hrun
    have hfirst : ∃ made, Advances world defined c s made e u ∧ forward ⊆ between ∧
        (∀ name ∈ between, name ∈ forward ∨ name ∈ e.visiting) ∧
        ∃ k, buildSchema world.types world.config.tags g = .ok k ∧
          (k.name ∈ between ∨ defined u.history k.name) := by
      cases meets_of_synthesizeNested hstep with
      | begun hschema hbegun =>
        obtain ⟨hbuilt, hidles⟩ := ok_of_schemaOf defined hsettled hschema
        refine ⟨[], .of_idles hidles, List.subset_cons_self _ _, fun name hmem ↦ ?_, _, hbuilt,
          .inl List.mem_cons_self⟩
        obtain rfl | hmem := List.mem_cons.mp hmem
        · exact .inr hbegun
        · exact .inl hmem
      | defined hschema hnew hwithin =>
        obtain ⟨hbuilt, hidles⟩ := ok_of_schemaOf defined hsettled hschema
        obtain ⟨made, hadvances, hdefined⟩ := hends _ g c e _ u (.trans hpast hidles.evolves)
          (hidles.evolves.memo_settled hsettled) hbuilt hwithin
        exact ⟨made, .after_idles hidles hadvances, fun _ hmem ↦ hmem,
          fun _ hmem ↦ .inl hmem, _, hbuilt, .inr (hdefined.resolve_left hnew)⟩
    obtain ⟨made, hadvances, hsubset, hbegun, k, hk, hknown⟩ := hfirst
    obtain ⟨more, hmore, hlater, hbegunlater, hall⟩ := ih (.trans hpast hadvances.evolves)
      (hadvances.evolves.memo_settled hsettled) hrest
    refine ⟨made ++ more, hadvances.append hmore, List.Subset.trans hsubset hlater,
      fun name hmem ↦ ?_,
      fun h hmem ↦ ?_⟩
    · obtain hbetween | hdone := hbegunlater name hmem
      · exact (hbegun name hbetween).imp_right fun he ↦ (hmore.visiting name).mpr (.inl he)
      · exact .inr hdone
    · obtain rfl | hmem := List.mem_cons.mp hmem
      · exact ⟨k, hk, hknown.imp (fun hmem ↦ hlater hmem) fun hdefined ↦
          (hmore.classes _).mpr (.inl hdefined)⟩
      · exact hall h hmem

/-- A synthesis that ends with an answer has sent definitions of classes that were not there, and
the class it was for exists, unless it was begun before. -/
theorem ends (htells : world.TellsClasses past defined) (hworld : world.Orderly)
    (hvalid : world.config.IsValid) (depth : Nat) : Ends world defined past depth := by
  induction depth with
  | zero => exact fun _ _ _ _ _ _ _ _ _ hrun ↦ absurd hrun ok_of_throw
  | succ depth ih =>
    intro schema h c d s t hpast hsettled hbuilt hrun
    cases defines_of_synthesizeWithin hrun with
    | begun hbegun => exact ⟨[], .of_idles (.refl s), .inl hbegun⟩
    | existing hnew hasked =>
      obtain ⟨hidles, htrue⟩ := htells.ok_of_classIsDefined hworld hpast hasked
      exact ⟨[], .of_idles hidles, .inr ((hidles.classes _).mpr (htrue.mp rfl))⟩
    | @defined u v _ e forward hnew hasked hnested hsent =>
      obtain ⟨hidles, htrue⟩ := htells.ok_of_classIsDefined hworld hpast hasked
      have hundefined : ¬defined u.history schema.name := fun hdefined ↦ by
        have habsurd := htrue.mpr ((hidles.classes _).mp hdefined)
        cases habsurd
      have hlater := Evolves.trans hpast hidles.evolves
      obtain ⟨made, hadvances, -, hbegun, hreferences⟩ := ih.references schema.references hlater
        (hidles.evolves.memo_settled hsettled) hnested
      have hwhole := hadvances.define htells hworld hvalid hlater hbuilt hnew hundefined
        (fun name hmem ↦ (hbegun name hmem).resolve_left List.not_mem_nil) hreferences hsent
      refine ⟨_, .after_idles hidles hwhole, .inr ((hwhole.classes _).mpr (.inr ?_))⟩
      exact List.mem_map.mpr ⟨_, List.mem_append_right _ List.mem_cons_self, rfl⟩

/-- A synthesis that may define a given number of classes one inside the other. -/
def synthesizeTo (depth : Nat) (h : Hint) : Act (List String) := do
  let schema ← schemaOf h
  let ((), done) ← (synthesizeWithin depth schema).run {}
  return done.emitted

theorem runIn_synthesize : (synthesize h).runIn world s =
    (synthesizeTo (world.types.types.length + 12) h).runIn world s := by
  unfold synthesize synthesizeTo
  rw [Act.runIn_bind, Act.runIn_bind]
  cases (schemaOf h).runIn world s with
  | mk answer u =>
    cases answer with
    | error e => rfl
    | ok schema =>
      dsimp only
      rw [Act.runIn_bind, Act.runIn_read]

/-- A synthesis is never stopped by its bound: with a greater one it runs alike. -/
theorem runIn_synthesizeTo_more (hworld : world.Orderly)
    (hsettled : s.memo.Settled world.types world.config.tags) (more : Nat) :
    (synthesizeTo (world.types.types.length + 12 + more) h).runIn world s =
      (synthesize h).runIn world s := by
  rw [runIn_synthesize]
  unfold synthesizeTo
  rw [Act.runIn_bind, Act.runIn_bind]
  cases hschema : (schemaOf h).runIn world s with
  | mk answer u =>
    cases answer with
    | error e => rfl
    | ok schema =>
      obtain ⟨hbuilt, hidles⟩ := ok_of_schemaOf (fun _ _ ↦ True) hsettled hschema
      have hroom : (({} : Synthesis).left world.types).card < world.types.types.length + 12 :=
        lt_of_le_of_lt (Synthesis.card_left_le {} world.types) (by omega)
      have hsame := synthesizeWithin_enough (c := {}) hworld hbuilt
        (hidles.evolves.memo_settled hsettled) hroom more
      dsimp only
      rw [Act.runIn_bind, Act.runIn_bind]
      rw [show
        ((synthesizeWithin (world.types.types.length + 12 + more) schema).run {}).runIn world u =
        ((synthesizeWithin (world.types.types.length + 12) schema).run {}).runIn world u
        from hsame]

/-- A synthesis that ends with an answer went on from nothing begun to what it was for. -/
theorem exists_advances_of_synthesize (htells : world.TellsClasses s defined)
    (hworld : world.Orderly) (hvalid : world.config.IsValid)
    (hsettled : s.memo.Settled world.types world.config.tags) {emitted : List String}
    (hrun : (synthesize h).runIn world s = (.ok emitted, t)) :
    ∃ schema made d, buildSchema world.types world.config.tags h = .ok schema ∧
      Advances world defined {} s made d t ∧ emitted = made.map (·.text world) ∧
      defined t.history schema.name := by
  rw [runIn_synthesize] at hrun
  obtain ⟨schema, u, hschema, hrest⟩ := Act.ok_of_bind hrun
  obtain ⟨⟨⟨⟩, d⟩, v, hwithin, hreturn⟩ := Act.ok_of_bind hrest
  cases hreturn
  obtain ⟨hbuilt, hidles⟩ := ok_of_schemaOf defined hsettled hschema
  obtain ⟨made, hadvances, hdefined⟩ := ends htells hworld hvalid _ schema h {} d u t hidles.evolves
    (hidles.evolves.memo_settled hsettled) hbuilt hwithin
  exact ⟨schema, made, d, hbuilt, .after_idles hidles hadvances, hadvances.emitted,
    hdefined.resolve_left List.not_mem_nil⟩

end

/-- A synthesis is safe. With settings that are in order, in a run that began with no type
reflected, and with an engine that says truthfully which classes exist, a synthesis is never stopped
by its bound, and when it ends with an answer the class of the type exists, and what was defined
meanwhile is what is answered: definitions of classes that are all different, each sent when its
class did not exist and every class that a constraint in its text names did. -/
theorem synthesize_safe (types : TypeTable) (config : Config)
    (engine : Array Event → Command → Reply) (depth : Nat) (h : Hint) (s : State)
    (defined : Array Event → String → Prop) :
    let world := World.ofDepth types config engine depth
    config.IsValid → (∃ begun : State, begun.memo = {} ∧ Evolves world.setup .acting begun s) →
    world.TellsClasses s defined →
    (∀ more, (synthesizeTo (types.types.length + 12 + more) h).runIn world s =
      (synthesize h).runIn world s) ∧
    ∀ (emitted : List String) (t : State), (synthesize h).runIn world s = (.ok emitted, t) →
      ∃ (schema : ClassSchema) (made : List Defining),
        buildSchema types config.tags h = .ok schema ∧ defined t.history schema.name ∧
        emitted = made.map (·.text world) ∧ t.constructs = s.constructs ++ emitted.map .text ∧
        (made.map (·.name)).Nodup ∧ (made.Pairwise fun k m ↦ defined m.before k.name) ∧
        ∀ m ∈ made, m.Safe world defined s t := by
  intro world hvalid hreached htells
  have hworld : world.Orderly := World.ofDepth_orderly types config engine depth
  have hsetup : world.setup = ⟨types, config, engine⟩ :=
    World.ofDepth_setup types config engine depth
  have htypes : world.types = types := congrArg Setup.types hsetup
  have hconfig : world.config = config := congrArg Setup.config hsetup
  have hsettled : s.memo.Settled world.types world.config.tags := by
    obtain ⟨begun, hempty, hst⟩ := hreached
    exact hst.memo_settled (hempty ▸ Memo.settled_empty)
  refine ⟨fun more ↦ ?_, fun emitted t hrun ↦ ?_⟩
  · rw [← htypes]
    exact runIn_synthesizeTo_more hworld hsettled more
  · obtain ⟨schema, made, d, hbuilt, hadvances, hemitted, hdefined⟩ :=
      exists_advances_of_synthesize htells hworld (hconfig ▸ hvalid) hsettled hrun
    rw [htypes, hconfig] at hbuilt
    refine ⟨schema, made, hbuilt, hdefined, hemitted, ?_, hadvances.nodup, hadvances.chronological,
      hadvances.safe⟩
    rw [hemitted, hadvances.constructs, List.map_map]
    rfl

/-! ### An engine that keeps classes -/

/-- The name in the first line of a definition. -/
def definedName (text : String) : String :=
  String.ofList ((text.toList.drop 10).takeWhile (· ≠ '\n'))

/-- The class that an event has the engine define. -/
def Event.definedClass? : Event → Option String
  | .command (.build (.text text)) => some (definedName text)
  | _ => none

/-- Whether the class of a name was defined. -/
def IsRecorded (history : Array Event) (name : String) : Prop :=
  some name ∈ history.toList.map Event.definedClass?

instance (history : Array Event) (name : String) : Decidable (IsRecorded history name) :=
  inferInstanceAs (Decidable (some name ∈ history.toList.map Event.definedClass?))

/-- An engine that accepts every definition and has the classes that were defined. -/
def classEngine (history : Array Event) : Command → Reply
  | .evaluate (.classQuery .isDefined name) =>
    { outcome := .ok (.bool (decide (IsRecorded history name))) }
  | _ => {}

theorem classEngine_calls (history : Array Event) (c : Command) :
    (classEngine history c).calls = [] := by
  unfold classEngine
  split <;> rfl

theorem isRecorded_push {history : Array Event} {e : Event} {name : String} :
    IsRecorded (history.push e) name ↔ IsRecorded history name ∨ e.definedClass? = some name := by
  unfold IsRecorded
  rw [Array.toList_push, List.map_append, List.mem_append]
  simp [eq_comm]

theorem definedName_definition {world : World} {schema : ClassSchema} {pending : List String}
    (hline : '\n' ∉ schema.name.toList) :
    definedName (world.definition schema pending) = schema.name := by
  obtain ⟨rest, hrest⟩ : ∃ rest, (world.definition schema pending).toList =
      "(defclass ".toList ++ (schema.name.toList ++ '\n' :: rest) := by
    unfold World.definition ClassSchema.render
    rw [List.cons_append, String.intercalate_cons_of_ne_nil (by simp)]
    simp only [String.toList_append, List.append_assoc]
    exact ⟨_, rfl⟩
  have hkept : ∀ c ∈ schema.name.toList, decide (c ≠ '\n') = true := fun c hc ↦
    decide_eq_true fun heq ↦ hline (heq ▸ hc)
  have hdropped : ("(defclass ".toList ++ (schema.name.toList ++ '\n' :: rest)).drop 10 =
      schema.name.toList ++ '\n' :: rest := by simp
  unfold definedName
  rw [hrest, hdropped, List.takeWhile_append_of_pos hkept]
  simp

/-- The classes of the engine are those that were defined, where names do not run over lines. -/
theorem classEngine_tellsClasses {types : TypeTable} {config : Config} {depth : Nat} (s : State)
    (hlines : ∀ h schema, buildSchema types config.tags h = .ok schema →
      '\n' ∉ schema.name.toList) :
    (World.ofDepth types config classEngine depth).TellsClasses s IsRecorded := by
  have hsetup := World.ofDepth_setup types config classEngine depth
  have htypes : (World.ofDepth types config classEngine depth).types = types :=
    congrArg Setup.types hsetup
  have hconfig : (World.ofDepth types config classEngine depth).config = config :=
    congrArg Setup.config hsetup
  have hengine : (World.ofDepth types config classEngine depth).engine = classEngine :=
    congrArg Setup.engine hsetup
  refine ⟨fun u name v e _ houtcome hgives ↦ ?_, fun u name given _ ↦ ?_,
    fun u h schema pending v given _ hbuilt _ ↦ ?_, fun u history c _ _ call hcall ↦ ?_⟩
  · rw [hengine] at houtcome
    cases houtcome
    cases hgives
    by_cases hrecorded : IsRecorded u.history name
    · simp [hrecorded, EngineValue.ofBool, EngineValue.isTrue, EngineValue.isFalse,
        EngineValue.isNil]
    · simp [hrecorded, EngineValue.ofBool, EngineValue.isTrue, EngineValue.isFalse]
  · rw [isRecorded_push]
    simp [Event.definedClass?]
  · rw [htypes, hconfig] at hbuilt
    rw [isRecorded_push, Event.definedClass?, definedName_definition (hlines h schema hbuilt),
      Option.some_inj, eq_comm]
  · rw [hengine, classEngine_calls] at hcall
    cases hcall

/-- Names of classes are in one line if those of all struct types are. -/
theorem name_in_line {types : TypeTable} {tags : Tags}
    (hlines : ∀ a ∈ types.structs, ∀ name ∈ (types.className (.atom a)).toOption,
      '\n' ∉ name.toList)
    (h : Hint) (schema : ClassSchema) (hbuilt : buildSchema types tags h = .ok schema) :
    '\n' ∉ schema.name.toList := by
  obtain ⟨a, ha, rfl⟩ := mem_structs_of_buildSchema hbuilt
  exact hlines a ha schema.name (by rw [className_of_buildSchema hbuilt]; rfl)

/-- Two types that refer to each other, and both to a third. -/
def diamondTypes : TypeTable where
  types :=
    [{ name := "Root", kind := .described,
       fields :=
         [{ attr := "left", hint := .struct "Mid" }, { attr := "right", hint := .struct "Leaf" }] },
     { name := "Mid", kind := .described,
       fields :=
         [{ attr := "leaf", hint := .struct "Leaf" }, { attr := "root", hint := .struct "Root" }] },
     { name := "Leaf", kind := .described, fields := [] }]

/-- The classes of two types that refer to each other, and both to a third, are defined once
each. -/
theorem synthesize_safe_diamond :
    let world := World.ofDepth diamondTypes {} classEngine 0
    ∃ (emitted : List String) (t : State) (made : List Defining),
      (synthesize (.struct "Root")).runIn world {} = (.ok emitted, t) ∧
      emitted.length = 3 ∧ IsRecorded t.history "Root" ∧
      emitted = made.map (·.text world) ∧ t.constructs = emitted.map .text ∧
        (made.map (·.name)).Nodup ∧
      ∀ m ∈ made, m.Safe world IsRecorded {} t := by
  intro world
  have hlength :
      ((synthesize (.struct "Root")).runIn world {}).1.toOption.map (·.length) = some 3 := by
    decide +kernel
  cases hrun : (synthesize (.struct "Root")).runIn world {} with
  | mk answer t =>
    rw [hrun] at hlength
    cases answer with
    | error e => cases hlength
    | ok emitted =>
      have htells : world.TellsClasses {} IsRecorded :=
        classEngine_tellsClasses {} (name_in_line (by decide +kernel))
      obtain ⟨-, hends⟩ := synthesize_safe diamondTypes {} classEngine 0
        (.struct "Root") {} IsRecorded Config.isValid_default ⟨{}, rfl, .refl _ _⟩ htells
      obtain ⟨schema, made, hbuilt, hdefined, htexts, hconstructs, hnodup, -, hsafe⟩ :=
        hends emitted t hrun
      have hname : schema.name = "Root" := Except.ok.inj (className_of_buildSchema hbuilt).symm
      rw [hname] at hdefined
      exact ⟨emitted, t, made, rfl, Option.some.inj hlength, hdefined, htexts,
        hconstructs, hnodup, hsafe⟩

end RuleMarshal
