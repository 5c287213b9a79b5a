import RuleMarshal.Proofs.Engine.Native
import RuleMarshal.Proofs.Extraction.Store
import RuleMarshal.Proofs.Session.Refusal
/-!
Handles for names that the engine reports. Where templates or classes are listed, each name that the
engine reports is looked at as if the host program had given it: the listing is one handle for each
name, in order, if all of them are accepted, and else it is refused with the first that is not
(`Listing.runIn_act`). So it ends with an answer exactly if the engine reports nothing but accepted
names (`Listing.returns_iff`); a single construct of another name, of which the engine has no
objection, keeps all others from being listed (`listing_of_unaccepted_name`). The template of a fact
is made by the same rule (`FactHandle.runIn_template`).

Names of instances are not looked at: whatever the engine reports, the instances in it are listed
(`runIn_instancesIn`).
-/

set_option autoImplicit false
set_option relaxedAutoImplicit false

namespace RuleMarshal

open Act

/-! ### Names as symbols -/

namespace Act

variable {world : World} {s : State}

theorem runIn_shown_text (text : String) :
    (shown (.text text)).runIn world s = (.ok (Text.shown text), s) := by
  unfold shown
  rw [runIn_bind, runIn_read]
  dsimp only
  rw [runIn_bind, runIn_get]
  dsimp only
  rw [runIn_ofExcept]
  simp [Value.shown, Value.shownWithin]

/-- A text is taken as a symbol, or refused. -/
theorem runIn_symbolText (role : NameRole) (text : String) :
    (symbolText role (.text text)).runIn world s =
      if Text.SafeSymbol.accepts text then (.ok (.plain text), s)
      else (.error (.unsupported (.engineSymbol role (Text.shown text))), s) := by
  have hread : (symbolText role (.text text)).runIn world s = Act.runIn
      (if Text.SafeSymbol.accepts text then pure (.plain text)
        else do throw (.unsupported (.engineSymbol role (← shown (.text text)))) : Act HostText)
          world s := rfl
  rw [hread]
  by_cases haccepts : Text.SafeSymbol.accepts text = true
  · rw [if_pos haccepts, if_pos haccepts, runIn_pure]
  · rw [if_neg haccepts, if_neg haccepts, runIn_bind_of_ok (runIn_shown_text text), runIn_throw]

theorem runIn_requireKey_text (text : String) :
    (requireKey (.text text)).runIn world s = (.ok ⟨⟩, s) := by
  have hkey : (Value.text text).countable world.types s.heap = .ok () := by
    simp [Value.countable, Value.countableWithin]
  unfold requireKey
  rw [runIn_bind_of_ok (runIn_read world s), runIn_bind_of_ok (runIn_get world s), hkey]
  rfl

end Act

/-! ### A handle for each name -/

/-- The first of some names that is not accepted. -/
def firstUnaccepted (names : List String) : Option String :=
  names.find? fun name ↦ !Text.SafeSymbol.accepts name

theorem firstUnaccepted_eq_none_iff {names : List String} :
    firstUnaccepted names = none ↔ ∀ name ∈ names, Text.SafeSymbol.accepts name = true := by
  simp [firstUnaccepted]

/-- What is made for some names in turn, from a state on; each time a handle is counted. -/
def eachFor {H : Type} (handle : State → String → H) : State → List String → List H
  | _, [] => []
  | s, name :: rest => handle s name :: eachFor handle { s with serial := s.serial + 1 } rest

theorem map_eachFor {H K : Type} (handle : State → String → H) (f : H → K) (s : State)
    (names : List String) :
    (eachFor handle s names).map f = eachFor (fun s name ↦ f (handle s name)) s names := by
  induction names generalizing s with
  | nil => rfl
  | cons name rest ih => exact congrArg (f (handle s name) :: ·) (ih _)

/-- Making something for a name counts one handle and does nothing else; a name that is not accepted
is refused. -/
def MakesFor {H : Type} (world : World) (role : NameRole) (handle : State → String → H)
    (make : String → Act H) : Prop :=
  ∀ s name, (make name).runIn world s =
    if Text.SafeSymbol.accepts name then (.ok (handle s name), { s with serial := s.serial + 1 })
    else (.error (.unsupported (.engineSymbol role (Text.shown name))), s)

section

variable {world : World} {s t : State} {H : Type} {role : NameRole} {handle : State → String → H}
  {make : String → Act H}

/-- Names are gone through up to the first that is not accepted. -/
theorem MakesFor.runIn_mapM (hmake : MakesFor world role handle make) (names : List String)
    (s : State) :
    (names.mapM make).runIn world s =
      match firstUnaccepted names with
      | none => (.ok (eachFor handle s names), { s with serial := s.serial + names.length })
      | some name => (.error (.unsupported (.engineSymbol role (Text.shown name))),
          { s with serial := s.serial + (names.takeWhile Text.SafeSymbol.accepts).length }) := by
  induction names generalizing s with
  | nil => rfl
  | cons name rest ih =>
    have hfirst := hmake s name
    rw [List.mapM_cons, runIn_bind]
    by_cases haccepted : Text.SafeSymbol.accepts name = true
    · have hunaccepted : firstUnaccepted (name :: rest) = firstUnaccepted rest := by
        simp [firstUnaccepted, haccepted]
      rw [hfirst, if_pos haccepted, hunaccepted, List.takeWhile_cons_of_pos haccepted]
      dsimp only
      rw [runIn_bind, ih]
      cases firstUnaccepted rest with
      | none => simp [eachFor, Nat.add_assoc, Nat.add_comm 1]
      | some other => simp [Nat.add_assoc, Nat.add_comm 1]
    · have hunaccepted : firstUnaccepted (name :: rest) = some name := by
        simp [firstUnaccepted, haccepted]
      rw [hfirst, if_neg haccepted, hunaccepted, List.takeWhile_cons_of_neg haccepted]
      rfl

/-- What goes through names in the end is listed in their order, or refused as the names are. -/
theorem MakesFor.runIn_list (hmake : MakesFor world role handle make) {listing : Act (List H)}
    {names : List String} (hlisting : listing.runIn world s = (names.mapM make).runIn world t)
    (toValue : H → Value) :
    Act.runIn (do return .list ((← listing).map toValue) : Act Value) world s =
      match firstUnaccepted names with
      | none => (.ok (.list (eachFor (fun s name ↦ toValue (handle s name)) t names)),
          { t with serial := t.serial + names.length })
      | some name => (.error (.unsupported (.engineSymbol role (Text.shown name))),
          { t with serial := t.serial + (names.takeWhile Text.SafeSymbol.accepts).length }) := by
  rw [runIn_bind, hlisting, hmake.runIn_mapM, ← map_eachFor handle toValue]
  cases firstUnaccepted names <;> rfl

end

/-! ### Handles on templates and classes -/

namespace ConstructKind

/-- What a name of a construct is refused as. -/
def role : ConstructKind → NameRole
  | .template => .template
  | .defclass => .defclass

/-- The handle on the construct of a name that is made from a state on. -/
def handle (kind : ConstructKind) (s : State) (name : String) : Handle :=
  match kind with
  | .template => .template ⟨.plain name, s.constructEpochOf .template name, s.serial + 1⟩
  | .defclass => .defclass ⟨.plain name, s.constructEpochOf .defclass name, s.serial + 1⟩

variable {world : World} {s : State} {kind : ConstructKind} {names : List String}

/-- Each name has a handle on the construct of that name, in order. -/
theorem construct?_of_eachFor :
    (eachFor kind.handle s names).map Handle.construct? = names.map fun name ↦
      some (kind, name) := by
  induction names generalizing s with
  | nil => rfl
  | cons name rest ih =>
    rw [eachFor, List.map_cons, ih, List.map_cons]
    cases kind <;> rfl

/-- The handles are current as long as the environment stays open and nothing but handles is
made. -/
theorem isCurrent_of_mem_eachFor (hopen : s.closed = false) (n : Nat) :
    ∀ h ∈ eachFor kind.handle s names, h.isCurrent { s with serial := n } = true := by
  induction names generalizing s with
  | nil => nofun
  | cons name rest ih =>
    refine List.forall_mem_cons.mpr ⟨?_, ih (s := { s with serial := s.serial + 1 }) hopen⟩
    cases kind
    · exact Handle.isCurrent_template.mpr ⟨hopen, rfl⟩
    · exact Handle.isCurrent_defclass.mpr ⟨hopen, rfl⟩

end ConstructKind

/-- A handle on the construct of a name is made from the name as a symbol and from the epoch of the
construct. -/
theorem makesFor_of_symbolText {H : Type} (world : World) (role : NameRole) (kind : ConstructKind)
    (handle : HostText → Nat × Nat → Nat → H) :
    MakesFor world role
      (fun s name ↦ handle (.plain name) (s.constructEpochOf kind name) (s.serial + 1))
      (fun name ↦ do
        requireKey (.text name)
        let s ← get
        let text ← symbolText role (.text name)
        return handle text (s.constructEpochOf kind text.content) (← nextSerial)) := by
  intro s name
  rw [runIn_bind_of_ok (runIn_requireKey_text name), runIn_bind_of_ok (runIn_get world s),
    runIn_bind, runIn_symbolText]
  by_cases haccepts : Text.SafeSymbol.accepts name = true
  · rw [if_pos haccepts, if_pos haccepts]
    rfl
  · rw [if_neg haccepts, if_neg haccepts]

theorem makesFor_templateHandle (world : World) :
    MakesFor world .template
      (fun s name ↦ ⟨.plain name, s.constructEpochOf .template name, s.serial + 1⟩)
      (fun name ↦ templateHandle (.text name)) := by
  intro s name
  exact makesFor_of_symbolText world .template .template TemplateHandle.mk s name

theorem makesFor_classHandle (world : World) :
    MakesFor world .defclass
      (fun s name ↦ ⟨.plain name, s.constructEpochOf .defclass name, s.serial + 1⟩)
      (fun name ↦ classHandle (.text name)) := by
  intro s name
  exact makesFor_of_symbolText world .defclass .defclass ClassHandle.mk s name

/-! ### Names that the engine reports -/

/-- The names in a list of symbols that the engine answers with at once. -/
theorem Channel.runIn_names_of_symbols {world : World} {s : State} {e : Expression}
    {found : List String} (hopen : s.closed = false)
    (hreply : world.engine s.history (.evaluate e) =
      { outcome := .ok (.list (found.map .symbol)) }) :
    (names e).runIn world s =
      (.ok found, { s with history := s.history.push (.command (.evaluate e)) }) := by
  have hanswer : (evaluate e).runIn world s = (.ok (.multifield (found.map .symbol)),
      { s with history := s.history.push (.command (.evaluate e)) }) := by
    rw [runIn_evaluate hreply, if_neg (by simp [hopen]), toEngine_symbols]
  unfold names
  rw [runIn_bind_of_ok hanswer, runIn_pure, EngineValue.lexemes_symbols]

/-- The names of the classes that stand in a relation to a class, which is checked first. -/
def ClassHandle.related (h : ClassHandle) (q : ClassQuery) : Act (List String) := do
  h.check
  return (← eval (.classQuery q h.name)).lexemes

/-- What handles on such classes are made by. -/
theorem ClassHandle.runIn_of_related {world : World} {s t : State} {h : ClassHandle}
    {q : ClassQuery} {found : List String} (hrun : (h.related q).runIn world s = (.ok found, t)) :
    Act.runIn (do
      h.check
      classHandles (← eval (.classQuery q h.name)).lexemes) world s =
        (classHandles found).runIn world t := by
  obtain ⟨_, u, hcheck, hasked⟩ := ok_of_bind hrun
  obtain ⟨v, w, heval, hreturn⟩ := ok_of_bind hasked
  cases hreturn
  exact (runIn_bind_of_ok hcheck).trans (runIn_bind_of_ok heval)

theorem ClassHandle.runIn_related_of_symbols {world : World} {s t : State} {h : ClassHandle}
    {q : ClassQuery} {found : List String} (hcheck : h.check.runIn world s = (.ok ⟨⟩, t))
    (hopen : t.closed = false) (hparked : t.parked = none)
    (hreply : world.engine t.history (.evaluate (.classQuery q h.name)) =
      { outcome := .ok (.list (found.map .symbol)) }) :
    (h.related q).runIn world s =
      (.ok found,
        { t with history := t.history.push (.command (.evaluate (.classQuery q h.name))) }) := by
  have hanswer := runIn_eval_of_reply hopen hreply (toEngine_symbols found _) hparked
  unfold related
  rw [runIn_bind_of_ok hcheck, runIn_bind_of_ok hanswer, runIn_pure, EngineValue.lexemes_symbols]

/-! ### Listings -/

/-- What lists templates or classes. -/
inductive Listing where
  | templates
  | classes
  | superclasses (h : ClassHandle)
  | subclasses (h : ClassHandle)

namespace Listing

/-- What a listing lists. -/
def kind : Listing → ConstructKind
  | .templates => .template
  | .classes | .superclasses _ | .subclasses _ => .defclass

/-- What a host program asks for. -/
def act : Listing → Bound → Act Value
  | .templates => callReceiver .environment .templates
  | .classes => callReceiver .environment .classes
  | .superclasses h => callReceiver (.classHandle h) .superclasses
  | .subclasses h => callReceiver (.classHandle h) .subclasses

/-- The names that the engine is asked for, once a class that they are asked of was checked. -/
def names : Listing → Act (List String)
  | .templates => Channel.names .templateList
  | .classes => Channel.names .classList
  | .superclasses h => h.related .superclasses
  | .subclasses h => h.related .subclasses

variable {world : World} {s t : State} {l : Listing} {found : List String}

/-- Where the engine reports names, a listing is one handle for each of them, in order, or it is
refused with the first of them that is not accepted. -/
theorem runIn_act (hnames : l.names.runIn world s = (.ok found, t)) (b : Bound) :
    (l.act b).runIn world s =
      match firstUnaccepted found with
      | none => (.ok (.list ((eachFor l.kind.handle t found).map Handle.toValue)),
          { t with serial := t.serial + found.length })
      | some name => (.error (.unsupported (.engineSymbol l.kind.role (Text.shown name))),
          { t with serial := t.serial + (found.takeWhile Text.SafeSymbol.accepts).length }) := by
  rw [map_eachFor]
  cases l with
  | templates =>
    have hlisting : Environment.templates.runIn world s = _ := runIn_bind_of_ok hnames
    exact (makesFor_templateHandle world).runIn_list hlisting .templateHandle
  | classes =>
    have hlisting : Environment.classes.runIn world s = _ := runIn_bind_of_ok hnames
    exact (makesFor_classHandle world).runIn_list hlisting .classHandle
  | superclasses h =>
    exact (makesFor_classHandle world).runIn_list (ClassHandle.runIn_of_related hnames) .classHandle
  | subclasses h =>
    exact (makesFor_classHandle world).runIn_list (ClassHandle.runIn_of_related hnames) .classHandle

/-- A listing ends with an answer exactly if all names that the engine reports are accepted. -/
theorem returns_iff (hnames : l.names.runIn world s = (.ok found, t)) (b : Bound) :
    (l.act b).Returns world s ↔ ∀ name ∈ found, Text.SafeSymbol.accepts name = true := by
  rw [← firstUnaccepted_eq_none_iff]
  unfold Act.Returns
  rw [runIn_act hnames]
  cases firstUnaccepted found with
  | none => simp
  | some name => simp

end Listing

/-- The template of a fact is made of the name that the engine reports, or that name is refused. -/
theorem FactHandle.runIn_template {world : World} {s t u : State} {h : FactHandle} {v : EngineValue}
    {name : String} (hcheck : h.check.runIn world s = (.ok ⟨⟩, u))
    (hasked : (eval (.factRelation h.index)).runIn world u = (.ok v, t))
    (hname : v.content? = some name) :
    h.template.runIn world s =
      if Text.SafeSymbol.accepts name then
        (.ok ⟨.plain name, t.constructEpochOf .template name, t.serial + 1⟩,
          { t with serial := t.serial + 1 })
      else (.error (.unsupported (.engineSymbol .template (Text.shown name))), t) := by
  have hcontent : (content v).runIn world t = (.ok name, t) := by
    unfold content
    rw [hname]
    rfl
  unfold FactHandle.template
  rw [runIn_bind_of_ok hcheck, runIn_bind_of_ok hasked, runIn_bind_of_ok hcontent]
  exact makesFor_templateHandle world t name

/-! ### Instances -/

/-- The items of a multifield, and any other value as the only one. -/
def EngineValue.listed : EngineValue → List EngineValue
  | .multifield items => items
  | v => [v]

section

variable {world : World} {α β : Type} {f : α → Act β} {R : α → β → Prop}

/-- A list is gone through to its end if each item comes to something and nothing but handles is
made for it. -/
theorem exists_runIn_mapM
    (hf : ∀ a s, ∃ b n, (f a).runIn world s = (.ok b, { s with serial := n }) ∧ R a b) (as : List α)
    (s : State) :
    ∃ bs n, (as.mapM f).runIn world s = (.ok bs, { s with serial := n }) ∧
      List.Forall₂ R as bs := by
  induction as generalizing s with
  | nil => exact ⟨[], s.serial, rfl, .nil⟩
  | cons a rest ih =>
    obtain ⟨b, n, hfirst, hb⟩ := hf a s
    obtain ⟨bs, m, hrest, hbs⟩ := ih { s with serial := n }
    refine ⟨b :: bs, m, ?_, .cons hb hbs⟩
    rw [List.mapM_cons, runIn_bind_of_ok hfirst, runIn_bind_of_ok hrest]
    rfl

end

/-- The handle on the instance that an item refers to, if it refers to one. -/
def instanceIn : EngineValue → Act (Option InstanceHandle)
  | .instanceAddress h => return some h
  | .instanceName name => do return some (← instanceHandle name)
  | _ => return none

theorem instancesIn_eq (v : EngineValue) :
    instancesIn v = do return (← v.listed.mapM instanceIn).filterMap id := rfl

theorem runIn_instanceIn (world : World) (e : EngineValue) (s : State) :
    ∃ found n, (instanceIn e).runIn world s = (.ok found, { s with serial := n }) ∧
      found.map (·.name) = e.instance? := by
  cases e with
  | instanceName name => exact ⟨_, s.serial + 1, rfl, rfl⟩
  | _ => exact ⟨_, s.serial, rfl, rfl⟩

/-- Whatever the engine answers, the instances in it are listed in order, whatever their names;
nothing but handles is made for that. -/
theorem runIn_instancesIn (world : World) (v : EngineValue) (s : State) :
    ∃ hs n, (instancesIn v).runIn world s = (.ok hs, { s with serial := n }) ∧
      hs.map (·.name) = v.listed.filterMap EngineValue.instance? := by
  obtain ⟨found, n, hrun, hfound⟩ := exists_runIn_mapM (runIn_instanceIn world) v.listed s
  refine ⟨found.filterMap id, n, ?_, ?_⟩
  · rw [instancesIn_eq, runIn_bind_of_ok hrun, runIn_pure]
  · clear hrun
    generalize v.listed = items at hfound
    induction hfound with
    | nil => rfl
    | @cons e h items rest hfirst _ ih =>
      rw [List.filterMap_cons, List.filterMap_cons, ← hfirst]
      cases h with
      | none => exact ih
      | some h => exact congrArg (h.name :: ·) ih

theorem Environment.runIn_instances {world : World} {s t : State} {v : EngineValue}
    (hasked : (eval (.instancesOf "USER")).runIn world s = (.ok v, t)) :
    ∃ hs n, Environment.instances.runIn world s = (.ok hs, { t with serial := n }) ∧
      hs.map (·.name) = v.listed.filterMap EngineValue.instance? := by
  obtain ⟨hs, n, hrun, hnames⟩ := runIn_instancesIn world v t
  exact ⟨hs, n, (runIn_bind_of_ok hasked).trans hrun, hnames⟩

/-! ### A name that is not accepted -/

/-- An engine that answers with the names of two templates. -/
def queryingEngine (_ : Array Event) (_ : Command) : Reply :=
  { outcome := .ok (.list (["initial-fact", "ready?"].map .symbol)) }

/-- The engine reports two templates, one of which has a name with a question mark. No template is
listed. -/
theorem listing_of_unaccepted_name :
    let world := World.ofDepth {} {} queryingEngine 1
    let asked : State := { history := #[.command (.evaluate .templateList)] }
    (Channel.names .templateList).runIn world {} = (.ok ["initial-fact", "ready?"], asked) ∧
      (Listing.templates.act {}).runIn world {} =
        (.error (.unsupported (.engineSymbol .template (Text.shown "ready?"))),
          { asked with serial := 1 }) := by
  intro world asked
  have hnames : (Channel.names .templateList).runIn world {} =
      (.ok ["initial-fact", "ready?"], asked) :=
    Channel.runIn_names_of_symbols rfl rfl
  have hfirst : firstUnaccepted ["initial-fact", "ready?"] = some "ready?" := by decide
  refine ⟨hnames, ?_⟩
  rw [Listing.runIn_act (l := .templates) hnames, hfirst]
  rfl

end RuleMarshal
