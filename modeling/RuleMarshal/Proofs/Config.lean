import RuleMarshal.Config
import RuleMarshal.Proofs.Host.Shown
/-!
What the checks of settings let through. Settings that are returned are in order
(`Config.isValid_of_check`). What is supplied otherwise is refused as a setting, with four
exceptions, in which the error is one of the host program (`Config.escapes_check_iff`,
`Config.failsAsHost_of_escapes`): the superclass is no symbol and cannot be shown, the pattern-match
role cannot be looked up in a set, the paths cannot be gone through, or one of them has no text. A
mapping for the role is such a value (`Config.mapping_for_patternMatch`).

Settings that variables of the process give are texts, which all of this can be done with. So they
are in order or refused as settings, and the paths are those that are named
(`Config.ofVariables_valid_or_refused`).
-/

set_option autoImplicit false
set_option relaxedAutoImplicit false

namespace RuleMarshal

/-! ### Failures of the host program -/

/-- A result whose error, if it is one, is of the host program and none of this library's. -/
def FailsAsHost {α : Type} (found : Except Error α) : Prop :=
  ∀ e, found = .error e → ∃ fault, e = .host fault

section

variable {α β : Type} {table : TypeTable} {heap : Heap} {v : Value}

theorem AtMostLacks.failsAsHost {found : Except Error α} (hfound : AtMostLacks found) :
    FailsAsHost found :=
  fun e he ↦ (hfound e he).imp' _ fun _ ↦ id

theorem FailsAsHost.bind {found : Except Error α} {next : α → Except Error β}
    (hfound : FailsAsHost found) (hnext : ∀ a, FailsAsHost (next a)) :
    FailsAsHost (found >>= next) := by
  intro e he
  obtain hfirst | ⟨a, -, hsecond⟩ := Except.cases_of_bind_error he
  · exact hfound e hfirst
  · exact hnext a e hsecond

theorem TypeTable.lacks_readFields (table : TypeTable) (struct : String)
    (attrs : List (String × Value)) :
    AtMostLacks (table.readFields struct attrs) := by
  unfold readFields
  split
  · refine .mapM _ fun f ↦ ?_
    split
    · exact .ok _
    · rintro _ ⟨⟩
      exact ⟨_, rfl⟩
  · exact .ok _

mutual

/-- What cannot be counted in a set is refused by the host program. -/
theorem Value.failsAsHost_countableWithin (depth : Nat) (v : Value) :
    FailsAsHost (v.countableWithin table heap depth) := by
  have hunhashable (w : Value) : FailsAsHost (.error w.unhashable : Except Error Unit) := by
    rintro _ ⟨⟩
    exact ⟨_, rfl⟩
  have hrecursion : FailsAsHost (.error (.host .recursion) : Except Error Unit) := by
    rintro _ ⟨⟩
    exact ⟨_, rfl⟩
  cases v with
  | held id =>
    cases depth with
    | zero =>
      unfold Value.countableWithin
      exact hrecursion
    | succ depth =>
      unfold Value.countableWithin
      exact Value.failsAsHost_countableWithin depth _
  | tuple items =>
    unfold Value.countableWithin
    exact failsAsHost_eachCountable depth items
  | object struct id =>
    unfold Value.countableWithin
    split
    · nofun
    split
    · nofun
    split
    · exact hunhashable _
    cases depth with
    | zero => exact hrecursion
    | succ depth =>
      dsimp only
      split
      · exact failsAsHost_eachCountable depth _
      split
      · exact failsAsHost_eachCountable depth _
      · rename_i raised hfields
        rintro _ ⟨⟩
        exact (table.lacks_readFields _ _).failsAsHost _ hfields
  | list items =>
    unfold Value.countableWithin
    exact hunhashable _
  | mapping id =>
    unfold Value.countableWithin
    exact hunhashable _
  | stranger kind =>
    cases kind <;> unfold Value.countableWithin
    case set => exact hunhashable _
    all_goals nofun
  | _ =>
    unfold Value.countableWithin
    nofun
termination_by (depth, sizeOf v)

theorem failsAsHost_eachCountable (depth : Nat) (vs : List Value) :
    FailsAsHost (eachCountable table heap depth vs) := by
  cases vs with
  | nil =>
    unfold eachCountable
    nofun
  | cons v rest =>
    unfold eachCountable
    exact (Value.failsAsHost_countableWithin depth v).bind fun _ ↦
      failsAsHost_eachCountable depth rest
termination_by (depth, sizeOf vs)

end

theorem Value.failsAsHost_soughtInSet (v : Value) : FailsAsHost (v.soughtInSet table heap) := by
  unfold soughtInSet
  split
  · nofun
  · exact failsAsHost_countableWithin _ v

theorem Value.failsAsHost_iterated (v : Value) : FailsAsHost (v.iterated heap) := by
  unfold iterated
  split <;> rintro _ ⟨⟩
  exact ⟨_, rfl⟩

end

namespace Config

/-! ### Errors that are no settings -/

/-- A result is an error, but not that a setting is refused. -/
def Escapes {α : Type} (found : Except Error α) (e : Error) : Prop :=
  found = .error e ∧ ∀ cause, e ≠ .setting cause

section

variable {α β : Type} {e : Error}

theorem not_escapes_ok {a : α} : ¬ Escapes (.ok a) e := fun h ↦ nomatch h.1

theorem not_escapes_pure {a : α} : ¬ Escapes (pure a : Except Error α) e := not_escapes_ok

theorem not_escapes_setting {cause : Setting} :
    ¬ Escapes (.error (.setting cause) : Except Error α) e := by
  rintro ⟨⟨⟩, hcause⟩
  exact hcause cause rfl

/-- What is made in steps escapes in one of them, after all those before. -/
theorem escapes_bind_iff {found : Except Error α} {next : α → Except Error β} :
    Escapes (found >>= next) e ↔ Escapes found e ∨ ∃ a, found = .ok a ∧ Escapes (next a) e := by
  cases found with
  | error raised =>
    change Escapes (.error raised : Except Error β) e ↔ _
    simp [Escapes]
  | ok a =>
    change Escapes (next a) e ↔ _
    simp [not_escapes_ok]

theorem escapes_iff_of_failsAsHost {found : Except Error α} (hfound : FailsAsHost found) :
    Escapes found e ↔ found = .error e := by
  refine ⟨And.left, fun he ↦ ⟨he, ?_⟩⟩
  obtain ⟨fault, rfl⟩ := hfound e he
  nofun

end

/-! ### One setting after the other -/

section

variable {table : TypeTable} {heap : Heap} {supplied : Supplied} {v w : Value} {e : Error}

theorem not_escapes_checkTag (field : String) : ¬ Escapes (checkTag field v) e := by
  unfold checkTag
  split
  · split
    · exact not_escapes_setting
    · exact not_escapes_ok
  · exact not_escapes_setting

theorem not_escapes_checkTags : ¬ Escapes (checkTags v w) e := by
  unfold checkTags
  rw [escapes_bind_iff]
  rintro (hbinding | ⟨binding, -, hrest⟩)
  · exact not_escapes_checkTag _ hbinding
  rw [escapes_bind_iff] at hrest
  obtain hserialization | ⟨serialization, -, hrest⟩ := hrest
  · exact not_escapes_checkTag _ hserialization
  · split at hrest
    · exact not_escapes_setting hrest
    · exact not_escapes_ok hrest

/-- A superclass is refused as a setting unless it cannot be shown in the message; a text can. -/
theorem escapes_checkSuperclass_iff :
    Escapes (checkSuperclass table heap v) e ↔ v.shown table heap = .error e := by
  have hshown : FailsAsHost (v.shown table heap) :=
    (Value.lacks_shownWithin table heap _ _ v).failsAsHost
  unfold checkSuperclass
  split
  · rename_i t ht
    refine iff_of_false not_escapes_ok fun he ↦ ?_
    cases v <;> simp [Value.hostText?] at ht <;> simp [Value.shown, Value.shownWithin] at he
  · rw [escapes_bind_iff, escapes_iff_of_failsAsHost hshown]
    refine or_iff_left ?_
    rintro ⟨text, -, hthrown⟩
    exact not_escapes_setting hthrown

/-- A pattern-match role is refused as a setting unless it cannot be looked for in a set. -/
theorem escapes_checkPatternMatch_iff :
    Escapes (checkPatternMatch table heap v) e ↔ v.soughtInSet table heap = .error e := by
  unfold checkPatternMatch
  rw [escapes_bind_iff, escapes_iff_of_failsAsHost v.failsAsHost_soughtInSet]
  refine or_iff_left ?_
  rintro ⟨_, -, hlookup⟩
  split at hlookup
  · exact not_escapes_ok hlookup
  · exact not_escapes_setting hlookup

theorem not_escapes_checkAutoSynthesize : ¬ Escapes (checkAutoSynthesize v) e := by
  unfold checkAutoSynthesize
  split
  · exact not_escapes_ok
  · exact not_escapes_setting

/-- Paths are refused as a setting unless they cannot be gone through or one of them has no text. -/
theorem escapes_checkLoadPaths_iff :
    Escapes (checkLoadPaths table heap v) e ↔ v.iterated heap = .error e ∨
      v.text? = none ∧ ∃ before path after, v.iterated heap = .ok (before ++ path :: after) ∧
        (∀ other ∈ before, ∃ text, other.written table heap = .ok text) ∧
          path.written table heap = .error e := by
  have hwritten (paths : List Value) : FailsAsHost (paths.mapM (Value.written table heap)) :=
    (AtMostLacks.mapM paths (Value.lacks_written table heap)).failsAsHost
  have hiterated : v.iterated heap = .error e → v.text? = none := by
    intro he
    cases v with
    | text s => simp [Value.iterated] at he
    | symbol s => simp [Value.iterated, Heap.content, Value.settledWithin] at he
    | instanceName s => simp [Value.iterated, Heap.content, Value.settledWithin] at he
    | _ => rfl
  unfold checkLoadPaths
  by_cases htext : v.text?.isSome = true
  · rw [if_pos htext]
    refine iff_of_false not_escapes_setting ?_
    rintro (he | ⟨hnone, -⟩)
    · simp [hiterated he] at htext
    · simp [hnone] at htext
  · rw [if_neg htext, escapes_bind_iff, escapes_iff_of_failsAsHost v.failsAsHost_iterated]
    simp only [escapes_iff_of_failsAsHost (hwritten _), Except.mapM_eq_error_iff]
    have hnone : v.text? = none := by simpa using htext
    refine or_congr_right ⟨?_, ?_⟩
    · rintro ⟨paths, hpaths, before, path, after, rfl, hbefore, hpath⟩
      exact ⟨hnone, before, path, after, hpaths, hbefore, hpath⟩
    · rintro ⟨-, before, path, after, hpaths, hbefore, hpath⟩
      exact ⟨_, hpaths, before, path, after, rfl, hbefore, hpath⟩

/-- What the checks raise that is no refused setting, and what has passed before. -/
theorem escapes_check_iff :
    Escapes (check table heap supplied) e ↔
      ∃ tags, checkTags supplied.bindingTag supplied.serializationTag = .ok tags ∧
        (supplied.superclass.shown table heap = .error e ∨
          ∃ superclass, checkSuperclass table heap supplied.superclass = .ok superclass ∧
            (supplied.patternMatch.soughtInSet table heap = .error e ∨
              ∃ mode, checkPatternMatch table heap supplied.patternMatch = .ok mode ∧
                ∃ flag, checkAutoSynthesize supplied.autoSynthesize = .ok flag ∧
                  Escapes (checkLoadPaths table heap supplied.loadPaths) e)) := by
  unfold check
  simp only [escapes_bind_iff, not_escapes_checkTags, not_escapes_checkAutoSynthesize,
    not_escapes_pure, escapes_checkSuperclass_iff, escapes_checkPatternMatch_iff, false_or,
    or_false, and_false, exists_false]

/-- All of that is raised by the host program, not by this library. -/
theorem failsAsHost_of_escapes (h : Escapes (check table heap supplied) e) :
    ∃ fault, e = .host fault := by
  obtain ⟨tags, -, hshown | ⟨superclass, -, hsought | ⟨mode, -, flag, -, hpaths⟩⟩⟩ :=
    escapes_check_iff.mp h
  · exact (Value.lacks_shownWithin table heap _ _ _).failsAsHost e hshown
  · exact Value.failsAsHost_soughtInSet _ e hsought
  · obtain hiterated | ⟨-, before, path, after, -, -, hwritten⟩ :=
      escapes_checkLoadPaths_iff.mp hpaths
    · exact Value.failsAsHost_iterated _ e hiterated
    · exact (Value.lacks_written table heap path).failsAsHost e hwritten

end

/-! ### Settings that are in order -/

/-- Settings as they are documented: tags that are not blank and differ, a superclass that is a
symbol, and one of the ways to take part in pattern matching. -/
structure IsValid (c : Config) : Prop where
  bindingTag : Text.isAllBlank c.bindingTag.content = false
  serializationTag : Text.isAllBlank c.serializationTag.content = false
  tags_ne : c.bindingTag.content ≠ c.serializationTag.content
  superclass : Text.SafeSymbol.accepts c.superclass.content = true
  patternMatch : c.patternMatch.content ∈ patternMatchModes

theorem isValid_default : IsValid {} where
  bindingTag := by decide
  serializationTag := by decide
  tags_ne := by decide
  superclass := by decide
  patternMatch := by decide

section

variable {table : TypeTable} {heap : Heap} {supplied : Supplied} {v w : Value} {c : Config}
variable {t : HostText}

theorem isAllBlank_of_checkTag {field : String} (h : checkTag field v = .ok t) :
    Text.isAllBlank t.content = false := by
  unfold checkTag at h
  split at h
  · split at h
    · cases h
    · rename_i hblank
      cases h
      simpa using hblank
  · cases h

theorem accepts_of_checkSuperclass (h : checkSuperclass table heap v = .ok t) :
    Text.SafeSymbol.accepts t.content = true := by
  unfold checkSuperclass at h
  split at h
  · rename_i found hfound
    cases h
    exact (Option.filter_eq_some_iff.mp hfound).2
  · obtain ⟨text, -, hthrown⟩ := Except.ok_of_bind h
    cases hthrown

theorem mem_modes_of_checkPatternMatch (h : checkPatternMatch table heap v = .ok t) :
    t.content ∈ patternMatchModes := by
  obtain ⟨_, -, hlookup⟩ := Except.ok_of_bind h
  split at hlookup
  · rename_i found hfound
    cases hlookup
    exact List.contains_iff_mem.mp (Option.filter_eq_some_iff.mp hfound).2
  · cases hlookup

/-- Settings that are returned are what each of the checks has returned. -/
theorem ok_of_check (h : check table heap supplied = .ok c) :
    checkTags supplied.bindingTag supplied.serializationTag =
      .ok (c.bindingTag, c.serializationTag) ∧
      checkSuperclass table heap supplied.superclass = .ok c.superclass ∧
      checkPatternMatch table heap supplied.patternMatch = .ok c.patternMatch ∧
      checkAutoSynthesize supplied.autoSynthesize = .ok c.autoSynthesize ∧
      checkLoadPaths table heap supplied.loadPaths = .ok c.loadPaths := by
  obtain ⟨tags, htags, h⟩ := Except.ok_of_bind h
  obtain ⟨superclass, hsuperclass, h⟩ := Except.ok_of_bind h
  obtain ⟨mode, hmode, h⟩ := Except.ok_of_bind h
  obtain ⟨flag, hflag, h⟩ := Except.ok_of_bind h
  obtain ⟨paths, hpaths, h⟩ := Except.ok_of_bind h
  cases h
  exact ⟨htags, hsuperclass, hmode, hflag, hpaths⟩

/-- Settings that are returned are in order. -/
theorem isValid_of_check (h : check table heap supplied = .ok c) : c.IsValid := by
  obtain ⟨htags, hsuperclass, hmode, -⟩ := ok_of_check h
  obtain ⟨first, hfirst, htags⟩ := Except.ok_of_bind htags
  obtain ⟨second, hsecond, htags⟩ := Except.ok_of_bind htags
  split at htags
  · cases htags
  · rename_i hne
    cases htags
    exact ⟨isAllBlank_of_checkTag hfirst, isAllBlank_of_checkTag hsecond, hne,
      accepts_of_checkSuperclass hsuperclass, mem_modes_of_checkPatternMatch hmode⟩

/-- Where nothing escapes, settings are in order or one of them is refused. -/
theorem valid_or_refused (hescapes : ∀ e, ¬ Escapes (check table heap supplied) e) :
    (∃ c, check table heap supplied = .ok c ∧ c.IsValid) ∨
      ∃ cause, check table heap supplied = .error (.setting cause) := by
  cases hcheck : check table heap supplied with
  | ok c => exact .inl ⟨c, rfl, isValid_of_check hcheck⟩
  | error e =>
    refine .inr (by_contra fun hrefused ↦ hescapes e ⟨hcheck, fun cause he ↦ hrefused ⟨cause, ?_⟩⟩)
    rw [he]

end

/-! ### Variables of the process -/

section

variable {table : TypeTable} {heap : Heap} {e : Error} {c : Config} {paths : List String}

/-- A tuple of texts yields them. -/
theorem iterated_texts (heap : Heap) (paths : List String) :
    (Value.tuple (paths.map .text)).iterated heap = .ok (paths.map .text) := by
  have hsettled (depth : Nat) : settledEach heap depth (paths.map .text) = paths.map .text := by
    induction paths with
    | nil => simp [settledEach]
    | cons path rest ih => simp [settledEach, Value.settledWithin, ih]
  simp [Value.iterated, Heap.content, Value.settledWithin, hsettled]

theorem checkLoadPaths_texts (paths : List String) :
    checkLoadPaths table heap (.tuple (paths.map .text)) = .ok paths := by
  have hwritten : (paths.map Value.text).mapM (Value.written table heap) = .ok paths := by
    rw [Except.mapM_eq_ok_iff, List.forall₂_map_left_iff, List.forall₂_same]
    intro path _
    simp [Value.written]
  have htext : ¬ (Value.tuple (paths.map .text)).text?.isSome = true := by simp [Value.text?]
  unfold checkLoadPaths
  rw [if_neg htext, iterated_texts]
  exact hwritten

/-- Texts can be shown, looked for and gone through. -/
theorem not_escapes_check_texts (binding serialization superclass mode : String) (flag : Bool)
    (paths : List String) :
    ¬ Escapes (check table heap
      { bindingTag := .text binding, serializationTag := .text serialization
        superclass := .text superclass, patternMatch := .text mode
        autoSynthesize := .bool flag, loadPaths := .tuple (paths.map .text) }) e := by
  rw [escapes_check_iff]
  rintro ⟨tags, -, hshown | ⟨_, -, hsought | ⟨_, -, _, -, hpaths⟩⟩⟩
  · simp [Value.shown, Value.shownWithin] at hshown
  · simp [Value.soughtInSet, Value.countable, Value.countableWithin] at hsought
  · rw [checkLoadPaths_texts] at hpaths
    exact not_escapes_ok hpaths

theorem loadPaths_of_check {supplied : Supplied}
    (hpaths : supplied.loadPaths = .tuple (paths.map .text))
    (h : check table heap supplied = .ok c) : c.loadPaths = paths := by
  obtain ⟨-, -, -, -, hfound⟩ := ok_of_check h
  rw [hpaths, checkLoadPaths_texts] at hfound
  cases hfound
  rfl

end

/-- The paths that variables of the process name: what stands between the colons, unless that is
nothing. -/
def namedPaths (process : List (String × String)) : List String :=
  (((process.lookup "CLIPSBRIDGE_LOAD").getD "").splitOn ":").filter fun path ↦ !path.isEmpty

/-- A variable that is empty names no paths, as one that is missing. -/
theorem namedPaths_eq (process : List (String × String)) :
    (((process.lookup "CLIPSBRIDGE_LOAD").filter fun raw ↦ !raw.isEmpty).map fun raw ↦
      (raw.splitOn ":").filter fun path ↦ !path.isEmpty).getD [] = namedPaths process := by
  have hsplit : "".splitOn ":" = [""] := by
    unfold String.splitOn String.splitOnAux
    rfl
  have hempty : ("".splitOn ":").filter (fun path ↦ !path.isEmpty) = [] := by
    rw [hsplit]
    rfl
  unfold namedPaths
  cases process.lookup "CLIPSBRIDGE_LOAD" with
  | none => exact hempty.symm
  | some raw =>
    by_cases hraw : raw.isEmpty = true
    · rw [String.isEmpty_iff.mp hraw]
      exact hempty.symm
    · simp [Option.filter_some, hraw]

theorem refused_of_readTruth {source raw : String} {e : Error}
    (h : readTruth source raw = .error e) :
    ∃ cause, e = .setting cause := by
  unfold readTruth at h
  split at h <;> cases h
  exact ⟨_, rfl⟩

/-- Whatever the variables of the process are, settings that they give are in order and the paths
are those that are named, or one of the settings is refused. -/
theorem ofVariables_valid_or_refused (process : List (String × String)) :
    (∃ c, ofVariables process = .ok c ∧ c.IsValid ∧ c.loadPaths = namedPaths process) ∨
      ∃ cause, ofVariables process = .error (.setting cause) := by
  have hchecked (binding serialization superclass : String) (flag : Bool) :
      let found := check {} {}
        { bindingTag := .text binding, serializationTag := .text serialization
          superclass := .text superclass, autoSynthesize := .bool flag
          loadPaths := .tuple ((namedPaths process).map .text) }
      (∃ c, found = .ok c ∧ c.IsValid ∧ c.loadPaths = namedPaths process) ∨
        ∃ cause, found = .error (.setting cause) := by
    refine (valid_or_refused fun e ↦ not_escapes_check_texts _ _ _ _ _ _).imp_left ?_
    rintro ⟨c, hc, hvalid⟩
    exact ⟨c, hc, hvalid, loadPaths_of_check rfl hc⟩
  unfold ofVariables
  dsimp only
  rw [namedPaths_eq]
  split
  · rename_i raw _
    cases hflag : readTruth "CLIPSBRIDGE_AUTO_SYNTHESIZE" raw with
    | error e =>
      obtain ⟨cause, rfl⟩ := refused_of_readTruth hflag
      exact .inr ⟨cause, rfl⟩
    | ok flag => exact hchecked _ _ _ flag
  · exact hchecked _ _ _ true

/-! ### A role that cannot be looked for -/

/-- A mapping for the pattern-match role is not refused as a setting: it cannot be looked for in a
set. -/
theorem mapping_for_patternMatch :
    let allocated := Heap.alloc {} (.mapping [])
    check {} allocated.1 { patternMatch := .mapping allocated.2 } =
      .error (.host (.typing "unhashable type: 'dict'")) := by
  intro allocated
  have hsought : (Value.mapping allocated.2).soughtInSet {} allocated.1 =
      .error (.host (.typing "unhashable type: 'dict'")) := by
    simp [Value.soughtInSet, Value.countable, Value.countableWithin,
      Value.unhashable, Value.typeName]
  unfold check checkPatternMatch
  dsimp only
  rw [hsought]
  rfl

end Config

end RuleMarshal
