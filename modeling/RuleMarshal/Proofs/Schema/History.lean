import RuleMarshal.Proofs.Schema.Reflection
/-!
Reflections one after the other. Every reflection, also one that fails, leaves the memory settled
(`Memo.Settled.after_reflect`), and as long as they succeed they leave it complete, with all that
its types refer to (`Memo.Complete.after_reflect`). A type that reaches none without a schema is
reflected in every settled memory (`reflect_of_buildable`), so what a new memory finds is found
after any reflections, also failed ones (`reflect_after_of_new`), and after reflections that all
succeeded nothing else is found (`AllReflected.reflect_iff_new`).

It is not so after failures. A reflection that fails inside a cycle forgets the types that it has
begun and keeps those that it has done with, and these pass for reflected from then on
(`reflected_after_failure`).
-/

set_option autoImplicit false
set_option relaxedAutoImplicit false

namespace RuleMarshal

variable {table : TypeTable} {tags : Tags} {memo : Memo} {h g : Hint} {a : HintAtom}
variable {schema : ClassSchema}

/-! ### Reflections one after the other -/

namespace Memo

/-- What is remembered once some types were reflected, one after the other, whatever came of it. -/
def afterReflecting (table : TypeTable) (tags : Tags) (history : List Hint) : Memo :=
  history.foldl (fun memo h ↦ ((reflect table tags h).run memo).2) {}

/-- A memory as reflections leave it: with the schemas of struct types that can be built alone, and
nothing in progress. -/
structure Settled (table : TypeTable) (tags : Tags) (memo : Memo) : Prop where
  agrees : ({} : Memo).Agrees table tags memo
  keys : ∀ p ∈ memo.schemas, ∃ a, p.1 = .atom a
  idle : ∀ a, .atom a ∉ memo.inProgress

/-- Whether all that is remembered refers to what is remembered. -/
def Complete (table : TypeTable) (tags : Tags) (memo : Memo) : Prop :=
  ∀ a b, memo.Knows (.atom a) → table.Refers tags (.atom a) (.atom b) → memo.Knows (.atom b)

theorem settled_empty : ({} : Memo).Settled table tags :=
  ⟨fun _ ↦ rfl, nofun, fun _ ↦ List.not_mem_nil⟩

theorem not_knows_empty : ¬({} : Memo).Knows h := nofun

theorem complete_empty : ({} : Memo).Complete table tags :=
  fun _ _ hknows ↦ absurd hknows not_knows_empty

theorem Settled.buildable (hsettled : memo.Settled table tags) (hknows : memo.Knows (.atom a)) :
    table.Buildable tags (.atom a) := by
  obtain ⟨schema, hfound⟩ := Option.isSome_iff_exists.mp hknows
  have hsame : memo.schema? table tags (.atom a) = (buildSchema table tags (.atom a)).toOption :=
    hsettled.agrees a
  rw [schema?, hfound] at hsame
  cases hbuilt : buildSchema table tags (.atom a) with
  | error e => rw [hbuilt] at hsame; cases hsame
  | ok built => exact ⟨built, hbuilt⟩

theorem Settled.leaves (hsettled : memo.Settled table tags) (h : Hint) :
    memo.Leaves table tags [h] ((reflect table tags h).run memo) :=
  reflectWithin_leaves (lt_of_le_of_lt card_unbegun_le (by omega)) fun a _ ↦ hsettled.idle a

theorem Settled.after_reflect (hsettled : memo.Settled table tags) (h : Hint) :
    ((reflect table tags h).run memo).2.Settled table tags where
  agrees := hsettled.agrees.trans (agrees_reflect h memo)
  keys := by
    refine reflectWithin_keeps (P := fun m ↦ ∀ p ∈ m.schemas, ∃ a, p.1 = .atom a) (fun _ _ hm ↦ hm)
      (fun _ _ hm ↦ hm) (fun _ _ hm p hp ↦ hm p (List.mem_filter.mp hp).1)
      (fun m g built hbuilt hm p hp ↦ ?_) hsettled.keys
    obtain rfl | hp := List.mem_cons.mp hp
    · exact (mem_structs_of_buildSchema hbuilt).imp fun _ ha ↦ ha.2
    · exact hm p hp
  idle a hmem := hsettled.idle a (((hsettled.leaves h).inProgress a).mp hmem)

theorem afterReflecting_concat (history : List Hint) (h : Hint) :
    afterReflecting table tags (history ++ [h]) =
      ((reflect table tags h).run (afterReflecting table tags history)).2 := by
  unfold afterReflecting
  rw [List.foldl_append]
  rfl

theorem settled_afterReflecting (history : List Hint) :
    (afterReflecting table tags history).Settled table tags := by
  induction history using List.reverseRecOn with
  | nil => exact settled_empty
  | append_singleton history h ih =>
    rw [afterReflecting_concat]
    exact ih.after_reflect h

/-- What succeeds leaves no gaps where there were none. -/
theorem Complete.after_reflect (hcomplete : memo.Complete table tags)
    (hsettled : memo.Settled table tags) (hok : ((reflect table tags h).run memo).1 = .ok schema) :
    ((reflect table tags h).run memo).2.Complete table tags := by
  have hcovers := (hsettled.leaves h).covers schema hok
  intro a b hknows hrefers
  by_cases hbefore : memo.Knows (.atom a)
  · exact hcovers.kept b (hcomplete a b hbefore hrefers)
  · exact (hcovers.closed a b hknows hbefore hrefers).resolve_right (hsettled.idle b)

/-- What is reached from what is remembered is remembered, where there are no gaps. -/
theorem Complete.knows_of_reaches (hcomplete : memo.Complete table tags)
    (hknows : memo.Knows (.atom a)) (hreaches : table.Reaches tags (.atom a) g) :
    ∃ b, g = .atom b ∧ memo.Knows (.atom b) := by
  induction hreaches with
  | refl => exact ⟨a, rfl, hknows⟩
  | tail _ hrefers ih =>
    obtain ⟨b, rfl, hb⟩ := ih
    obtain ⟨c, -, rfl⟩ := hrefers.exists_atom
    exact ⟨c, rfl, hcomplete b c hb hrefers⟩

end Memo

/-- What is reflected is found to have the schema that can be built. -/
theorem Memo.Settled.buildSchema_of_reflect (hsettled : memo.Settled table tags)
    (hok : ((reflect table tags h).run memo).1 = .ok schema) :
    buildSchema table tags h = .ok schema := by
  have hfound := schema?_of_reflect hok
  by_cases hknows : memo.Knows h
  · have hkey := hknows
    rw [Knows, find?, Option.isSome_map, List.find?_isSome] at hkey
    obtain ⟨p, hp, hsame⟩ := hkey
    obtain ⟨a, ha⟩ := hsettled.keys p hp
    rw [ha] at hsame
    obtain rfl := Hint.atom_same.mp hsame
    exact hsettled.agrees.buildSchema_eq hfound
  · rw [schema?, Option.not_isSome_iff_eq_none.mp hknows, Option.none_or] at hfound
    exact Except.ok_of_toOption hfound

/-- A type of which all that it reaches has a schema is reflected, whatever was reflected before. -/
theorem reflect_of_buildable (hsettled : memo.Settled table tags)
    (hall : ∀ g, table.Reaches tags h g → table.Buildable tags g) :
    ((reflect table tags h).run memo).1 = buildSchema table tags h := by
  cases hrun : ((reflect table tags h).run memo).1 with
  | error e =>
    obtain ⟨root, hroot, g, hreaches, hfailed⟩ := (hsettled.leaves h).fails e hrun
    exact absurd (hall g (List.mem_singleton.mp hroot ▸ hreaches)) hfailed
  | ok schema => exact (hsettled.buildSchema_of_reflect hrun).symm

/-- With no gaps in the memory, what is reflected reaches nothing without a schema. -/
theorem Memo.Complete.buildable_of_reaches (hcomplete : memo.Complete table tags)
    (hsettled : memo.Settled table tags) (hok : ((reflect table tags h).run memo).1 = .ok schema)
    (hreaches : table.Reaches tags h g) : table.Buildable tags g := by
  obtain ⟨a, -, rfl⟩ := mem_structs_of_buildSchema (hsettled.buildSchema_of_reflect hok)
  have hself : ((reflect table tags (.atom a)).run memo).2.Knows (.atom a) :=
    (((hsettled.leaves (.atom a)).covers schema hok).root a List.mem_cons_self).resolve_right
      (hsettled.idle a)
  obtain ⟨b, rfl, hknows⟩ := (hcomplete.after_reflect hsettled hok).knows_of_reaches hself hreaches
  exact (hsettled.after_reflect (.atom a)).buildable hknows

/-- What a new memory reflects is reflected, to the same schema, after any reflections, also failed
ones. -/
theorem reflect_after_of_new (history : List Hint)
    (hnew : ((reflect table tags h).run {}).1 = .ok schema) :
    ((reflect table tags h).run (Memo.afterReflecting table tags history)).1 = .ok schema := by
  rw [reflect_of_buildable (Memo.settled_afterReflecting history) fun g hreaches ↦
    Memo.complete_empty.buildable_of_reaches Memo.settled_empty hnew hreaches]
  exact Memo.settled_empty.buildSchema_of_reflect hnew

/-- Whether each of some reflections succeeded, one after the other. -/
def AllReflected (table : TypeTable) (tags : Tags) (history : List Hint) : Prop :=
  ∀ before h later, history = before ++ h :: later →
    ∃ schema, ((reflect table tags h).run (Memo.afterReflecting table tags before)).1 = .ok schema

/-- Reflections that succeed leave no gaps. -/
theorem AllReflected.complete {history : List Hint} (hall : AllReflected table tags history) :
    (Memo.afterReflecting table tags history).Complete table tags := by
  induction history using List.reverseRecOn with
  | nil => exact Memo.complete_empty
  | append_singleton history h ih =>
    obtain ⟨schema, hok⟩ := hall history h [] rfl
    have hbefore : AllReflected table tags history := fun before g later heq ↦
      hall before g (later ++ [h]) (by rw [heq, List.append_assoc, List.cons_append])
    rw [Memo.afterReflecting_concat]
    exact (ih hbefore).after_reflect (Memo.settled_afterReflecting history) hok

/-- After reflections that all succeeded, a type is reflected exactly if a new memory reflects it,
and to the same schema. -/
theorem AllReflected.reflect_iff_new {history : List Hint}
    (hall : AllReflected table tags history) :
    ((reflect table tags h).run (Memo.afterReflecting table tags history)).1 = .ok schema ↔
      ((reflect table tags h).run {}).1 = .ok schema := by
  refine ⟨fun hok ↦ ?_, reflect_after_of_new history⟩
  have hsettled : (Memo.afterReflecting table tags history).Settled table tags :=
    Memo.settled_afterReflecting history
  rw [reflect_of_buildable Memo.settled_empty fun g ↦
    hall.complete.buildable_of_reaches hsettled hok]
  exact hsettled.buildSchema_of_reflect hok

/-! ### A failure inside a cycle -/

/-- Two types that refer to each other, and one of them also to a type that has no schema. -/
def knotTypes : TypeTable where
  types :=
    [{ name := "First", kind := .described,
       fields := [{ attr := "second", hint := .struct "Second" },
         { attr := "nested", hint := .struct "Nested" }] },
     { name := "Second", kind := .described,
       fields := [{ attr := "first", hint := .struct "First" }] },
     { name := "Nested", kind := .described,
       fields := [{ attr := "rows", hint := .listOf (.listOf (.int .unsized)) }] }]

/-- The field that an answer refuses for its nested sequences. -/
def nestedRefused? : Except Error ClassSchema → Option (String × String)
  | .error (.unsupported (.nestedSequence owner field)) => some (owner, field)
  | _ => none

theorem eq_error_of_nestedRefused? {answer : Except Error ClassSchema} {owner field : String}
    (hrefused : nestedRefused? answer = some (owner, field)) :
    answer = .error (.unsupported (.nestedSequence owner field)) := by
  unfold nestedRefused? at hrefused
  split at hrefused
  · cases hrefused
    rfl
  · cases hrefused

/-- A type that a new memory does not reflect is reflected where another one of its cycle failed
before: it is still remembered, and what it refers to is not. -/
theorem reflected_after_failure :
    let memo := Memo.afterReflecting knotTypes {} [.struct "First"]
    let failure := Error.unsupported (.nestedSequence "Nested" "rows")
    ((reflect knotTypes {} (.struct "First")).run {}).1 = .error failure ∧
      ((reflect knotTypes {} (.struct "Second")).run {}).1 = .error failure ∧
      (∃ schema, ((reflect knotTypes {} (.struct "Second")).run memo).1 = .ok schema) ∧
      knotTypes.Refers {} (.struct "Second") (.struct "First") ∧
      memo.Knows (.struct "Second") ∧ ¬memo.Knows (.struct "First") := by
  intro memo failure
  have hfirst : (memo.find? (.struct "First")).isSome = false := by decide +kernel
  have hsecond : (memo.find? (.struct "Second")).isSome = true := by decide +kernel
  obtain ⟨schema, hfound⟩ := Option.isSome_iff_exists.mp hsecond
  have hreflected : ((reflect knotTypes {} (.struct "Second")).run memo).1 = .ok schema := by
    unfold reflect
    rw [run_reflectWithin_succ, hfound]
  exact ⟨eq_error_of_nestedRefused? (by decide +kernel),
    eq_error_of_nestedRefused? (by decide +kernel),
    ⟨schema, hreflected⟩, ⟨_, rfl, List.mem_cons_self⟩, hsecond, by simp [Memo.Knows, hfirst]⟩

end RuleMarshal
