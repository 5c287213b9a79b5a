import Mathlib.Data.List.Forall2
import RuleMarshal.Environment.Lemmas
/-!
Results without a state. What is made in steps is refused in one of them. What a list is made into,
item by item, is made of its items, and each item has a share in it. A result that is at hand is
what a computation ends with, and it leaves the state as it was.
-/

set_option autoImplicit false
set_option relaxedAutoImplicit false

namespace RuleMarshal

namespace Except

variable {ε α β : Type} {f : α → Except ε β} {a : α} {b : β} {as : List α} {bs : List β}

/-- What is made in two steps is refused in the first, or in the second after the first. -/
theorem cases_of_bind_error {found : Except ε α} {e : ε} (hbind : (found >>= f) = .error e) :
    found = .error e ∨ ∃ a, found = .ok a ∧ f a = .error e := by
  cases found with
  | error raised =>
    cases hbind
    exact .inl rfl
  | ok a => exact .inr ⟨a, rfl, hbind⟩

/-- A result that is there is there before its errors are told in another way. -/
theorem ok_of_mapError {ε' : Type} {found : Except ε α} {tell : ε → ε'}
    (hfound : found.mapError tell = .ok a) :
    found = .ok a := by
  cases found with
  | error e => cases hfound
  | ok c =>
    cases hfound
    rfl

theorem ok_of_mapM_cons (hbs : (a :: as).mapM f = .ok bs) :
    ∃ b rest, f a = .ok b ∧ as.mapM f = .ok rest ∧ bs = b :: rest := by
  rw [List.mapM_cons] at hbs
  obtain ⟨b, hfirst, hmore⟩ := ok_of_bind hbs
  obtain ⟨rest, hrest, hreturn⟩ := ok_of_bind hmore
  cases hreturn
  exact ⟨b, rest, hfirst, hrest, rfl⟩

theorem exists_of_mem_mapM (hbs : as.mapM f = .ok bs) (hb : b ∈ bs) : ∃ a ∈ as, f a = .ok b := by
  induction as generalizing bs with
  | nil =>
    cases hbs
    cases hb
  | cons a rest ih =>
    obtain ⟨first, others, hfirst, hothers, rfl⟩ := ok_of_mapM_cons hbs
    obtain rfl | hb := List.mem_cons.mp hb
    · exact ⟨a, List.mem_cons_self, hfirst⟩
    · obtain ⟨c, hc, hmade⟩ := ih hothers hb
      exact ⟨c, List.mem_cons_of_mem _ hc, hmade⟩

theorem exists_mem_of_mapM (hbs : as.mapM f = .ok bs) (ha : a ∈ as) : ∃ b ∈ bs, f a = .ok b := by
  induction as generalizing bs with
  | nil => cases ha
  | cons c rest ih =>
    obtain ⟨first, others, hfirst, hothers, rfl⟩ := ok_of_mapM_cons hbs
    obtain rfl | ha := List.mem_cons.mp ha
    · exact ⟨first, List.mem_cons_self, hfirst⟩
    · obtain ⟨b, hb, hmade⟩ := ih hothers ha
      exact ⟨b, List.mem_cons_of_mem _ hb, hmade⟩

/-- What a list is made into is made of its items, place by place. -/
theorem mapM_eq_ok_iff : as.mapM f = .ok bs ↔ List.Forall₂ (fun a b ↦ f a = .ok b) as bs := by
  constructor
  · intro hbs
    induction as generalizing bs with
    | nil =>
      cases hbs
      exact .nil
    | cons a rest ih =>
      obtain ⟨b, others, hfirst, hothers, rfl⟩ := ok_of_mapM_cons hbs
      exact .cons hfirst (ih hothers)
  · intro hmade
    induction hmade with
    | nil => rfl
    | cons hfirst _ ih => rw [List.mapM_cons, hfirst, ih]; rfl

/-- A list is made into another, or one of its items cannot be made into anything, which refuses
all. -/
theorem mapM_ok_or_error (f : α → Except ε β) (as : List α) :
    (∃ bs, as.mapM f = .ok bs) ∨ ∃ a ∈ as, ∃ e, f a = .error e ∧ as.mapM f = .error e := by
  induction as with
  | nil => exact .inl ⟨[], rfl⟩
  | cons a rest ih =>
    cases hfirst : f a with
    | error e => exact .inr ⟨a, List.mem_cons_self, e, hfirst, by rw [List.mapM_cons, hfirst]; rfl⟩
    | ok b =>
      obtain ⟨others, hothers⟩ | ⟨c, hc, e, he, hrefused⟩ := ih
      · exact .inl ⟨b :: others, by rw [List.mapM_cons, hfirst, hothers]; rfl⟩
      · refine .inr ⟨c, List.mem_cons_of_mem _ hc, e, he, ?_⟩
        rw [List.mapM_cons, hfirst, hrefused]
        rfl

/-- A list is refused exactly if one of its items is, and all before it are made into something. -/
theorem mapM_eq_error_iff {e : ε} : as.mapM f = .error e ↔
    ∃ before a after, as = before ++ a :: after ∧ (∀ b ∈ before, ∃ c, f b = .ok c) ∧
      f a = .error e := by
  induction as with
  | nil =>
    refine ⟨nofun, ?_⟩
    rintro ⟨before, a, after, hnil, -⟩
    cases before <;> cases hnil
  | cons first rest ih =>
    rw [List.mapM_cons]
    constructor
    · intro herror
      obtain hfirst | ⟨b, hfirst, hmore⟩ := cases_of_bind_error herror
      · exact ⟨[], first, rest, rfl, nofun, hfirst⟩
      · obtain hrest | ⟨bs, -, hreturn⟩ := cases_of_bind_error hmore
        · obtain ⟨before, a, after, rfl, hbefore, ha⟩ := ih.mp hrest
          exact ⟨first :: before, a, after, rfl,
            List.forall_mem_cons.mpr ⟨⟨b, hfirst⟩, hbefore⟩, ha⟩
        · cases hreturn
    · rintro ⟨_ | ⟨b, before⟩, a, after, hsplit, hbefore, ha⟩
      · cases hsplit
        rw [ha]
        rfl
      · cases hsplit
        obtain ⟨⟨c, hc⟩, hbefore⟩ := List.forall_mem_cons.mp hbefore
        rw [hc, ih.mpr ⟨before, a, after, rfl, hbefore, ha⟩]
        rfl

/-- A list is made into another exactly if each of its items is made into something. -/
theorem exists_mapM_iff : (∃ bs, as.mapM f = .ok bs) ↔ ∀ a ∈ as, ∃ b, f a = .ok b := by
  constructor
  · rintro ⟨bs, hbs⟩ a ha
    obtain ⟨b, -, hb⟩ := exists_mem_of_mapM hbs ha
    exact ⟨b, hb⟩
  · intro hmade
    obtain hbs | ⟨a, ha, e, he, -⟩ := mapM_ok_or_error f as
    · exact hbs
    · obtain ⟨b, hb⟩ := hmade a ha
      rw [he] at hb
      cases hb

/-- What is made of a list, item by item, is there exactly if it is made of results for its
items. -/
theorem return_mapM_eq_ok_iff {γ : Type} {make : List β → γ} {c : γ} :
    (do return make (← as.mapM f)) = (.ok c : Except ε γ) ↔
      ∃ bs, c = make bs ∧ List.Forall₂ (fun a b ↦ f a = .ok b) as bs := by
  simp only [← mapM_eq_ok_iff]
  constructor
  · intro hmade
    obtain ⟨bs, hbs, hreturn⟩ := ok_of_bind hmade
    cases hreturn
    exact ⟨bs, rfl, hbs⟩
  · rintro ⟨bs, rfl, hbs⟩
    rw [hbs]
    rfl

end Except

theorem Act.runIn_ofExcept {α : Type} (found : Except Error α) (world : World) (s : State) :
    (MonadExcept.ofExcept found : Act α).runIn world s = (found, s) := by
  cases found <;> rfl

end RuleMarshal
