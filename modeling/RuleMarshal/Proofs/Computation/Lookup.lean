import RuleMarshal.Host.Heap
/-!
Entries of lists by their keys: what is found when only the entries of some keys are kept, what an
entry makes its key find where no key occurs twice, and that putting a value for a name keeps it so.
Where values are put for names one after the other, each name keeps its first place (`keys_putEach`)
and stands for its last value (`lookup_putEach`).
-/

set_option autoImplicit false
set_option relaxedAutoImplicit false

namespace RuleMarshal

/-- What a list of entries has for a key when only the entries of some keys are kept. -/
theorem lookup_filter {κ α : Type} [BEq κ] [LawfulBEq κ] (keeps : κ → Bool) (entries : List (κ × α))
    (key : κ) :
    (entries.filter fun p ↦ keeps p.1).lookup key = if keeps key
      then entries.lookup key else none := by
  induction entries with
  | nil => simp
  | cons p rest ih =>
    obtain ⟨other, a⟩ := p
    by_cases hkey : key == other
    · obtain rfl := eq_of_beq hkey
      by_cases hkeeps : keeps key
      · simp [hkeeps]
      · simpa [hkeeps] using ih
    · by_cases hkeeps : keeps other
      · simp [List.lookup_cons, hkeeps, hkey, ih]
      · simp [List.lookup_cons, hkeeps, hkey, ih]

theorem mem_of_lookup {κ α : Type} [BEq κ] [LawfulBEq κ] {entries : List (κ × α)} {key : κ} {v : α}
    (hfound : entries.lookup key = some v) : (key, v) ∈ entries := by
  obtain ⟨first, rest, rfl, -⟩ := List.lookup_eq_some_iff.mp hfound
  simp

theorem lookup_of_mem_of_nodup {κ α : Type} [BEq κ] [LawfulBEq κ] {entries : List (κ × α)} {key : κ}
    {v : α} (hkeys : (entries.map (·.1)).Nodup) (hmem : (key, v) ∈ entries) :
    entries.lookup key = some v := by
  induction entries with
  | nil => simp at hmem
  | cons p rest ih =>
    obtain ⟨first, held⟩ := p
    rw [List.map_cons, List.nodup_cons] at hkeys
    rcases List.mem_cons.mp hmem with heq | hrest
    · cases heq
      exact List.lookup_cons_self
    · have hne : key ≠ first := by
        rintro rfl
        exact hkeys.1 (List.mem_map.mpr ⟨_, hrest, rfl⟩)
      have hfalse : (key == first) = false := by simpa using hne
      rw [List.lookup_cons, hfalse]
      exact ih hkeys.2 hrest

theorem keys_putNamed {α : Type} (named : List (String × α)) (name : String) (v : α) :
    (putNamed named name v).map (·.1) =
      if name ∈ named.map (·.1) then named.map (·.1) else named.map (·.1) ++ [name] := by
  induction named with
  | nil => rfl
  | cons p rest ih =>
    unfold putNamed
    by_cases hname : p.1 = name
    · simp [hname]
    · simp only [if_neg hname, List.map_cons, ih, List.mem_cons, Ne.symm hname, false_or]
      split <;> rfl

/-- A new name comes last. -/
theorem putNamed_of_notMem {α : Type} {named : List (String × α)} {name : String}
    (hnew : name ∉ named.map (·.1)) (v : α) : putNamed named name v = named ++ [(name, v)] := by
  induction named with
  | nil => rfl
  | cons p rest ih =>
    rw [List.map_cons, List.mem_cons, not_or] at hnew
    rw [putNamed, if_neg (Ne.symm hnew.1), ih hnew.2]
    rfl

theorem nodup_putNamed {α : Type} {named : List (String × α)} (hkeys : (named.map (·.1)).Nodup)
    (name : String) (v : α) : ((putNamed named name v).map (·.1)).Nodup := by
  rw [keys_putNamed]
  split
  · exact hkeys
  · rename_i hnew
    rw [List.nodup_append]
    refine ⟨hkeys, by simp, fun a ha b hb hab ↦ ?_⟩
    obtain rfl := List.mem_singleton.mp hb
    exact hnew (hab ▸ ha)

/-! ### Many values -/

/-- Values put for names one after the other. -/
def putEach {α : Type} (named entries : List (String × α)) : List (String × α) :=
  entries.foldl (fun named p ↦ putNamed named p.1 p.2) named

theorem putEach_concat {α : Type} (named entries : List (String × α)) (p : String × α) :
    putEach named (entries ++ [p]) = putNamed (putEach named entries) p.1 p.2 := by
  simp [putEach]

theorem putEach_append {α : Type} (named entries more : List (String × α)) :
    putEach named (entries ++ more) = putEach (putEach named entries) more :=
  List.foldl_append

/-- Each name is there once, in the order in which they first came. -/
theorem keys_putEach {α : Type} (entries : List (String × α)) :
    (putEach [] entries).map (·.1) = (entries.map (·.1)).eraseDups := by
  suffices hreverse : ∀ later : List (String × α),
      (putEach [] later.reverse).map (·.1) = (later.reverse.map (·.1)).eraseDups by
    simpa using hreverse entries.reverse
  intro later
  induction later with
  | nil => rfl
  | cons p rest ih =>
    rw [List.reverse_cons, putEach_concat, keys_putNamed, ih, List.map_append,
      List.eraseDups_append, List.map_singleton]
    simp only [List.mem_eraseDups]
    by_cases hname : p.1 ∈ rest.reverse.map (·.1)
    · rw [if_pos hname, List.removeAll, List.filter_cons_of_neg (by simpa using hname)]
      simp
    · rw [if_neg hname, List.removeAll, List.filter_cons_of_pos (by simpa using hname)]
      simp [List.eraseDups_cons]

/-- What stands for a name is what came for it last. -/
theorem lookup_putEach {α : Type} (entries : List (String × α)) (name : String) :
    (putEach [] entries).lookup name = entries.reverse.lookup name := by
  suffices hreverse : ∀ later : List (String × α),
      (putEach [] later.reverse).lookup name = later.lookup name by
    simpa using hreverse entries.reverse
  intro later
  induction later with
  | nil => rfl
  | cons p rest ih =>
    rw [List.reverse_cons, putEach_concat]
    by_cases hname : name = p.1
    · subst hname
      rw [lookup_putNamed_self, List.lookup_cons_self]
    · rw [lookup_putNamed_ne _ _ hname, ih, List.lookup_cons, beq_false_of_ne hname]

end RuleMarshal
