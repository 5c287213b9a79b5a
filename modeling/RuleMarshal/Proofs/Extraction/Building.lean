import RuleMarshal.Proofs.Environment.Transfer
import RuleMarshal.Proofs.Extraction.Passage
/-!
New objects within an extraction. Reading what fields hold at first makes cells and fills the
objects in them (`Builds`), so a new object is in a cell of its own, and nothing that was there
before has changed (`yields_blank`).
-/

set_option autoImplicit false
set_option relaxedAutoImplicit false

namespace RuleMarshal

open Act

/-- What making cells, and filling objects in cells from a number on, leads to. -/
structure Grown (first : Nat) (s t : State) : Prop where
  size : s.heap.cells.size ≤ t.heap.cells.size
  cells : ∀ id < first, t.heap.get? id = s.heap.get? id
  objects : ∀ id attrs, s.heap.get? id = some (.object attrs) →
    ∃ after, t.heap.get? id = some (.object after)
  visited : t.visited = s.visited
  history : t.history = s.history

/-- States between which cells were made, and objects filled in cells from a number on. -/
def Builds (first : Nat) (s t : State) : Prop := first ≤ s.heap.cells.size → Grown first s t

section

variable {world : World} {first : Nat} {s t : State}

instance Builds.isPreorder : IsPreorder State (Builds first) where
  refl _ _ := ⟨Nat.le_refl _, fun _ _ ↦ rfl, fun _ attrs hget ↦ ⟨attrs, hget⟩, rfl, rfl⟩
  trans s t u hst htu hfirst := by
    have hgrown := hst hfirst
    have hlater := htu (Nat.le_trans hfirst hgrown.size)
    refine ⟨Nat.le_trans hgrown.size hlater.size,
      fun id hid ↦ (hlater.cells id hid).trans (hgrown.cells id hid), fun id attrs hget ↦ ?_,
      hlater.visited.trans hgrown.visited, hlater.history.trans hgrown.history⟩
    obtain ⟨after, hafter⟩ := hgrown.objects id attrs hget
    exact hlater.objects id after hafter

theorem Builds.alloc (cell : Cell) (s : State) :
    Builds first s { s with heap := (s.heap.alloc cell).1 } := by
  intro hfirst
  refine ⟨by simp [Heap.alloc], fun id hid ↦ ?_, fun id attrs hget ↦ ⟨attrs, ?_⟩, rfl, rfl⟩
  · exact s.heap.get?_alloc_of_lt cell (Nat.lt_of_lt_of_le hid hfirst)
  · have hid : id < s.heap.cells.size := (Array.getElem?_eq_some_iff.mp hget).1
    rw [← hget]
    exact s.heap.get?_alloc_of_lt cell hid

theorem Builds.fill {id : Nat} (hid : first ≤ id) (attrs : List (String × Value)) (s : State) :
    Builds first s { s with heap := s.heap.put id (.object attrs) } := by
  intro hfirst
  refine ⟨by simp [Heap.put], fun other hother ↦ ?_, fun other held hget ↦ ?_, rfl, rfl⟩
  · exact s.heap.get?_put_ne _ (by omega)
  · by_cases heq : id = other
    · subst heq
      exact ⟨attrs, s.heap.get?_put_self _ (Array.getElem?_eq_some_iff.mp hget).1⟩
    · exact ⟨held, by rw [s.heap.get?_put_ne _ heq, hget]⟩

theorem Builds.building : Building world (Builds first) (first ≤ ·) where
  labels _ _ _ _ := ⟨Nat.le_refl _, fun _ _ ↦ rfl, fun _ attrs hget ↦ ⟨attrs, hget⟩, rfl, rfl⟩
  alloc cell next hnext s hfirst := by
    have hgrown := Builds.alloc cell s hfirst
    exact trans_of (Builds first) (Builds.alloc cell s) (hnext s.heap.cells.size hfirst _) hfirst
  fill hid attrs s := Builds.fill hid attrs s

/-! ### New objects -/

/-- A new object is in a cell that is an object's and was not there before. -/
theorem ok_of_filled {struct : String} {fields : List Field} {initial : Field → Act Value}
    {o : Value} (hinitial : ∀ f ∈ fields, (initial f).Keeps (Builds 0) world)
    (hrun : (blank.filled fields struct initial).runIn world s = (.ok o, t)) :
    ∃ id attrs, o = .object struct id ∧ s.heap.cells.size ≤ id ∧
      t.heap.get? id = some (.object attrs) := by
  obtain ⟨id, u, halloc, hfill⟩ := ok_of_bind hrun
  obtain ⟨⟨⟩, w, hfields, hreturn⟩ := ok_of_bind hfill
  cases halloc
  cases hreturn
  have hkept : Act.Keeps (Builds 0) world (fields.forM fun f ↦ do
      assign (.object struct (s.heap.alloc (.object [])).2) f.attr (← initial f)) :=
    .forM fields fun f hf ↦ (hinitial f hf).bind fun v ↦
      Builds.building.keeps_assign (Nat.zero_le _) struct f.attr v
  obtain ⟨attrs, hget⟩ := (hkept.of_runIn hfields (Nat.zero_le _)).objects _ []
    (s.heap.get?_alloc_self (.object []))
  exact ⟨_, attrs, rfl, Nat.le_refl _, hget⟩

theorem ok_of_blank {dest : Hint} {fields : List Field} {o : Value}
    (hrun : (blank dest fields).runIn world s = (.ok o, t)) :
    ∃ struct id attrs, o = .object struct id ∧ (∀ name, dest = .struct name → struct = name) ∧
      s.heap.cells.size ≤ id ∧ t.heap.get? id = some (.object attrs) := by
  have hinitial : ∀ f : Field, Act.Keeps (Builds 0) world (do
      (← MonadExcept.ofExcept f.initial : Initial).value : Act Value) :=
    fun f ↦ .bind (.ofExcept _) fun initial ↦ initial.keeps_value Builds.building
  have hfilled : ∀ struct, (∀ name, dest = .struct name → struct = name) →
      (blank.filled fields struct fun f ↦ do
        (← MonadExcept.ofExcept f.initial : Initial).value).runIn world s = (.ok o, t) →
      ∃ struct id attrs, o = .object struct id ∧ (∀ name, dest = .struct name → struct = name) ∧
        s.heap.cells.size ≤ id ∧ t.heap.get? id = some (.object attrs) := by
    intro struct hstruct hfilled
    obtain ⟨id, attrs, rfl, hid, hget⟩ := ok_of_filled (fun f _ ↦ hinitial f) hfilled
    exact ⟨struct, id, attrs, rfl, hstruct, hid, hget⟩
  obtain ⟨w, u, hread, hblank⟩ := ok_of_bind hrun
  cases hread
  dsimp only at hblank
  split at hblank
  · rename_i name
    have hname : ∀ other, Hint.struct name = .struct other → name = other := fun other heq ↦ by
      cases heq
      rfl
    split at hblank
    · split at hblank
      · obtain ⟨supplied, u, hsupplied, hrest⟩ := ok_of_bind hblank
        obtain ⟨id, v, halloc, hfill⟩ := ok_of_bind hrest
        obtain ⟨⟨⟩, x, hmodel, hreturn⟩ := ok_of_bind hfill
        cases halloc
        cases hreturn
        have hread : Act.Keeps (Builds 0) world (fields.mapM fun f ↦ do
            return (f.attr, ←
              (do (← MonadExcept.ofExcept f.initial : Initial).value : Act Value))) :=
          .mapM fields fun f _ ↦ (hinitial f).bind fun _ ↦ .pure _
        have hsize := (hread.of_runIn hsupplied (Nat.zero_le _)).size
        have hkept : ∀ declared given, (fillModel (.object name (u.heap.alloc (.object [])).2)
            declared given).Keeps (Builds 0) world :=
          keeps_fillModel Builds.building (Nat.zero_le _) name
        obtain ⟨attrs, hget⟩ := ((hkept _ _).of_runIn hmodel (Nat.zero_le _)).objects _ []
          (u.heap.get?_alloc_self (.object []))
        exact ⟨name, _, attrs, rfl, hname, hsize, hget⟩
      · exact hfilled name hname hblank
    · exact hfilled name hname hblank
  · rename_i hother
    exact hfilled _ (fun name heq ↦ absurd heq (hother name)) hblank

/-- What a new object changes is no part of what was there before. -/
theorem yields_blank {store : Store} (hs : Underway world store s) (dest : Hint)
    (fields : List Field) :
    Yields world (Prepares world store s)
      (fun o t ↦ ∃ struct id attrs, o = .object struct id ∧
        (∀ name, dest = .struct name → struct = name) ∧ s.heap.cells.size ≤ id ∧
        t.heap.get? id = some (.object attrs)) (blank dest fields) (blank dest fields) s := by
  refine .of_runIn (fun answer t hrun ↦ ?_) fun o t ↦ ok_of_blank
  have hkept : (blank dest fields).Keeps (Builds s.heap.cells.size) world :=
    keeps_blank Builds.building dest fields
  have hgrown := hkept.of_runIn hrun (Nat.le_refl _)
  exact ⟨.of_building hs hgrown.size hgrown.cells hgrown.visited hgrown.history, hgrown.visited⟩

end

/-! ### Objects of struct types -/

theorem TypeTable.find?_isSome_of_isStruct {table : TypeTable} {struct : String}
    (hstruct : table.isStruct (.struct struct) = true) : (table.find? struct).isSome := by
  unfold isStruct at hstruct
  dsimp only at hstruct
  cases hfound : table.find? struct with
  | none => simp [hfound] at hstruct
  | some t => rfl

/-- An object of a struct type stays what it is once it is filled. -/
theorem runIn_asEngineValue {world : World} {struct : String} {id : Nat} {s : State}
    (hstruct : world.types.isStruct (.struct struct) = true) :
    (asEngineValue (.object struct id)).runIn world s = (.ok (.object struct id), s) := by
  unfold asEngineValue
  dsimp only
  rw [runIn_bind_of_ok (runIn_read world s), if_pos (TypeTable.find?_isSome_of_isStruct hstruct)]
  rfl

end RuleMarshal
