import RuleMarshal.Host.Shown
import RuleMarshal.Proofs.Computation.Result
/-!
Showing a value is a matter of the host program alone. It fails in one way only: an object lacks an
attribute that it would show (`Value.lacks_written`). That is an error, but none of this library's
(`Value.isForeign_written`).
-/

set_option autoImplicit false
set_option relaxedAutoImplicit false

namespace RuleMarshal

/-- A result whose error, if it is one, is that an object lacks an attribute. -/
def AtMostLacks {α : Type} (found : Except Error α) : Prop :=
  ∀ e, found = .error e → ∃ lacking, e = .host (.noAttribute lacking)

namespace AtMostLacks

variable {α β : Type}

theorem ok (a : α) : AtMostLacks (.ok a) := nofun

theorem bind {found : Except Error α} {next : α → Except Error β} (hfound : AtMostLacks found)
    (hnext : ∀ a, AtMostLacks (next a)) : AtMostLacks (found >>= next) := by
  intro e he
  obtain hfirst | ⟨a, -, hsecond⟩ := Except.cases_of_bind_error he
  · exact hfound e hfirst
  · exact hnext a e hsecond

theorem mapM {f : α → Except Error β} (items : List α) (hf : ∀ a, AtMostLacks (f a)) :
    AtMostLacks (items.mapM f) := by
  induction items with
  | nil => exact ok _
  | cons a rest ih =>
    rw [List.mapM_cons]
    exact (hf a).bind fun _ ↦ ih.bind fun _ ↦ ok _

end AtMostLacks

theorem TypeTable.lacks_shownAttrs (table : TypeTable) (struct : String)
    (attrs : List (String × Value)) :
    AtMostLacks (table.shownAttrs struct attrs) := by
  unfold shownAttrs
  split
  · split
    · refine .mapM _ fun f ↦ ?_
      split
      · exact .ok _
      · rintro _ ⟨⟩
        exact ⟨_, rfl⟩
    · exact .ok _
  · exact .ok _

section

variable (table : TypeTable) (heap : Heap)

mutual

theorem Value.lacks_shownWithin (depth : Nat) (around : List Nat) (v : Value) :
    AtMostLacks (v.shownWithin table heap depth around) := by
  cases v with
  | list items =>
    unfold Value.shownWithin
    exact .bind (lacks_shownEach depth around items) fun _ ↦ .ok _
  | tuple items =>
    unfold Value.shownWithin
    exact .bind (lacks_shownEach depth around items) fun _ ↦ .ok _
  | held id =>
    unfold Value.shownWithin
    cases depth with
    | zero => exact .ok _
    | succ depth => exact Value.lacks_shownWithin depth around _
  | mapping id =>
    unfold Value.shownWithin
    cases depth with
    | zero => exact .ok _
    | succ depth =>
      dsimp only
      split
      · exact .ok _
      · exact .bind (lacks_shownEntries depth _ _) fun _ ↦ .ok _
  | object struct id =>
    unfold Value.shownWithin
    cases depth with
    | zero => exact .ok _
    | succ depth =>
      dsimp only
      split
      · exact .ok _
      · have hattrs := table.lacks_shownAttrs struct (heap.attrs id)
        cases hfound : table.shownAttrs struct (heap.attrs id) with
        | ok attrs => exact .bind (lacks_shownAttrs depth _ attrs) fun _ ↦ .ok _
        | error e =>
          rintro _ ⟨rfl⟩
          exact hattrs e hfound
  | stranger kind =>
    cases kind <;> (unfold Value.shownWithin; exact .ok _)
  | _ =>
    unfold Value.shownWithin
    exact .ok _
termination_by (depth, sizeOf v)

theorem lacks_shownEach (depth : Nat) (around : List Nat) (vs : List Value) :
    AtMostLacks (shownEach table heap depth around vs) := by
  cases vs with
  | nil =>
    unfold shownEach
    exact .ok _
  | cons v rest =>
    unfold shownEach
    exact .bind (Value.lacks_shownWithin depth around v) fun _ ↦
      .bind (lacks_shownEach depth around rest) fun _ ↦ .ok _
termination_by (depth, sizeOf vs)

theorem lacks_shownEntries (depth : Nat) (around : List Nat) (es : List (Value × Value)) :
    AtMostLacks (shownEntries table heap depth around es) := by
  cases es with
  | nil =>
    unfold shownEntries
    exact .ok _
  | cons e rest =>
    obtain ⟨k, v⟩ := e
    unfold shownEntries
    exact .bind (Value.lacks_shownWithin depth around k) fun _ ↦
      .bind (Value.lacks_shownWithin depth around v) fun _ ↦
        .bind (lacks_shownEntries depth around rest) fun _ ↦ .ok _
termination_by (depth, sizeOf es)

theorem lacks_shownAttrs (depth : Nat) (around : List Nat) (attrs : List (String × Value)) :
    AtMostLacks (shownAttrs table heap depth around attrs) := by
  cases attrs with
  | nil =>
    unfold shownAttrs
    exact .ok _
  | cons attr rest =>
    obtain ⟨name, v⟩ := attr
    unfold shownAttrs
    exact .bind (Value.lacks_shownWithin depth around v) fun _ ↦
      .bind (lacks_shownAttrs depth around rest) fun _ ↦ .ok _
termination_by (depth, sizeOf attrs)

end

theorem Value.lacks_written (v : Value) : AtMostLacks (v.written table heap) := by
  unfold written
  split
  · exact .ok _
  · exact .ok _
  · exact .ok _
  · exact .ok _
  · split
    · exact .bind (table.lacks_shownAttrs _ _) fun attrs ↦
        .bind (RuleMarshal.lacks_shownAttrs table heap _ _ attrs) fun _ ↦ .ok _
    · exact Value.lacks_shownWithin table heap _ _ _
  · exact Value.lacks_shownWithin table heap _ _ _

/-- An object that lacks an attribute cannot be written. -/
theorem Value.written_of_lacking {struct : String} {id : Nat} {e : Error}
    (hlacking : table.shownAttrs struct (heap.attrs id) = .error e) :
    (Value.object struct id).written table heap = .error e := by
  unfold written
  rw [Heap.content_object]
  dsimp only
  split
  · rw [hlacking]
    rfl
  · unfold shown shownWithin
    dsimp only
    rw [if_neg nofun, hlacking]

theorem Value.isForeign_written {v : Value} {e : Error} (he : v.written table heap = .error e) :
    e.isOwn = false := by
  obtain ⟨lacking, rfl⟩ := v.lacks_written table heap e he
  rfl

end

end RuleMarshal
