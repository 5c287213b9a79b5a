import RuleMarshal.Proofs.Convert.Resolution
import RuleMarshal.Proofs.Extraction.Passage
/-!
Conversions within an extraction. Where a resolver makes values that show what they come from, a
conversion does so for hints built from others (`converts_decode`). Two resolvers that run alike
make conversions that run alike, so the law is stated for two of them.
-/

set_option autoImplicit false
set_option relaxedAutoImplicit false

namespace RuleMarshal

open Act

/-- From a state, a computation goes on with an extraction and ends with a value that shows a value
of the engine, if it ends with one; another computation runs alike. -/
def Converts (world : World) (store : Store) (e : EngineValue) (h : Hint) (act other : Act Value)
    (s : State) : Prop :=
  Yields world (Passage world store none 0 s)
    (fun w t ↦ Shows t.built e h w ∧ WholeSince world store s t) act other s

/-- Whether a conversion leaves a value under a hint to its resolver, as far as the hint is an
atom. -/
def Hint.IsLeft (h : Hint) (v : EngineValue) : Prop :=
  ∀ a, h = .atom a → Hint.decodeAtom? a v = Option.none

/-- What items that were converted one by one show. -/
def ShowsEach (objects : String × Destination → Option Value) (item : Hint) (es : List EngineValue)
    (ws : List Value) : Prop :=
  ws.length = es.length ∧ ∀ p ∈ es.zip ws, Shows objects p.1 item p.2

section

variable {world : World} {store : Store} {s t : State}

theorem ShowsEach.nil (objects : String × Destination → Option Value) (item : Hint) :
    ShowsEach objects item [] [] :=
  ⟨rfl, by simp⟩

theorem ShowsEach.cons {objects : String × Destination → Option Value} {item : Hint}
    {e : EngineValue} {es : List EngineValue} {w : Value} {ws : List Value}
    (hfirst : Shows objects e item w) (hrest : ShowsEach objects item es ws) :
    ShowsEach objects item (e :: es) (w :: ws) := by
  refine ⟨by rw [List.length_cons, List.length_cons, hrest.1], fun p hp ↦ ?_⟩
  rw [List.zip_cons_cons] at hp
  rcases List.mem_cons.mp hp with rfl | hp
  · exact hfirst
  · exact hrest.2 p hp

theorem ShowsEach.shows {objects : String × Destination → Option Value} {h item : Hint}
    {asTuple : Bool} {es : List EngineValue} {ws : List Value}
    (heach : ShowsEach objects item es ws) (hitems : h.items = .each asTuple item) :
    Shows objects (.multifield es) h (if asTuple then .tuple ws else .list ws) :=
  .row hitems heach.1 heach.2

/-- Items by their kinds show themselves under a type that lets every value through. -/
theorem showsEach_of_dynamicEach (objects : String × Destination → Option Value)
    {es : List EngineValue} {ws : List Value} (hdynamic : dynamicEach es = .ok ws) :
    ShowsEach objects .any es ws := by
  induction es generalizing ws with
  | nil =>
    cases hdynamic
    exact .nil objects .any
  | cons e rest ih =>
    unfold dynamicEach at hdynamic
    cases hfirst : e.dynamic with
    | error fault =>
      rw [hfirst] at hdynamic
      cases hdynamic
    | ok w =>
      cases hrest : dynamicEach rest with
      | error fault =>
        rw [hfirst, hrest] at hdynamic
        cases hdynamic
      | ok others =>
        rw [hfirst, hrest] at hdynamic
        cases hdynamic
        exact .cons (.atom (by rw [Hint.decodeAtom?, hfirst])) (ih hrest)

theorem exists_of_hasSoleMember {members : List Hint} (hsole : Hint.hasSoleMember members) :
    ∃ m ∈ members, m.isNoneType = false := by
  unfold Hint.hasSoleMember at hsole
  obtain ⟨m, hm⟩ := List.length_eq_one_iff.mp (by simpa using hsole)
  have hmem : m ∈ members.filter fun m ↦ !m.isNoneType := by rw [hm]; exact List.mem_cons_self
  exact ⟨m, by simpa using hmem⟩

end

section

variable {world : World} {store : Store} {Ready : State → Prop}
variable {f g : EngineValue → Hint → Act Value}
variable (hunderway : ∀ s, Ready s → Underway world store s)
variable (hready : ∀ s t, Ready s → Passage world store none 0 s t → Ready t)
include hunderway hready

theorem converts_mapM {h : Hint} {items : List EngineValue} {s : State} (hs : Ready s)
    (hitem : ∀ e ∈ items, ∀ t, Ready t →
      Converts world store e h (h.decode (some f) e) (h.decode (some g) e) t) :
    Yields world (Passage world store none 0 s)
      (fun ws t ↦ ShowsEach t.built h items ws ∧ WholeSince world store s t)
      (items.mapM (h.decode (some f))) (items.mapM (h.decode (some g))) s := by
  induction items generalizing s with
  | nil =>
    rw [List.mapM_nil, List.mapM_nil]
    exact .pure (.refl (hunderway s hs)) ⟨.nil _ h, .refl s⟩
  | cons e rest ih =>
    rw [List.mapM_cons, List.mapM_cons]
    refine (hitem e List.mem_cons_self s hs).bind (fun w t hst hw ↦ ?_) fun _ ↦ id
    have ht : Ready t := hready s t hs hst
    refine (ih ht fun d hd ↦ hitem d (List.mem_cons_of_mem e hd)).bind (fun ws u htu hws ↦ ?_)
      fun u ↦ hst.after
    refine .pure (hst.after htu) ⟨.cons (hw.1.mono fun _ _ ↦ htu.built) hws.1, ?_⟩
    exact hw.2.trans htu hws.2

theorem converts_sequence (asTuple : Bool) (make : List Value → Value) {h whole : Hint}
    {v : EngineValue} {s : State} (hs : Ready s) (hv : v.IsFactFree)
    (hitems : whole.items = .ofItem asTuple h)
    (hmake : ∀ ws, make ws = if asTuple then .tuple ws else .list ws)
    (hleave : Converts world store v whole (f v whole) (g v whole) s)
    (hitem : ∀ e, e.IsFactFree → ∀ t, Ready t →
      Converts world store e h (h.decode (some f) e) (h.decode (some g) e) t) :
    Converts world store v whole
      (if h.isAbsence then Hint.leave (some f) whole v else do
        let items ← MonadExcept.ofExcept (v.items whole)
        return make (← items.mapM (h.decode (some f))) : Act Value)
      (if h.isAbsence then Hint.leave (some g) whole v else do
        let items ← MonadExcept.ofExcept (v.items whole)
        return make (← items.mapM (h.decode (some g))) : Act Value) s := by
  by_cases habsence : h.isAbsence
  · rw [if_pos habsence, if_pos habsence]
    exact hleave
  · rw [if_neg habsence, if_neg habsence]
    have hrow : whole.items = .each asTuple h := by rw [hitems, Hint.Items.ofItem, if_neg habsence]
    have hfound : Yields world (fun t ↦ t = s) (fun es _ ↦ v.items whole = .ok es)
        (MonadExcept.ofExcept (v.items whole)) (MonadExcept.ofExcept (v.items whole)) s :=
      .ofExcept rfl fun _ ↦ id
    refine hfound.bind (fun es t heq hes ↦ ?_) fun t heq ↦ by
      subst heq
      exact .refl (hunderway _ hs)
    subst heq
    obtain rfl := multifield_of_items hes
    refine (converts_mapM hunderway hready hs fun e he ↦ hitem e (hv.of_mem he)).bind
      (fun ws u htu hws ↦ ?_) fun _ ↦ id
    refine .pure htu ⟨?_, hws.2⟩
    rw [hmake]
    exact hws.1.shows hrow

omit hready in
theorem converts_untyped (asTuple : Bool) (make : List Value → Value) {whole : Hint}
    {v : EngineValue} {s : State} (hs : Ready s) (hitems : whole.items = .each asTuple .any)
    (hmake : ∀ ws, make ws = if asTuple then .tuple ws else .list ws) :
    Converts world store v whole
      (do
        let items ← MonadExcept.ofExcept (v.items whole)
        return make (← MonadExcept.ofExcept (dynamicEach items)) : Act Value)
      (do
        let items ← MonadExcept.ofExcept (v.items whole)
        return make (← MonadExcept.ofExcept (dynamicEach items)) : Act Value) s := by
  have hfound : Yields world (fun t ↦ t = s) (fun es _ ↦ v.items whole = .ok es)
      (MonadExcept.ofExcept (v.items whole)) (MonadExcept.ofExcept (v.items whole)) s :=
    .ofExcept rfl fun _ ↦ id
  have hrefl : Passage world store none 0 s s := .refl (hunderway s hs)
  refine hfound.bind (fun es t heq hes ↦ ?_) fun t heq ↦ by
    subst heq
    exact hrefl
  subst heq
  obtain rfl := multifield_of_items hes
  have hdynamic : Yields world (fun u ↦ u = t) (fun ws _ ↦ dynamicEach es = .ok ws)
      (MonadExcept.ofExcept (dynamicEach es)) (MonadExcept.ofExcept (dynamicEach es)) t :=
    .ofExcept rfl fun _ ↦ id
  refine hdynamic.bind (fun ws u heq hws ↦ ?_) fun u heq ↦ by
    subst heq
    exact hrefl
  subst heq
  refine .pure hrefl ⟨?_, .refl u⟩
  rw [hmake]
  exact (showsEach_of_dynamicEach u.built hws).shows hitems

variable {turns : List Turn} (hchoice : .choice ∈ turns → world.Declares .choice)
variable (hresolve : ∀ v h s, Ready s → v.IsFactFree → h.turns.Sublist turns → h.IsLeft v →
  Converts world store v h (f v h) (g v h) s)
include hchoice hresolve

-- Each of the three needs the hypotheses for the sake of the others.
set_option linter.unusedSectionVars false

mutual

theorem Hint.converts_decode : ∀ (h : Hint) (v : EngineValue) (s : State), Ready s → v.IsFactFree →
    h.turns.Sublist turns →
    Converts world store v h (h.decode (some f) v) (h.decode (some g) v) s
  | .atom a, v, s, hs, hv, hturns => by
    unfold Hint.decode
    cases hatom : Hint.decodeAtom? a v with
    | none => exact hresolve v (.atom a) s hs hv hturns fun b heq ↦ by cases heq; exact hatom
    | some answer =>
      refine .ofExcept (.refl (hunderway s hs)) fun w hw ↦ ⟨.atom ?_, .refl s⟩
      rw [hatom, hw]
  | .union spelling members, v, s, hs, hv, hturns => by
    have hmembers : (Hint.turnsEach members).Sublist turns :=
      (Hint.turnsEach_sublist_turns_union spelling members).trans hturns
    unfold Hint.decode
    by_cases hsole : members.any Hint.isNoneType && Hint.hasSoleMember members
    · obtain ⟨hnone, hsole⟩ := by simpa using hsole
      have hany : members.any Hint.isNoneType := List.any_eq_true.mpr hnone
      rw [if_pos hany, if_pos hany, if_pos hsole, if_pos hsole]
      by_cases hnil : v.isNil
      · rw [if_pos hnil, if_pos hnil]
        exact .pure (.refl (hunderway s hs)) ⟨.absent hnil hany, .refl s⟩
      · rw [if_neg hnil, if_neg hnil]
        refine (converts_decodeSole members v s hs hv hmembers (exists_of_hasSoleMember hsole)).mono
          (fun _ ↦ id) fun w t _ hw ↦ ⟨?_, hw.2⟩
        obtain ⟨m, hm, hshows⟩ := hw.1
        exact .member hm hshows
    · have hdeclared : world.Declares .choice := by
        refine hchoice (hturns.subset ?_)
        rw [Hint.turns, if_neg hsole]
        exact List.mem_cons_self
      have hmany : ∀ failure, Converts world store v (.union spelling members)
          (Hint.decodeMembers (some f) members v failure)
          (Hint.decodeMembers (some g) members v failure) s := fun failure ↦
        (converts_decodeMembers hdeclared members v failure s hs hv hmembers).mono (fun _ ↦ id)
          fun w t _ ⟨m, hm, hshows⟩ ↦ ⟨.member hm hshows, .of_choice hdeclared⟩
      by_cases hany : members.any Hint.isNoneType
      · have hseveral : ¬Hint.hasSoleMember members := fun hone ↦ hsole (by rw [hany, hone]; rfl)
        rw [if_pos hany, if_pos hany, if_neg hseveral, if_neg hseveral]
        by_cases hnil : v.isNil
        · rw [if_pos hnil, if_pos hnil]
          exact .pure (.refl (hunderway s hs)) ⟨.absent hnil hany, .refl s⟩
        · rw [if_neg hnil, if_neg hnil]
          exact hmany _
      · rw [if_neg hany, if_neg hany]
        exact hmany _
  | .listOf h, v, s, hs, hv, hturns => by
    unfold Hint.decode
    exact converts_sequence hunderway hready false .list hs hv rfl (fun _ ↦ rfl)
      (hresolve v _ s hs hv hturns nofun) fun e he t ht ↦
        Hint.converts_decode h e t ht he (by rwa [Hint.turns] at hturns)
  | .tupleOf h, v, s, hs, hv, hturns => by
    unfold Hint.decode
    exact converts_sequence hunderway hready true .tuple hs hv rfl (fun _ ↦ rfl)
      (hresolve v _ s hs hv hturns nofun) fun e he t ht ↦
        Hint.converts_decode h e t ht he (by rwa [Hint.turns] at hturns)
  | .sequenceOf h, v, s, hs, hv, hturns => by
    unfold Hint.decode
    exact converts_sequence hunderway hready false .list hs hv rfl (fun _ ↦ rfl)
      (hresolve v _ s hs hv hturns nofun) fun e he t ht ↦
        Hint.converts_decode h e t ht he (by rwa [Hint.turns] at hturns)
  | .mutableSequenceOf h, v, s, hs, hv, hturns => by
    unfold Hint.decode
    exact converts_sequence hunderway hready false .list hs hv rfl (fun _ ↦ rfl)
      (hresolve v _ s hs hv hturns nofun) fun e he t ht ↦
        Hint.converts_decode h e t ht he (by rwa [Hint.turns] at hturns)
  | .fixedTuple [], v, s, hs, hv, hturns => by
    unfold Hint.decode
    exact converts_untyped hunderway true .tuple hs rfl fun _ ↦ rfl
  | .fixedTuple (h :: rest), v, s, hs, hv, hturns => by
    unfold Hint.decode
    by_cases huniform : h.isUniform rest
    · rw [if_pos huniform, if_pos huniform]
      exact converts_sequence hunderway hready true .tuple hs hv (if_pos huniform) (fun _ ↦ rfl)
        (hresolve v _ s hs hv hturns nofun) fun e he t ht ↦ Hint.converts_decode h e t ht he
          ((Hint.turns_sublist_turnsEach List.mem_cons_self).trans (by rwa [Hint.turns] at hturns))
    · rw [if_neg huniform, if_neg huniform]
      exact .throw (.refl (hunderway s hs))
  | .generic origin args, v, s, hs, hv, hturns => by
    by_cases horigin : origin = .list
    · subst horigin
      unfold Hint.decode
      cases args with
      | nil => exact converts_untyped hunderway false .list hs rfl fun _ ↦ rfl
      | cons h rest =>
        exact converts_sequence hunderway hready false .list hs hv rfl (fun _ ↦ rfl)
          (hresolve v _ s hs hv hturns nofun) fun e he t ht ↦ Hint.converts_decode h e t ht he
            ((Hint.turns_sublist_turnsEach List.mem_cons_self).trans
              (by rwa [Hint.turns, if_neg nofun] at hturns))
    · rw [Hint.decode_generic_of_ne horigin, Hint.decode_generic_of_ne horigin]
      exact hresolve v _ s hs hv hturns nofun
  | .setOf h, v, s, hs, hv, hturns => by
    unfold Hint.decode
    exact hresolve v _ s hs hv hturns nofun
  | .mappingOf place key value, v, s, hs, hv, hturns => by
    unfold Hint.decode
    exact hresolve v _ s hs hv hturns nofun

theorem converts_decodeSole : ∀ (members : List Hint) (v : EngineValue) (s : State), Ready s →
    v.IsFactFree → (Hint.turnsEach members).Sublist turns → (∃ m ∈ members, m.isNoneType = false) →
    Yields world (Passage world store none 0 s)
      (fun w t ↦ (∃ m ∈ members, Shows t.built v m w) ∧ WholeSince world store s t)
      (Hint.decodeSole (some f) members v) (Hint.decodeSole (some g) members v) s
  | [], v, s, hs, hv, hturns, hsome => by simp at hsome
  | h :: rest, v, s, hs, hv, hturns, hsome => by
    rw [Hint.turnsEach] at hturns
    unfold Hint.decodeSole
    by_cases hnone : h.isNoneType
    · rw [if_pos hnone, if_pos hnone]
      have hothers : ∃ m ∈ rest, m.isNoneType = false := by simpa [hnone] using hsome
      refine (converts_decodeSole rest v s hs hv ((List.sublist_append_right _ _).trans hturns)
        hothers).mono (fun _ ↦ id) fun w t _ hw ↦ ⟨?_, hw.2⟩
      obtain ⟨m, hm, hshows⟩ := hw.1
      exact ⟨m, List.mem_cons_of_mem h hm, hshows⟩
    · rw [if_neg hnone, if_neg hnone]
      exact (Hint.converts_decode h v s hs hv ((List.sublist_append_left _ _).trans hturns)).mono
        (fun _ ↦ id) fun w t _ hw ↦ ⟨⟨h, List.mem_cons_self, hw.1⟩, hw.2⟩

theorem converts_decodeMembers (hdeclared : world.Declares .choice) : ∀ (members : List Hint)
    (v : EngineValue) (failure : Error) (s : State), Ready s → v.IsFactFree →
    (Hint.turnsEach members).Sublist turns →
    Yields world (Passage world store none 0 s) (fun w t ↦ ∃ m ∈ members, Shows t.built v m w)
      (Hint.decodeMembers (some f) members v failure)
        (Hint.decodeMembers (some g) members v failure) s
  | [], v, failure, s, hs, hv, hturns => by
    unfold Hint.decodeMembers
    exact .throw (.refl (hunderway s hs))
  | h :: rest, v, failure, s, hs, hv, hturns => by
    rw [Hint.turnsEach] at hturns
    have hothers : ∀ t, Ready t → Yields world (Passage world store none 0 t)
        (fun w u ↦ ∃ m ∈ h :: rest, Shows u.built v m w)
        (Hint.decodeMembers (some f) rest v failure)
        (Hint.decodeMembers (some g) rest v failure) t := fun t ht ↦
      (converts_decodeMembers hdeclared rest v failure t ht hv
        ((List.sublist_append_right _ _).trans hturns)).mono (fun _ ↦ id)
        fun w u _ ⟨m, hm, hshows⟩ ↦ ⟨m, List.mem_cons_of_mem h hm, hshows⟩
    unfold Hint.decodeMembers
    by_cases hnone : h.isNoneType
    · rw [if_pos hnone, if_pos hnone]
      exact hothers s hs
    · rw [if_neg hnone, if_neg hnone]
      have hfirst := Hint.converts_decode h v s hs hv ((List.sublist_append_left _ _).trans hturns)
      refine .tryCatch (hfirst.mono (fun _ ↦ id) fun w t _ hw ↦ ⟨h, List.mem_cons_self, hw.1⟩)
        (fun e t hst ↦ ?_) fun _ ↦ id
      by_cases hconversion : e.isConversion
      · rw [if_pos hconversion, if_pos hconversion]
        exact (hothers t (hready s t hs hst)).mono (fun u ↦ hst.after) fun _ _ _ ↦ id
      · rw [if_neg hconversion, if_neg hconversion]
        exact .throw hst

end

end

end RuleMarshal
