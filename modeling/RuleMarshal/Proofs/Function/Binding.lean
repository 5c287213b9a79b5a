import RuleMarshal.Proofs.Function.Call
import RuleMarshal.Proofs.Function.Signature
/-!
How a call by position binds, and what a signature knows of it. The arguments go to the parameters
in their order (`Parameter.Binds`): each parameter that takes an argument by position takes the next
one or falls back on its default, all arguments behind those go to the parameter that gathers them,
and parameters that are given by name fall back on their defaults. For parameters in an order that a
function can have (`Parameter.InOrder`) such a call binds exactly if it has as many arguments as are
needed and no more than there is a place for (`Parameter.exists_binds_iff`).

Reading parameters one after the other keeps account of just that (`Signature.Reading.Of`). So a
signature accepts the calls that bind, and knows for each argument the type of the parameter that
takes it (`accepts_iff_binds`).
-/

set_option autoImplicit false
set_option relaxedAutoImplicit false

namespace RuleMarshal

open Act

/-! ### Parameters in order -/

namespace ParameterKind

/-- The place of a kind among the parameters of a function. -/
def rank : ParameterKind → Nat
  | .positionalOnly => 0
  | .positional => 1
  | .variadic => 2
  | .keywordOnly => 3
  | .keywordVariadic => 4

/-- Whether a parameter of a kind may stand in front of one of another kind. Only one parameter
gathers arguments, and only one gathers names. -/
def MayPrecede (k l : ParameterKind) : Prop :=
  k.rank < l.rank ∨ k = l ∧ k ≠ .variadic ∧ k ≠ .keywordVariadic

instance : DecidableRel MayPrecede := fun k l ↦
  inferInstanceAs (Decidable (k.rank < l.rank ∨ k = l ∧ k ≠ .variadic ∧ k ≠ .keywordVariadic))

end ParameterKind

namespace Parameter

/-- Whether parameters stand in an order that a function can have: kind by kind, and behind a
default that an argument by position can replace, every parameter that takes one has a default. -/
structure InOrder (params : List Parameter) : Prop where
  kinds : params.Pairwise fun p q ↦ p.kind.MayPrecede q.kind
  defaults : params.Pairwise fun p q ↦
    p.kind.takesPosition = true → p.hasDefault = true → q.kind.takesPosition = true →
      q.hasDefault = true

variable {params rest takers : List Parameter} {p q : Parameter} {n i : Nat}

theorem InOrder.tail (horder : InOrder (p :: rest)) : InOrder rest :=
  ⟨(List.pairwise_cons.mp horder.kinds).2, (List.pairwise_cons.mp horder.defaults).2⟩

/-- Behind the parameter that gathers arguments none takes an argument by position or gathers
arguments. -/
theorem InOrder.behind_variadic (horder : InOrder (p :: rest)) (hp : p.kind = .variadic)
    (hq : q ∈ rest) :
    q.kind.takesPosition = false ∧ q.kind ≠ .variadic := by
  have hbefore := (List.pairwise_cons.mp horder.kinds).1 q hq
  rw [hp] at hbefore
  revert hbefore
  cases q.kind <;> decide

/-! ### Calls by position -/

/-- A call with a number of arguments by position, and none by name, binds to parameters. The takers
are the parameters that take the arguments, one for each. -/
inductive Binds : List Parameter → Nat → List Parameter → Prop
  /-- No argument is left, and no parameter. -/
  | done : Binds [] 0 []
  /-- A parameter takes the next argument. -/
  | takes {p : Parameter} {rest takers : List Parameter} {n : Nat}
      (hkind : p.kind.takesPosition = true)
      (hrest : Binds rest n takers) : Binds (p :: rest) (n + 1) (p :: takers)
  /-- Where no argument is left, a default stands in. -/
  | omitted {p : Parameter} {rest : List Parameter} (hkind : p.kind.takesPosition = true)
      (hdefault : p.hasDefault = true) (hrest : Binds rest 0 []) : Binds (p :: rest) 0 []
  /-- All arguments that are left, if any, are gathered. -/
  | gathers {p : Parameter} {rest : List Parameter} {n : Nat} (hkind : p.kind = .variadic)
      (hrest : Binds rest 0 []) : Binds (p :: rest) n (List.replicate n p)
  /-- For a parameter that is given by name alone a default stands in. -/
  | unnamed {p : Parameter} {rest takers : List Parameter} {n : Nat} (hkind : p.kind = .keywordOnly)
      (hdefault : p.hasDefault = true) (hrest : Binds rest n takers) : Binds (p :: rest) n takers
  /-- There are no further names to gather. -/
  | nameless {p : Parameter} {rest takers : List Parameter} {n : Nat}
      (hkind : p.kind = .keywordVariadic)
      (hrest : Binds rest n takers) : Binds (p :: rest) n takers

/-- The parameters that take an argument by position. -/
def places (params : List Parameter) : List Parameter := params.filter (·.kind.takesPosition)

/-- How many arguments by position are needed. -/
def needed (params : List Parameter) : Nat :=
  params.countP fun p ↦ p.kind.takesPosition && !p.hasDefault

/-- The parameter that gathers further arguments, if there is one. -/
def gatherer? (params : List Parameter) : Option Parameter :=
  (params.filter (·.kind = .variadic)).getLast?

/-! ### What a call needs, and what it has places for -/

theorem places_cons_of_takesPosition (hkind : p.kind.takesPosition = true) :
    places (p :: rest) = p :: places rest :=
  List.filter_cons_of_pos hkind

theorem places_cons_of_not (hkind : p.kind.takesPosition = false) :
    places (p :: rest) = places rest :=
  List.filter_cons_of_neg (by simp [hkind])

theorem needed_cons (p : Parameter) (rest : List Parameter) :
    needed (p :: rest) = needed rest + if p.kind.takesPosition && !p.hasDefault then 1 else 0 :=
  List.countP_cons

theorem needed_cons_of_not (hkind : p.kind.takesPosition = false) :
    needed (p :: rest) = needed rest := by
  simp [needed_cons, hkind]

theorem needed_cons_of_hasDefault (hdefault : p.hasDefault = true) :
    needed (p :: rest) = needed rest := by
  simp [needed_cons, hdefault]

theorem needed_eq_zero (hrest : ∀ q ∈ rest, q.kind.takesPosition = true → q.hasDefault = true) :
    needed rest = 0 := by
  rw [needed, List.countP_eq_zero]
  intro q hq hneeded
  obtain ⟨hkind, hdefault⟩ := Bool.and_eq_true_iff.mp hneeded
  simp [hrest q hq hkind] at hdefault

theorem ne_variadic_of_takesPosition (hkind : p.kind.takesPosition = true) :
    p.kind ≠ .variadic := by
  intro hvariadic
  rw [hvariadic] at hkind
  cases hkind

theorem gatherer?_cons_of_ne (hkind : p.kind ≠ .variadic) :
    gatherer? (p :: rest) = gatherer? rest := by
  rw [gatherer?, List.filter_cons_of_neg (by simpa using hkind), gatherer?]

theorem isSome_gatherer?_cons (hkind : p.kind = .variadic) :
    (gatherer? (p :: rest)).isSome = true := by
  rw [gatherer?, List.filter_cons_of_pos (by simpa using hkind)]
  exact List.getLast?_isSome.mpr (List.cons_ne_nil _ _)

/-- Behind the parameter that gathers arguments there are no places for any, so that it takes what
is left. -/
theorem InOrder.gatherer_takes (horder : InOrder (p :: rest)) (hkind : p.kind = .variadic) :
    places rest = [] ∧ needed rest = 0 ∧ gatherer? (p :: rest) = some p := by
  have hbehind : ∀ q ∈ rest, q.kind.takesPosition = false ∧ q.kind ≠ .variadic :=
    fun q hq ↦ horder.behind_variadic hkind hq
  refine ⟨?_, ?_, ?_⟩
  · exact List.filter_eq_nil_iff.mpr fun q hq ↦ by simp [(hbehind q hq).1]
  · exact needed_eq_zero fun q hq htakes ↦ by simp [(hbehind q hq).1] at htakes
  · have hnone : rest.filter (·.kind = .variadic) = [] :=
      List.filter_eq_nil_iff.mpr fun q hq ↦ by simpa using (hbehind q hq).2
    rw [gatherer?, List.filter_cons_of_pos (by simpa using hkind), hnone, List.getLast?_singleton]

/-- A parameter that is given by name makes no difference. -/
theorem cons_of_named (hkind : p.kind = .keywordOnly ∨ p.kind = .keywordVariadic)
    (rest : List Parameter) :
    places (p :: rest) = places rest ∧ needed (p :: rest) = needed rest ∧
      gatherer? (p :: rest) = gatherer? rest := by
  have hplace : p.kind.takesPosition = false := by
    rcases hkind with hkind | hkind <;> rw [hkind] <;> rfl
  have hgathers : p.kind ≠ .variadic := by rcases hkind with hkind | hkind <;> rw [hkind] <;> decide
  exact ⟨places_cons_of_not hplace, needed_cons_of_not hplace, gatherer?_cons_of_ne hgathers⟩

namespace Binds

variable (hbinds : Binds params n takers)
include hbinds

theorem length_takers : takers.length = n := by
  induction hbinds with
  | done => rfl
  | takes _ _ ih => rw [List.length_cons, ih]
  | omitted => rfl
  | gathers => exact List.length_replicate
  | unnamed _ _ _ ih => exact ih
  | nameless _ _ ih => exact ih

theorem hasDefault_of_keywordOnly : ∀ q ∈ params, q.kind = .keywordOnly → q.hasDefault = true := by
  induction hbinds with
  | done => nofun
  | takes hkind _ ih | omitted hkind _ _ ih =>
    refine List.forall_mem_cons.mpr ⟨fun hkeyword ↦ ?_, ih⟩
    rw [hkeyword] at hkind
    cases hkind
  | gathers hkind _ ih | nameless hkind _ ih =>
    refine List.forall_mem_cons.mpr ⟨fun hkeyword ↦ ?_, ih⟩
    rw [hkeyword] at hkind
    cases hkind
  | unnamed _ hdefault _ ih => exact List.forall_mem_cons.mpr ⟨fun _ ↦ hdefault, ih⟩

theorem needed_le : needed params ≤ n := by
  induction hbinds with
  | done => exact Nat.le_refl _
  | takes _ _ ih =>
    rw [needed_cons]
    split <;> omega
  | omitted _ hdefault _ ih => rwa [needed_cons_of_hasDefault hdefault]
  | gathers hkind _ ih =>
    rw [needed_cons_of_not (by rw [hkind]; rfl)]
    exact Nat.le_trans ih (Nat.zero_le _)
  | unnamed hkind _ _ ih | nameless hkind _ ih =>
    rw [(cons_of_named (by simp [hkind]) _).2.1]
    exact ih

theorem le_places_or_gatherer : n ≤ (places params).length ∨ (gatherer? params).isSome = true := by
  induction hbinds with
  | done => exact .inl (Nat.le_refl _)
  | takes hkind _ ih =>
    rw [places_cons_of_takesPosition hkind,
      gatherer?_cons_of_ne (ne_variadic_of_takesPosition hkind)]
    exact ih.imp_left Nat.succ_le_succ
  | omitted => exact .inl (Nat.zero_le _)
  | gathers hkind => exact .inr (isSome_gatherer?_cons hkind)
  | @unnamed p rest _ _ hkind _ _ ih | @nameless p rest _ _ hkind _ ih =>
    obtain ⟨hplaces, -, hgatherer⟩ := cons_of_named (p := p) (by simp [hkind]) rest
    rwa [hplaces, hgatherer]

/-- The arguments of a call that binds are taken at the places in order, and behind these by the
gatherer. -/
theorem getElem?_takers (horder : InOrder params) (hi : i < n) :
    takers[i]? = (places params)[i]?.or (gatherer? params) := by
  induction hbinds generalizing i with
  | done => cases hi
  | takes hkind _ ih =>
    rw [places_cons_of_takesPosition hkind,
      gatherer?_cons_of_ne (ne_variadic_of_takesPosition hkind)]
    cases i with
    | zero => rfl
    | succ i => exact ih horder.tail (Nat.lt_of_succ_lt_succ hi)
  | omitted => cases hi
  | gathers hkind _ ih =>
    obtain ⟨hplaces, -, hgatherer⟩ := horder.gatherer_takes hkind
    rw [places_cons_of_not (by rw [hkind]; rfl), hplaces, hgatherer,
      List.getElem?_replicate_of_lt hi]
    rfl
  | @unnamed p rest _ _ hkind _ _ ih | @nameless p rest _ _ hkind _ ih =>
    obtain ⟨hplaces, -, hgatherer⟩ := cons_of_named (p := p) (by simp [hkind]) rest
    rw [hplaces, hgatherer]
    exact ih horder.tail hi

end Binds

/-- Where a parameter takes the first of some arguments, those behind it need no more than are left.
Behind a default they need none at all. -/
theorem InOrder.needed_le_of_takes (horder : InOrder (p :: rest))
    (htakes : p.kind.takesPosition = true) (hneeded : needed (p :: rest) ≤ n + 1) :
    needed rest ≤ n := by
  cases hdefault : p.hasDefault with
  | false =>
    rw [needed_cons, htakes, hdefault] at hneeded
    exact Nat.le_of_succ_le_succ hneeded
  | true =>
    have hbehind := (List.pairwise_cons.mp horder.defaults).1
    rw [needed_eq_zero fun q hq ↦ hbehind q hq htakes hdefault]
    exact Nat.zero_le n

/-- Where no argument is needed, a parameter that could take one has a default. -/
theorem hasDefault_of_needed (htakes : p.kind.takesPosition = true)
    (hneeded : needed (p :: rest) ≤ 0) :
    p.hasDefault = true := by
  by_contra hdefault
  simp [needed_cons, htakes, hdefault] at hneeded

/-- A call with arguments enough, and with places for all of them, binds if no parameter needs a
name. -/
theorem exists_binds (horder : InOrder params)
    (hkeywords : ∀ q ∈ params, q.kind = .keywordOnly → q.hasDefault = true)
    (hneeded : needed params ≤ n)
    (hroom : n ≤ (places params).length ∨ (gatherer? params).isSome = true) :
    ∃ takers, Binds params n takers := by
  -- Along the parameters, for any number of arguments that may be left when one is reached.
  induction params generalizing n with
  | nil =>
    obtain rfl : n = 0 := by simpa [places, gatherer?] using hroom
    exact ⟨[], .done⟩
  | cons p rest ih =>
    obtain ⟨hkeyword, hkeywords⟩ := List.forall_mem_cons.mp hkeywords
    have hbehind : ∀ {m : Nat}, needed rest ≤ m →
        m ≤ (places rest).length ∨ (gatherer? rest).isSome = true → ∃ takers, Binds rest m takers :=
      ih horder.tail hkeywords
    have hnone : needed rest ≤ 0 → Binds rest 0 [] := by
      intro hneeded
      obtain ⟨takers, hrest⟩ := hbehind hneeded (.inl (Nat.zero_le _))
      rwa [List.eq_nil_of_length_eq_zero hrest.length_takers] at hrest
    have hnamed : p.kind = .keywordOnly ∨ p.kind = .keywordVariadic → ∃ takers,
        Binds rest n takers := by
      intro hkind
      obtain ⟨hplaces, hcount, hgatherer⟩ := cons_of_named hkind rest
      rw [hcount] at hneeded
      rw [hplaces, hgatherer] at hroom
      exact hbehind hneeded hroom
    cases hkind : p.kind with
    | variadic => exact ⟨_, .gathers hkind (hnone (Nat.le_of_eq (horder.gatherer_takes hkind).2.1))⟩
    | keywordOnly =>
      obtain ⟨takers, hrest⟩ := hnamed (.inl hkind)
      exact ⟨takers, .unnamed hkind (hkeyword hkind) hrest⟩
    | keywordVariadic =>
      obtain ⟨takers, hrest⟩ := hnamed (.inr hkind)
      exact ⟨takers, .nameless hkind hrest⟩
    | positionalOnly | positional =>
      have htakes : p.kind.takesPosition = true := by rw [hkind]; rfl
      cases n with
      | zero =>
        have hdefault := hasDefault_of_needed htakes hneeded
        rw [needed_cons_of_hasDefault hdefault] at hneeded
        exact ⟨[], .omitted htakes hdefault (hnone hneeded)⟩
      | succ n =>
        rw [places_cons_of_takesPosition htakes,
          gatherer?_cons_of_ne (ne_variadic_of_takesPosition htakes)] at hroom
        obtain ⟨takers, hrest⟩ :=
          hbehind (horder.needed_le_of_takes htakes hneeded) (hroom.imp_left Nat.le_of_succ_le_succ)
        exact ⟨p :: takers, .takes htakes hrest⟩

/-- Parameters bind to a number of arguments exactly if none needs a name and the number is neither
too small nor too large. -/
theorem exists_binds_iff (horder : InOrder params) :
    (∃ takers, Binds params n takers) ↔
      (∀ q ∈ params, q.kind = .keywordOnly → q.hasDefault = true) ∧ needed params ≤ n ∧
        (n ≤ (places params).length ∨ (gatherer? params).isSome = true) := by
  constructor
  · rintro ⟨takers, hbinds⟩
    exact ⟨hbinds.hasDefault_of_keywordOnly, hbinds.needed_le, hbinds.le_places_or_gatherer⟩
  · rintro ⟨hkeywords, hneeded, hroom⟩
    exact exists_binds horder hkeywords hneeded hroom

end Parameter

namespace Signature

/-! ### What is kept account of -/

/-- What a reading of parameters with their types says of them: the types at their places, how many
arguments are needed, the type of the gatherer, and that no parameter needs a name. -/
structure Reading.Of (typed : List (Parameter × Hint)) (r : Reading) : Prop where
  params : r.params = (typed.filter (·.1.kind.takesPosition)).map (·.2)
  required : r.required = Parameter.needed (typed.map (·.1))
  variadic : r.variadic = (typed.filter (·.1.kind = .variadic)).getLast?.map (·.2)
  keywords : ∀ p ∈ typed, p.1.kind = .keywordOnly → p.1.hasDefault = true

namespace Reading

variable {typed more : List (Parameter × Hint)} {p : Parameter × Hint} {r r' : Reading}
variable {name : String}

theorem Of.nil : Of [] {} := ⟨rfl, rfl, rfl, nofun⟩

/-- What reading one parameter more adds. -/
theorem eq_of_add (hadd : r.add name p = .ok r') :
    (p.1.kind = .keywordOnly → p.1.hasDefault = true) ∧
      r'.params = r.params ++ (if p.1.kind.takesPosition then [p.2] else []) ∧
      r'.required = r.required + (if p.1.kind.takesPosition && !p.1.hasDefault then 1 else 0) ∧
      r'.variadic = if p.1.kind = .variadic then some p.2 else r.variadic := by
  obtain ⟨q, h⟩ := p
  unfold Reading.add at hadd
  cases hkind : q.kind with
  | positionalOnly | positional =>
    simp only [hkind] at hadd
    cases hadd
    cases hdefault : q.hasDefault <;> simp [ParameterKind.takesPosition]
  | variadic | keywordVariadic =>
    simp only [hkind] at hadd
    cases hadd
    simp [ParameterKind.takesPosition]
  | keywordOnly =>
    simp only [hkind] at hadd
    split at hadd
    · cases hadd
      simpa [ParameterKind.takesPosition]
    · cases hadd

/-- An account of some parameters is one of these and the next after that is read. -/
theorem Of.add (hof : Of typed r) (hadd : r.add name p = .ok r') : Of (typed ++ [p]) r' := by
  obtain ⟨hkeyword, hparams, hrequired, hvariadic⟩ := eq_of_add hadd
  refine ⟨?_, ?_, ?_, List.forall_mem_append.mpr ⟨hof.keywords, by simpa using hkeyword⟩⟩
  · rw [hparams, hof.params, List.filter_append, List.map_append]
    cases hkind : p.1.kind.takesPosition <;> simp [hkind]
  · rw [hrequired, hof.required, List.map_append, Parameter.needed, Parameter.needed,
      List.countP_append, List.map_singleton, List.countP_singleton]
  · rw [hvariadic, hof.variadic, List.filter_append, List.filter_singleton]
    by_cases hkind : p.1.kind = .variadic <;> simp [hkind]

/-- An account of some parameters is one of these and all that are read after them. -/
theorem Of.foldlM (hof : Of typed r) (hmore : more.foldlM (Reading.add name) r = .ok r') :
    Of (typed ++ more) r' := by
  induction more generalizing typed r with
  | nil =>
    cases hmore
    rwa [List.append_nil]
  | cons p more ih =>
    rw [List.foldlM_cons] at hmore
    obtain ⟨next, hadd, hrest⟩ := Except.ok_of_bind hmore
    rw [← List.singleton_append, ← List.append_assoc]
    exact ih (hof.add hadd) hrest

end Reading

variable {table : TypeTable} {text : HostText} {sig : Signature} {typed : List (Parameter × Hint)}
variable {params takers : List Parameter} {p : Parameter} {n i : Nat}

/-- What a signature keeps of the parameters that it was read from. -/
def reading (sig : Signature) : Reading := ⟨sig.params, sig.required, sig.variadic⟩

theorem reading_of_ofParameters {returns : Hint}
    (hsig : ofParameters text typed returns = .ok sig) :
    sig.reading.Of typed := by
  obtain ⟨r, hread, hreturn⟩ := Except.ok_of_bind hsig
  cases hreturn
  exact Reading.Of.nil.foldlM hread

theorem places_map_fst (typed : List (Parameter × Hint)) :
    Parameter.places (typed.map (·.1)) = (typed.filter (·.1.kind.takesPosition)).map (·.1) :=
  List.filter_map

theorem gatherer?_map_fst (typed : List (Parameter × Hint)) :
    Parameter.gatherer? (typed.map (·.1)) =
      (typed.filter (·.1.kind = .variadic)).getLast?.map (·.1) := by
  rw [Parameter.gatherer?, List.filter_map, List.getLast?_map]
  rfl

/-- A signature accepts the numbers of arguments for which a call binds. -/
theorem accepts_iff_exists_binds (hof : sig.reading.Of typed)
    (horder : Parameter.InOrder (typed.map (·.1))) :
    sig.accepts n = true ↔ ∃ takers, Parameter.Binds (typed.map (·.1)) n takers := by
  have hrequired : sig.required = Parameter.needed (typed.map (·.1)) := hof.required
  have hplaces : (Parameter.places (typed.map (·.1))).length = sig.params.length := by
    rw [places_map_fst, show sig.params = _ from hof.params, List.length_map, List.length_map]
  have hgatherer : (Parameter.gatherer? (typed.map (·.1))).isSome = sig.variadic.isSome := by
    rw [gatherer?_map_fst, show sig.variadic = _ from hof.variadic, Option.isSome_map,
      Option.isSome_map]
  have hkeywords : ∀ q ∈ typed.map (·.1), q.kind = .keywordOnly → q.hasDefault = true :=
    List.forall_mem_map.mpr hof.keywords
  rw [Parameter.exists_binds_iff horder, hplaces, hgatherer, ← hrequired, accepts, Bool.and_eq_true,
    decide_eq_true_eq, Bool.or_eq_true, decide_eq_true_eq, or_comm]
  exact (and_iff_right hkeywords).symm

/-- The type that a signature knows for an argument is that of the parameter that takes it. -/
theorem mem_of_taker (hof : sig.reading.Of typed) (horder : Parameter.InOrder (typed.map (·.1)))
    (hbinds : Parameter.Binds (typed.map (·.1)) n takers) (htaker : takers[i]? = some p) :
    (p, sig.hintAt i) ∈ typed := by
  have hi : i < n := hbinds.length_takers ▸ (List.getElem?_eq_some_iff.mp htaker).1
  have hfound := hbinds.getElem?_takers horder hi
  rw [htaker, places_map_fst, gatherer?_map_fst, List.getElem?_map] at hfound
  rw [hintAt, show sig.params = _ from hof.params, show sig.variadic = _ from hof.variadic,
    List.getElem?_map]
  cases hplace : (typed.filter (·.1.kind.takesPosition))[i]? with
  | some q =>
    rw [hplace] at hfound
    obtain rfl : p = q.1 := Option.some.inj hfound
    exact List.mem_of_mem_filter (List.mem_of_getElem? hplace)
  | none =>
    rw [hplace, Option.map_none, Option.none_or] at hfound
    obtain ⟨q, hgatherer, rfl⟩ := Option.map_eq_some_iff.mp hfound.symm
    rw [hgatherer]
    exact List.mem_of_mem_filter (List.mem_of_getLast? hgatherer)

end Signature

/-! ### Calls of a function -/

/-- Parameters admit arguments, one each and in order: each argument converts to a host value of the
type that is declared for its parameter, which leads from one state to another. -/
inductive Parameter.Admit (world : World) (table : TypeTable) :
    List Parameter → List EngineValue → State → List Value → State → Prop
  | nil (s : State) : Admit world table [] [] s [] s
  | cons {p : Parameter} {takers : List Parameter} {v : EngineValue}
      {rest : List EngineValue} {s t u : State}
      {h : Hint} {x : Value} {others : List Value}
      (htype : Signature.declaredType table p.name p.hint = .ok h)
      (hfirst : (h.decode (some world.resolving) v).runIn world s = (.ok x, t))
      (hrest : Admit world table takers rest t others u) :
      Admit world table (p :: takers) (v :: rest) s (x :: others) u

namespace Signature

variable {table : TypeTable} {sig : Signature} {world : World} {s t : State} {values : List Value}
variable {takers : List Parameter} {args : List EngineValue} {position : Nat}

/-- Where a signature knows the types of the parameters that take the arguments, these convert alike
by what is declared in either place. -/
theorem converts_iff_admit (hlength : takers.length = args.length)
    (htypes : ∀ i p, takers[i]? = some p →
      declaredType table p.name p.hint = .ok (sig.hintAt (position + i)) ∧
      sig.Declares (position + i) (sig.hintAt (position + i))) :
    sig.Converts world position args s values t ↔
      Parameter.Admit world table takers args s values t := by
  induction args generalizing takers position s values with
  | nil =>
    obtain rfl := List.eq_nil_of_length_eq_zero hlength
    constructor
    · intro hconverts
      cases hconverts
      exact .nil _
    · intro hadmit
      cases hadmit
      exact .nil _ _
  | cons v rest ih =>
    obtain ⟨p, takers, rfl⟩ := List.exists_cons_of_length_eq_add_one hlength
    obtain ⟨htype, hdeclares⟩ : declaredType table p.name p.hint = .ok (sig.hintAt position) ∧
        sig.Declares position (sig.hintAt position) := htypes 0 p rfl
    have hbehind : ∀ {u : State} {others : List Value},
        sig.Converts world (position + 1) rest u others t ↔
        Parameter.Admit world table takers rest u others t := by
      refine ih (Nat.succ.inj hlength) fun i q hq ↦ ?_
      rw [Nat.add_assoc, Nat.add_comm 1]
      exact htypes (i + 1) q hq
    constructor
    · rintro (_ | ⟨hdeclared, hfirst, hrest⟩)
      rw [hdeclared.eq_hintAt] at htype
      exact .cons htype hfirst (hbehind.mp hrest)
    · rintro (_ | ⟨hknown, hfirst, hrest⟩)
      rw [hknown] at htype
      cases htype
      exact .cons hdeclares hfirst (hbehind.mpr hrest)

theorem runIn_coerce_of_not_accepts (hrefused : sig.accepts args.length = false)
    (resolve : Option (EngineValue → Hint → Act Value)) :
    (sig.coerce resolve args).runIn world s = (.error (.call
      (.arity sig.name sig.required sig.params.length sig.variadic.isSome args.length)
        (some sig.name)), s) := by
  rw [coerce, if_neg (by simp [hrefused])]
  rfl

end Signature

/-- A signature and the function that it was read from agree on calls. For parameters in an order
that a function can have, the signature accepts just the numbers of arguments for which a call by
position binds. It knows for each argument of such a call the type that is declared for the
parameter that takes it, for those that are gathered the type of the gatherer. So the arguments of a
call convert exactly if the call binds and each converts to the type of its parameter, and where no
call binds, nothing is converted. -/
theorem accepts_iff_binds {table : TypeTable} {text : HostText} {f : FunctionLiteral}
    {sig : Signature} (horder : Parameter.InOrder f.params)
    (hsig : Signature.inspect table text (.function f) = .ok sig) :
    (∀ n, sig.accepts n = true ↔ ∃ takers, Parameter.Binds f.params n takers) ∧
    (∀ n takers, Parameter.Binds f.params n takers → takers.length = n ∧
      ∀ i p, takers[i]? = some p →
        Signature.declaredType table p.name p.hint = .ok (sig.hintAt i)) ∧
    (∀ (world : World) (args : List EngineValue) (s : State),
      (∀ values t, (sig.coerce (some world.resolving) args).runIn world s = (.ok values, t) ↔
        ∃ takers, Parameter.Binds f.params args.length takers ∧
          Parameter.Admit world table takers args s values t) ∧
      ((∀ takers, ¬ Parameter.Binds f.params args.length takers) →
        (sig.coerce (some world.resolving) args).runIn world s = (.error (.call
          (.arity sig.name sig.required sig.params.length sig.variadic.isSome args.length)
            (some sig.name)), s))) := by
  obtain ⟨hints, returns, htypes, hmade⟩ := Signature.exists_types_of_ofFunction hsig
  have hof := Signature.reading_of_ofParameters hmade
  have hparams : (f.params.zip hints).map (·.1) = f.params :=
    List.map_fst_zip (Nat.le_of_eq htypes.length_eq)
  rw [← hparams] at horder
  have haccepts : ∀ n, sig.accepts n = true ↔ ∃ takers, Parameter.Binds f.params n takers := by
    intro n
    rw [Signature.accepts_iff_exists_binds hof horder, hparams]
  have hknown : ∀ n takers, Parameter.Binds f.params n takers →
      ∀ i p, takers[i]? = some p →
        Signature.declaredType table p.name p.hint = .ok (sig.hintAt i) := by
    intro n takers hbinds i p htaker
    rw [← hparams] at hbinds
    exact List.forall₂_zip htypes (Signature.mem_of_taker hof horder hbinds htaker)
  refine ⟨haccepts, fun n takers hbinds ↦ ⟨hbinds.length_takers, hknown n takers hbinds⟩,
    fun world args s ↦ ⟨?_, ?_⟩⟩
  · intro values t
    rw [Signature.coerce_ok_iff, haccepts, ← exists_and_right]
    refine exists_congr fun takers ↦ and_congr_right fun hbinds ↦ ?_
    refine Signature.converts_iff_admit hbinds.length_takers fun i p htaker ↦ ?_
    rw [Nat.zero_add]
    have hi : i < args.length := hbinds.length_takers ▸ (List.getElem?_eq_some_iff.mp htaker).1
    exact ⟨hknown _ takers hbinds i p htaker,
      Signature.declares_hintAt ((haccepts _).mpr ⟨takers, hbinds⟩) hi⟩
  · intro hnone
    refine Signature.runIn_coerce_of_not_accepts ?_ _
    rw [Bool.eq_false_iff, Ne, haccepts]
    rintro ⟨takers, hbinds⟩
    exact hnone takers hbinds

/-- A function with a parameter of each kind, the second one with a default, as is the one that is
given by name. -/
def mixedFunction : FunctionLiteral :=
  .mk (some "mixed")
    [⟨"first", some (.int .unsized), .positionalOnly, false⟩,
      ⟨"second", some .text, .positional, true⟩, ⟨"others", some .symbol, .variadic, false⟩,
      ⟨"chosen", some .float, .keywordOnly, true⟩, ⟨"options", none, .keywordVariadic, false⟩]
    none true (.mk none [] false .count)

/-- One argument is needed, and there is room for any number: of four the last two are gathered, and
the fourth is to be a symbol. -/
theorem accepts_iff_binds_mixed :
    ∃ sig, Signature.inspect {} (.plain "mixed") (.function mixedFunction) = .ok sig ∧
      Parameter.InOrder mixedFunction.params ∧
        (¬∃ takers, Parameter.Binds mixedFunction.params 0 takers) ∧
      sig.accepts 1 = true ∧ sig.accepts 4 = true ∧ sig.hintAt 3 = .symbol := by
  have horder : Parameter.InOrder mixedFunction.params := ⟨by decide, by decide⟩
  have hsig : Signature.inspect {} (.plain "mixed") (.function mixedFunction) = .ok
      { text := .plain "mixed", params := [.int .unsized, .text], required := 1,
        variadic := some .symbol
        returns := .any, errorTerminal := false } := rfl
  obtain ⟨haccepts, htypes, -⟩ := accepts_iff_binds horder hsig
  have hfour : ∃ takers, Parameter.Binds mixedFunction.params 4 takers ∧
      takers[3]? = some ⟨"others", some .symbol, .variadic, false⟩ :=
    ⟨_, .takes rfl (.takes rfl (.gathers rfl (.unnamed rfl rfl (.nameless rfl .done)))), rfl⟩
  have hone : ∃ takers, Parameter.Binds mixedFunction.params 1 takers :=
    ⟨_, .takes rfl (.omitted rfl rfl (.gathers rfl (.unnamed rfl rfl (.nameless rfl .done))))⟩
  obtain ⟨takers, hbinds, hlast⟩ := hfour
  refine ⟨_, hsig, horder, mt (haccepts 0).mpr (by decide), (haccepts 1).mpr hone,
    (haccepts 4).mpr ⟨takers, hbinds⟩, ?_⟩
  have hsymbol := (htypes 4 takers hbinds).2 3 _ hlast
  exact (Except.ok.inj hsymbol).symm

end RuleMarshal
