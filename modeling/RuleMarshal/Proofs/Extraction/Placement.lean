import RuleMarshal.Proofs.Extraction.Filling
import RuleMarshal.Proofs.Extraction.Meanwhile
import RuleMarshal.Proofs.Extraction.Visit
/-!
What places hold. After values were stored in places of a cell, each of these places holds one that
was stored in it (`Cell.exists_of_withPlaces`), all others hold what they held before
(`Cell.place?_withPlaces`), and the other entries of a mapping are what they were, in the same order
(`otherEntries_withPlaces`). For slots this comes to `EntriesMerged` and `FieldsMerged`.

A walk along places that comes to an end has converted something for each of them and stored it
before the next (`transfers_of_forM`). Where the functions that the engine calls meanwhile leave the
cell, the cell then holds what was stored (`Transfers.get?_eq`): what is converted for one place
does not touch what was stored in another, also where it leads back to the target.
-/

set_option autoImplicit false
set_option relaxedAutoImplicit false

namespace RuleMarshal

open Act

/-! ### Places of cells -/

/-- What a cell holds in a place: under a key of a mapping, or in an attribute of an object. -/
def Cell.place? (cell : Cell) (key : String) : Option Value :=
  match cell with
  | .mapping entries => (entries.find? fun p ↦ p.1.scalarEq (.text key)).map (·.2)
  | .object attrs => attrs.lookup key
  | _ => none

/-- Whether a cell is a mapping or an object. -/
def Cell.hasPlaces : Cell → Bool
  | .mapping _ | .object _ => true
  | _ => false

/-- The entries of a mapping whose keys are none of some names. -/
def otherEntries (names : List String) (entries : List (Value × Value)) : List (Value × Value) :=
  entries.filter fun p ↦ !names.any fun name ↦ p.1.scalarEq (.text name)

section

variable {cell : Cell} {key other : String} {v : Value} {stored : List (SlotPlace × Value)}

theorem Cell.hasPlaces_withPlace (key : String) (v : Value) :
    (cell.withPlace key v).hasPlaces = cell.hasPlaces := by
  cases cell <;> rfl

theorem Cell.place?_withPlace_self (hcell : cell.hasPlaces = true) :
    (cell.withPlace key v).place? key = some v := by
  cases cell with
  | mapping entries => exact find?_putEntry_self entries key v
  | object attrs => exact lookup_putNamed_self attrs key v
  | _ => cases hcell

theorem Cell.place?_withPlace_ne (hne : other ≠ key) :
    (cell.withPlace key v).place? other = cell.place? other := by
  cases cell with
  | mapping entries => exact find?_putEntry_ne entries v hne
  | object attrs => exact lookup_putNamed_ne attrs v hne
  | _ => rfl

/-- A place that nothing is stored in holds what it held before. -/
theorem Cell.place?_withPlaces (hkey : key ∉ stored.map (·.1.key)) :
    (cell.withPlaces stored).place? key = cell.place? key := by
  induction stored generalizing cell with
  | nil => rfl
  | cons p rest ih =>
    rw [List.map_cons, List.mem_cons, not_or] at hkey
    show ((cell.withPlace p.1.key p.2).withPlaces rest).place? key = _
    rw [ih hkey.2, place?_withPlace_ne hkey.1]

/-- A place that something is stored in holds one of the values that were stored in it. -/
theorem Cell.exists_of_withPlaces (hcell : cell.hasPlaces = true)
    (hkey : key ∈ stored.map (·.1.key)) :
    ∃ p ∈ stored, p.1.key = key ∧ (cell.withPlaces stored).place? key = some p.2 := by
  induction stored generalizing cell with
  | nil => exact absurd hkey List.not_mem_nil
  | cons p rest ih =>
    by_cases hlater : key ∈ rest.map (·.1.key)
    · have hplaced : (cell.withPlace p.1.key p.2).hasPlaces = true := by
        rw [hasPlaces_withPlace, hcell]
      obtain ⟨q, hq, hqkey, hholds⟩ := ih hplaced hlater
      exact ⟨q, List.mem_cons_of_mem _ hq, hqkey, hholds⟩
    · -- nothing is stored here afterwards
      rw [List.map_cons, List.mem_cons, or_iff_left hlater] at hkey
      refine ⟨p, List.mem_cons_self, hkey.symm, ?_⟩
      show ((cell.withPlace p.1.key p.2).withPlaces rest).place? key = _
      rw [place?_withPlaces hlater, hkey, place?_withPlace_self hcell]

theorem otherEntries_putEntry {names : List String} (hkey : key ∈ names)
    (entries : List (Value × Value)) :
    otherEntries names (putEntry entries (.text key) v) = otherEntries names entries := by
  have hnamed : ∀ k : Value, k.scalarEq (.text key) = true →
      (!names.any fun name ↦ k.scalarEq (.text name)) = false := by
    intro k hk
    rw [Bool.not_eq_false', List.any_eq_true]
    exact ⟨key, hkey, hk⟩
  unfold otherEntries
  induction entries with
  | nil => simp [putEntry, hnamed (.text key) ((scalarEq_text _ key).mpr rfl)]
  | cons p rest ih =>
    rw [putEntry]
    split
    case isTrue heq => simp [hnamed p.1 heq]
    case isFalse => rw [List.filter_cons, List.filter_cons, ih]

/-- The entries of a mapping that nothing is stored in are what they were, in the same order. -/
theorem otherEntries_withPlaces {names : List String} {entries after : List (Value × Value)}
    (hstored : ∀ p ∈ stored, p.1.key ∈ names)
    (hafter : (Cell.mapping entries).withPlaces stored = .mapping after) :
    otherEntries names after = otherEntries names entries := by
  induction stored generalizing entries with
  | nil =>
    cases hafter
    rfl
  | cons p rest ih =>
    rw [List.forall_mem_cons] at hstored
    rw [ih hstored.2 hafter, otherEntries_putEntry hstored.1]

theorem Cell.exists_mapping_of_withPlaces (entries : List (Value × Value))
    (stored : List (SlotPlace × Value)) :
    ∃ after, (Cell.mapping entries).withPlaces stored = .mapping after := by
  induction stored generalizing entries with
  | nil => exact ⟨entries, rfl⟩
  | cons p rest ih => exact ih (putEntry entries (.text p.1.key) p.2)

theorem Cell.exists_object_of_withPlaces (attrs : List (String × Value))
    (stored : List (SlotPlace × Value)) :
    ∃ after, (Cell.object attrs).withPlaces stored = .object after := by
  induction stored generalizing attrs with
  | nil => exact ⟨attrs, rfl⟩
  | cons p rest ih => exact ih (putNamed attrs p.1.key p.2)

end

/-! ### What a merge comes to -/

/-- A mapping with slots merged into it: under the name of each slot stands what was converted for
it, and the other entries are what they were, in the same order. -/
structure EntriesMerged (names : List String) (stored : List (SlotPlace × Value))
    (before after : List (Value × Value)) : Prop where
  places : stored.map Prod.fst = names.map .ofName
  merged : ∀ name ∈ names, ∃ v,
    (.ofName name, v) ∈ stored ∧ (Cell.mapping after).place? name = some v
  others : otherEntries names after = otherEntries names before

/-- What stands in a place where something was stored is what was stored for that place, if no other
place has its key. -/
theorem exists_mem_of_withPlaces {cell : Cell} (place : SlotPlace)
    {stored : List (SlotPlace × Value)} (hcell : cell.hasPlaces = true)
    (hplace : place ∈ stored.map Prod.fst)
    (hsole : ∀ other ∈ stored.map Prod.fst, other.key = place.key → other = place) :
    ∃ v, (place, v) ∈ stored ∧ (cell.withPlaces stored).place? place.key = some v := by
  obtain ⟨q, hq, rfl⟩ := List.mem_map.mp hplace
  obtain ⟨p, hp, hkey, hholds⟩ :=
    Cell.exists_of_withPlaces hcell (List.mem_map_of_mem (f := (·.1.key)) hq)
  have hsame : p.1 = q.1 := hsole p.1 (List.mem_map_of_mem hp) hkey
  exact ⟨p.2, hsame ▸ hp, hholds⟩

theorem entriesMerged_of_withPlaces {names : List String} {stored : List (SlotPlace × Value)}
    {before after : List (Value × Value)} (hplaces : stored.map Prod.fst = names.map .ofName)
    (hafter : (Cell.mapping before).withPlaces stored = .mapping after) :
    EntriesMerged names stored before after where
  places := hplaces
  merged name hname := by
    rw [← hafter]
    refine exists_mem_of_withPlaces (.ofName name) rfl ?_ fun other hother hkey ↦ ?_
    · rw [hplaces]
      exact List.mem_map_of_mem hname
    · rw [hplaces] at hother
      obtain ⟨n, -, rfl⟩ := List.mem_map.mp hother
      exact congrArg SlotPlace.ofName hkey
  others := by
    refine otherEntries_withPlaces (fun p hp ↦ ?_) hafter
    obtain ⟨name, hname, heq⟩ := List.mem_map.mp (hplaces ▸ List.mem_map_of_mem hp)
    rw [← heq]
    exact hname

/-- An object with slots merged into it, by what its attributes hold before and after: a field with
a slot holds what was converted for it, a field without one what it held, and slots without a field
go nowhere. -/
structure FieldsMerged (names : List String) (fields : List Field)
    (stored : List (SlotPlace × Value)) (before after : String → Option Value) : Prop where
  places : stored.map Prod.fst = (fields.filter fun f ↦ names.contains f.engineName).map .ofField
  merged : ∀ f ∈ fields, f.engineName ∈ names → ∃ v,
    (.ofField f, v) ∈ stored ∧ after f.attr = some v
  others : ∀ f ∈ fields, f.engineName ∉ names → after f.attr = before f.attr

theorem mem_places_iff {names : List String} {fields : List Field}
    {stored : List (SlotPlace × Value)}
    (hplaces : stored.map Prod.fst =
      (fields.filter fun f ↦ names.contains f.engineName).map .ofField)
    {place : SlotPlace} :
    place ∈ stored.map Prod.fst ↔ ∃ f ∈ fields,
      f.engineName ∈ names ∧ SlotPlace.ofField f = place := by
  rw [hplaces]
  simp [and_assoc]

theorem fieldsMerged_of_withPlaces {names : List String} {fields : List Field}
    {stored : List (SlotPlace × Value)} {before after : List (String × Value)}
    (hplaces : stored.map Prod.fst =
      (fields.filter fun f ↦ names.contains f.engineName).map .ofField)
    (hattrs : (fields.map (·.attr)).Nodup)
    (hafter : (Cell.object before).withPlaces stored = .object after) :
    FieldsMerged names fields stored (before.lookup ·) (after.lookup ·) where
  places := hplaces
  merged f hf hnamed := by
    have hplace : (Cell.object after).place? f.attr = after.lookup f.attr := rfl
    rw [← hplace, ← hafter]
    refine exists_mem_of_withPlaces (.ofField f) rfl ?_ fun other hother hkey ↦ ?_
    · exact (mem_places_iff hplaces).mpr ⟨f, hf, hnamed, rfl⟩
    · obtain ⟨g, hg, -, rfl⟩ := (mem_places_iff hplaces).mp hother
      rw [List.inj_on_of_nodup_map hattrs hg hf hkey]
  others f hf hmissing := by
    have hplace : (Cell.object after).place? f.attr = after.lookup f.attr := rfl
    rw [← hplace, ← hafter, Cell.place?_withPlaces]
    · rfl
    · intro hkey
      obtain ⟨p, hp, hsame⟩ := List.mem_map.mp hkey
      obtain ⟨g, hg, hnamed, heq⟩ := (mem_places_iff hplaces).mp (List.mem_map_of_mem hp)
      rw [← heq] at hsame
      obtain rfl : g = f := List.inj_on_of_nodup_map hattrs hg hf hsame
      exact hmissing hnamed

/-! ### Transfers -/

/-- The course of a walk along places: one after the other, something is converted for a place and
stored there, in the state that the walk has come to. -/
inductive Transfers (world : World) (reader : SlotReader) (target : Value) :
    List (SlotPlace × Value) → State → State → Prop where
  | done (s : State) : Transfers world reader target [] s s
  | next {place : SlotPlace} {v : Value} {rest : List (SlotPlace × Value)} {s t u w : State}
      (hconverts : (reader.convert place).runIn world s = (.ok v, t))
      (hstores : (target.store place.key v).runIn world t = (.ok ⟨⟩, u))
      (hrest : Transfers world reader target rest u w) :
        Transfers world reader target ((place, v) :: rest) s w

section

variable {world : World} {reader : SlotReader} {target : Value} {places : List SlotPlace}
variable {s t : State}
variable {stored : List (SlotPlace × Value)}

/-- A walk that comes to an end has stored something in every place. -/
theorem transfers_of_forM
    (hrun : Act.runIn (places.forM fun place ↦ reader.convert place >>= target.store place.key)
      world s = (.ok ⟨⟩, t)) :
    ∃ stored, stored.map Prod.fst = places ∧ Transfers world reader target stored s t := by
  induction places generalizing s with
  | nil =>
    cases hrun
    exact ⟨[], rfl, .done _⟩
  | cons place rest ih =>
    have hrun : Act.runIn ((reader.convert place >>= target.store place.key) >>= fun _ ↦
        rest.forM fun place ↦ reader.convert place >>= target.store place.key) world s =
          (.ok ⟨⟩, t) := hrun
    obtain ⟨⟨⟩, w, hfirst, hlater⟩ := ok_of_bind hrun
    obtain ⟨v, u, hconverts, hstores⟩ := ok_of_bind hfirst
    obtain ⟨stored, hplaces, htransfers⟩ := ih hlater
    exact ⟨(place, v) :: stored, by rw [List.map_cons, hplaces], .next hconverts hstores htransfers⟩

theorem eq_of_store {key : String} {v : Value}
    (hstores : (target.store key v).runIn world s = (.ok ⟨⟩, t)) :
    t.calls = s.calls ∧ t.heap.cells.size = s.heap.cells.size := by
  unfold Value.store putKey assign at hstores
  cases target <;> cases hstores <;> first | exact ⟨rfl, rfl⟩ | exact ⟨rfl, by simp [Heap.put]⟩

/-- A walk forgets no call. -/
theorem Transfers.callsGrow (htransfers : Transfers world reader target stored s t)
    (hreader : reader.Inquires) : CallsGrow s t := by
  induction htransfers with
  | done s => exact refl_of CallsGrow s
  | next hconverts hstores _ ih =>
    have hcalled := (hreader.keeps_convert CallsGrow.extracting _).of_runIn hconverts
    exact trans_of CallsGrow hcalled (trans_of CallsGrow (.of_calls_eq (eq_of_store hstores).1) ih)

/-- A walk drops no cells. -/
theorem Transfers.size_le (htransfers : Transfers world reader target stored s t)
    (hreader : reader.Inquires) (hgrowing : world.Growing) :
    s.heap.cells.size ≤ t.heap.cells.size := by
  induction htransfers with
  | done => exact Nat.le_refl _
  | next hconverts hstores _ ih =>
    have hgrows : HeapGrows _ _ := (hreader.keeps_convert hgrowing.extracting _).of_runIn hconverts
    exact Nat.le_trans hgrows ((eq_of_store hstores).2 ▸ ih)

/-- Where the functions called meanwhile leave the cell of the target, it holds in the end what was
stored. -/
theorem Transfers.get?_eq {id : Nat} {cell : Cell} {type : Hint}
    (htransfers : Transfers world reader target stored s t) (hreader : reader.Inquires)
    (hgrowing : world.Growing) (htarget : target.FillableAs world.types id cell type)
    (hleave : CallsLeave id s t) (hcell : s.heap.get? id = some cell) :
    t.heap.get? id = some (cell.withPlaces stored) := by
  induction htransfers generalizing cell with
  | done => exact hcell
  | @next place v rest s t u w hconverts hstores hrest ih =>
    have hid : id < s.heap.cells.size := Heap.lt_size_of_get? hcell
    have hkept : (reader.convert place).Keeps (StaysMeanwhile id) world :=
      hreader.keeps_convert (StaysMeanwhile.extracting hgrowing) place
    have hfares : Fares id s t := hkept.of_runIn hconverts hid
    have htu : CallsGrow t u := .of_calls_eq (eq_of_store hstores).1
    have huw : CallsGrow u w := hrest.callsGrow hreader
    have hsooner : CallsLeave id s t :=
      hleave.within (refl_of CallsGrow s) hfares.called (trans_of CallsGrow htu huw)
    have hafter : CallsLeave id u w :=
      hleave.within (trans_of CallsGrow hfares.called htu) huw (refl_of CallsGrow w)
    obtain ⟨_, hrun, hstored⟩ :=
      htarget.runIn_store ((hfares.stays hsooner).trans hcell) world place.key v
    cases hstores.symm.trans hrun
    exact ih (htarget.withPlace place.key v) hafter hstored

end

end RuleMarshal
