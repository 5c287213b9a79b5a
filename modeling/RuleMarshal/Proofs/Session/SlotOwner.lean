import RuleMarshal.Proofs.Environment.Sending
import RuleMarshal.Proofs.Session.Refusal
/-!
Slots of what is gone. A slot that a template or a class has listed holds the handle that listed it
(`SlotObject.exists_of_listed`) and outlives what that refers to. All its properties but its name
and one other begin with the check of that handle (`SlotObject.check_beginsWith_property`), so they
are refused with it, now and after whatever a host program does (`SlotObject.stale_refused_after`),
or once the engine has denied that the construct exists (`SlotObject.runIn_property_of_denied`).

The other one is whether a slot of a class can be written. It is asked for by the names of the class
and of the slot alone (`SlotObject.runIn_writable_congr`), and as long as the environment is open
the question is sent (`SlotObject.history_of_writable`). So a slot of a class that is gone tells of
a newer class of its name (`writable_of_redefined`).
-/

set_option autoImplicit false
set_option relaxedAutoImplicit false

namespace RuleMarshal

open Act

/-- A slot of a template or of a class in the host program, with the handle that listed it, its name
and its number. -/
inductive SlotObject where
  | ofTemplate (owner : TemplateHandle) (name : String) (serial : Nat)
  | ofClass (owner : ClassHandle) (name : String) (serial : Nat)

namespace SlotObject

/-- The handle that listed a slot. -/
def owner : SlotObject → Handle
  | .ofTemplate owner _ _ => .template owner
  | .ofClass owner _ _ => .defclass owner

/-- A slot as a value of the host program. -/
def toValue : SlotObject → Value
  | .ofTemplate owner name serial => .templateSlot owner name serial
  | .ofClass owner name serial => .classSlot owner name serial

/-- The properties of a slot for which its owner is checked first. -/
def checkedProperties : SlotObject → List Method
  | .ofTemplate .. => [.multifield, .types, .defaultValue, .allowedValues, .range, .cardinality]
  | .ofClass .. => [.multifield, .types, .allowedClasses, .defaultValue, .allowedValues,
      .range, .cardinality]

variable {world : World} {s t : State} {slot : SlotObject} {method : Method}

/-- Whatever is listed for some names was made for one of them. -/
theorem exists_of_slotValues {H : Type} {h : H} {make : H → String → Nat → Value}
    {names : List String} {listed : List Value}
    (hrun : (slotValues h make names).runIn world s = (.ok (.list listed), t)) :
    ∀ v ∈ listed, ∃ name serial, v = make h name serial := by
  intro v hv
  obtain ⟨found, u, hmade, hreturn⟩ := ok_of_bind hrun
  cases hreturn
  obtain ⟨name, -, _, _, hslot⟩ := exists_run_of_mem_mapM hmade hv
  obtain ⟨serial, _, -, hslot⟩ := ok_of_bind hslot
  cases hslot
  exact ⟨name, serial, rfl⟩

/-- What a template or a class lists are slots that hold the handle that they were asked for on. -/
theorem exists_of_listed {h : Handle} (hconstruct : h.construct?.isSome) {b : Bound}
    {listed : List Value}
    (hrun : (callReceiver h.toValue .slots b).runIn world s = (.ok (.list listed), t)) :
    ∀ v ∈ listed, ∃ slot : SlotObject, slot.toValue = v ∧ slot.owner = h := by
  intro v hv
  cases h with
  | inst h => cases hconstruct
  | fact h => cases hconstruct
  | template h =>
    obtain ⟨names, u, -, hvalues⟩ := ok_of_bind hrun
    obtain ⟨name, serial, rfl⟩ := exists_of_slotValues hvalues v hv
    exact ⟨.ofTemplate h name serial, rfl, rfl⟩
  | defclass h =>
    obtain ⟨names, u, -, hvalues⟩ := ok_of_bind hrun
    obtain ⟨name, serial, rfl⟩ := exists_of_slotValues hvalues v hv
    exact ⟨.ofClass h name serial, rfl, rfl⟩

/-! ### Properties that begin with the check of the owner -/

/-- Whatever can be asked of a slot is its name, a property for which its owner is checked first, or
whether it can be written, which is asked of slots of classes only. -/
theorem property_cases {access : Access}
    (haccess : receiverAccess? slot.toValue method = some access) :
    method = .name ∨ method ∈ slot.checkedProperties ∨
      (method = .writable ∧ ∃ owner name serial, slot = .ofClass owner name serial) := by
  cases slot with
  | ofTemplate owner name serial =>
    cases method <;> cases haccess <;> simp [checkedProperties]
  | ofClass owner name serial =>
    cases method <;> cases haccess <;> simp [checkedProperties]

/-- Each of these properties begins with the check of the owner. -/
theorem check_beginsWith_property (hmethod : method ∈ slot.checkedProperties) (b : Bound) :
    slot.owner.check.BeginsWith world (callReceiver slot.toValue method b) := by
  cases slot with
  | ofTemplate owner name serial =>
    have hfacet (f : TemplateFacet) : owner.check.BeginsWith world (owner.facet name f) :=
      (BeginsWith.self owner.check world).bind
    simp only [checkedProperties, List.mem_cons, List.not_mem_nil, or_false] at hmethod
    rcases hmethod with rfl | rfl | rfl | rfl | rfl | rfl <;> exact (hfacet _).bind
  | ofClass owner name serial =>
    have hfacet (f : ClassFacet) : owner.check.BeginsWith world (owner.facet name f) :=
      (BeginsWith.self owner.check world).bind
    simp only [checkedProperties, List.mem_cons, List.not_mem_nil, or_false] at hmethod
    rcases hmethod with rfl | rfl | rfl | rfl | rfl | rfl | rfl
    · exact (hfacet .all).bind.bind
    all_goals exact (hfacet _).bind

theorem runIn_property_of_notCurrent (hmethod : method ∈ slot.checkedProperties) (b : Bound)
    (hstale : slot.owner.isCurrent s = false) :
    (callReceiver slot.toValue method b).runIn world s = (.error (.stale slot.owner.gone), s) :=
  check_beginsWith_property hmethod b s _ s (Handle.runIn_check_of_notCurrent hstale)

/-- The slot itself is not asked about if the engine denies that its owner exists. -/
theorem runIn_property_of_denied (hmethod : method ∈ slot.checkedProperties) (b : Bound)
    (hcurrent : slot.owner.isCurrent s = true) (hdenied : slot.owner.Denied world s t) :
    (callReceiver slot.toValue method b).runIn world s = (.error (.stale slot.owner.gone), t) :=
  check_beginsWith_property hmethod b s _ t (Handle.runIn_check_of_denied hcurrent hdenied)

/-- Once the owner of a slot is not current, its properties are refused and nothing is sent for
them, whatever a host program does meanwhile. -/
theorem stale_refused_after (hworld : world.Orderly) (hmethod : method ∈ slot.checkedProperties)
    (b : Bound) (hknown : slot.owner.IsKnown s) (hstale : slot.owner.isCurrent s = false)
    (steps : List Step) :
    (callReceiver slot.toValue method b).runIn world (world.after steps s) =
      (.error (.stale slot.owner.gone), world.after steps s) :=
  runIn_property_of_notCurrent hmethod b
    (Handle.notCurrent_of_le (evolves_reports hworld steps s).le hknown hstale)

/-! ### Whether a slot of a class can be written -/

section

variable {owner other : ClassHandle} {name : String}

theorem callReceiver_writable (serial : Nat) (b : Bound) :
    callReceiver (.classSlot owner name serial) .writable b =
      owner.isWritable name >>= fun found ↦ pure (Value.bool found) := rfl

/-- The owner comes into the question by its name alone, whenever it was handed out. -/
theorem runIn_writable_congr (hname : owner.name = other.name) (serial number : Nat) (b : Bound) :
    (callReceiver (.classSlot owner name serial) .writable b).runIn world s =
      (callReceiver (.classSlot other name number) .writable b).runIn world s := by
  have hsame : owner.isWritable name = other.isWritable name := by
    unfold ClassHandle.isWritable
    rw [hname]
  rw [callReceiver_writable, callReceiver_writable, hsame]

theorem runIn_writable_of_closed (hclosed : s.closed = true) (serial : Nat) (b : Bound) :
    (callReceiver (.classSlot owner name serial) .writable b).runIn world s =
      (.error (.stale .closed), s) := by
  have hsend : (Channel.send (.evaluate (.classFacet .isWritable owner.name name)) .expression
      (Expression.classFacet .isWritable owner.name name).sent).runIn world s =
        (.error (.stale .closed), s) := by
    unfold Channel.send
    rw [Channel.runIn_requireOpen_bind, if_pos hclosed]
  exact error_of_bind (error_of_bind (runIn_checked_of_error (error_of_bind hsend) rfl))

/-- In an open environment the question is sent, current or not as the owner may be. -/
theorem history_of_writable (hworld : world.Orderly) (hopen : s.closed = false) (serial : Nat)
    (b : Bound) :
    (s.history.push (.command (.evaluate (.classFacet .isWritable owner.name name)))).toList <+:
      ((callReceiver (.classSlot owner name serial) .writable b).runIn world
        s).2.history.toList := by
  have hrest : Proceeds world ((eval (.classFacet .isWritable owner.name name)).runIn world s).2
      ((owner.isWritable name).runIn world s).2 :=
    Act.Keeps.after_bind (fun _ ↦ .pure _) s
  have hbool : Proceeds world ((owner.isWritable name).runIn world s).2
      ((callReceiver (.classSlot owner name serial) .writable b).runIn world s).2 :=
    Act.Keeps.after_bind (fun _ ↦ .pure _) s
  exact (history_of_eval hworld hopen _).trans ((hrest.trans hbool).history_grows hworld)

end

end SlotObject

/-! ### A newer class -/

/-- An engine that agrees to everything, and has a class unless the removal of one was its last
order. -/
def redefiningEngine (history : Array Event) : Command → Reply
  | .evaluate (.classQuery .isDefined _) =>
    match history.back? with
    | some (.command (.evaluate (.undefine ..))) => { outcome := .ok (.symbol "FALSE") }
    | _ => { outcome := .ok (.symbol "TRUE") }
  | _ => { outcome := .ok (.symbol "TRUE") }

/-- What the removal of a class leads to. -/
def boxRemoved : State where
  generations := [((.defclass, "Box"), 1)]
  history :=
    #[.command (.evaluate (.classQuery .isDefined "Box")),
      .command (.evaluate (.undefine true "Box")),
      .command (.evaluate (.classQuery .isDefined "Box"))]

/-- What its definition anew leads to. -/
def boxRedefined : State :=
  { boxRemoved with
    history := boxRemoved.history.push
      (.command (.build (.text "(defclass Box (is-a USER) (slot content))"))) }

/-- A class is removed and defined anew. A slot of the old one is refused its range, and nothing is
sent for that; but it says that it can be written, and the engine was asked for that about the slot
of the new one. -/
theorem writable_of_redefined :
    let world := World.ofDepth {} {} redefiningEngine 1
    let h : ClassHandle := ⟨.plain "Box", (0, 0), 0⟩
    let slot : SlotObject := .ofClass h "content" 1
    h.undefine.runIn world {} = (.ok ⟨⟩, boxRemoved) ∧
      (Environment.build (.text "(defclass Box (is-a USER) (slot content))")).runIn world
        boxRemoved = (.ok ⟨⟩, boxRedefined) ∧
      slot.owner.isCurrent boxRedefined = false ∧
      (callReceiver slot.toValue .range {}).runIn world boxRedefined =
        (.error (.stale (.classGone "Box")), boxRedefined) ∧
      (callReceiver slot.toValue .writable {}).runIn world boxRedefined =
        (.ok (.bool true),
          { boxRedefined with
            history := boxRedefined.history.push
              (.command (.evaluate (.classFacet .isWritable "Box" "content"))) }) := by
  have hsent : (Environment.sent (.text "(defclass Box (is-a USER) (slot content))")).runIn
      (World.ofDepth {} {} redefiningEngine 1) boxRemoved =
        (.ok (.text "(defclass Box (is-a USER) (slot content))"), boxRemoved) := by
    unfold Environment.sent
    rw [runIn_bind, runIn_get]
    dsimp only
    rw [Heap.content_text]
    rfl
  have hbuild : (Environment.build (.text "(defclass Box (is-a USER) (slot content))")).runIn
      (World.ofDepth {} {} redefiningEngine 1) boxRemoved = (.ok ⟨⟩, boxRedefined) := by
    have hguard : (guardMutation "build").runIn (World.ofDepth {} {} redefiningEngine 1)
        boxRemoved = (.ok ⟨⟩, boxRemoved) := rfl
    unfold Environment.build
    rw [runIn_bind_of_ok hguard]
    refine runIn_checked_of_unparked ?_ nofun rfl
    rw [runIn_bind_of_ok hsent]
    rfl
  exact ⟨Prod.ext rfl rfl, hbuild, rfl, SlotObject.runIn_property_of_notCurrent (by decide) {} rfl,
    Prod.ext rfl rfl⟩

end RuleMarshal
