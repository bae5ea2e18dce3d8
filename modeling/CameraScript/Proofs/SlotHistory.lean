import CameraScript.Camera

/-!
# The history of the function slots

A registration flags the slot that the game chose, and the first dispatch that finds a
function in the slot takes the flag away again. The game also fills and empties its slots
by itself, of which the subsystem learns nothing: the flag stays with the slot, whatever
function comes to be in it.
-/

namespace CameraScript

namespace SlotTable

def held (table : SlotTable) (slot : Fin slotCount) : UInt32 :=
  getElem table.functions slot.val slot.isLt

def timing (table : SlotTable) (slot : Fin slotCount) : Int16 :=
  getElem table.timings slot.val slot.isLt

end SlotTable

inductive SlotAct where
  /-- The game chose the slot for the function. -/
  | registered (function : UInt32) (slot : Nat)
  | changed
  | dispatched

/-- One event in the life of the slots, with what they held before it and after it. -/
structure SlotEvent where
  act : SlotAct
  before : SlotTable
  after : SlotTable

namespace SlotEvent

def Finds (event : SlotEvent) (slot : Fin slotCount) : Prop :=
  event.act = .dispatched ∧ event.before.held slot ≠ 0

/-- The game itself puts another handle in the slot, or empties it. -/
def Replaces (event : SlotEvent) (slot : Fin slotCount) : Prop :=
  (∀ function chosen, event.act ≠ .registered function chosen) ∧
    event.before.held slot ≠ event.after.held slot

def StoresFree (event : SlotEvent) : Prop :=
  ∀ function chosen, event.act = .registered function chosen →
    ∃ slot : Fin slotCount, slot.val = chosen ∧ event.before.held slot = 0 ∧
      event.after.functions = event.before.functions.set slot function slot.isLt

/-- No dispatch has found a function in the slot since a registration chose it. -/
def Owed (events : List SlotEvent) (slot : Fin slotCount) : Prop :=
  ∃ earlier event later function, events = earlier ++ event :: later ∧
    event.act = .registered function slot ∧ ∀ other ∈ later, ¬ other.Finds slot

/-- A registration for which the slot is owed has its function in the slot, unless the game
has replaced it. -/
def Unsettled (events : List SlotEvent) (slot : Fin slotCount) (held : UInt32) : Prop :=
  ∃ earlier event later function, events = earlier ++ event :: later ∧
    event.act = .registered function slot ∧ (∀ other ∈ later, ¬ other.Finds slot) ∧
      ((∀ other ∈ later, ¬ other.Replaces slot) → held = function)

variable {event : SlotEvent} {events : List SlotEvent} {slot : Fin slotCount}

theorem not_owed_nil : ¬ Owed [] slot := by
  rintro ⟨earlier, event, later, function, split, -⟩
  simp at split

/-- What the last event does to a debt: a registration makes one, and a dispatch that finds a
function pays it. -/
theorem owed_concat_iff :
    Owed (events ++ [event]) slot ↔
      (∃ function, event.act = .registered function slot) ∨
        (Owed events slot ∧ ¬ event.Finds slot) := by
  constructor
  · rintro ⟨earlier, first, later, function, split, registered, waiting⟩
    rcases List.eq_nil_or_concat later with rfl | ⟨between, last, rfl⟩
    · obtain ⟨-, same⟩ := List.append_inj' split rfl
      cases same
      exact .inl ⟨function, registered⟩
    · rw [List.concat_eq_append, ← List.cons_append, ← List.append_assoc] at split
      obtain ⟨before, same⟩ := List.append_inj' split rfl
      cases same
      rw [List.concat_eq_append] at waiting
      refine .inr ⟨⟨earlier, first, between, function, before, registered, ?_⟩, ?_⟩
      · exact fun other member => waiting other (List.mem_append_left _ member)
      · exact waiting event (by simp)
  · rintro (⟨function, registered⟩ | ⟨⟨earlier, first, later, function, rfl, registered, waiting⟩,
      unfound⟩)
    · exact ⟨events, event, [], function, rfl, registered, by simp⟩
    · refine ⟨earlier, first, later ++ [event], function, by simp, registered, ?_⟩
      intro other member
      rcases List.mem_append.mp member with before | last
      · exact waiting other before
      · rw [List.mem_singleton.mp last]
        exact unfound

theorem held_of_registered (stores : event.StoresFree) {function : UInt32}
    (registered : event.act = .registered function slot) :
    event.after.held slot = function := by
  obtain ⟨chosen, same, -, stored⟩ := stores function slot registered
  have equal : chosen = slot := Fin.ext same
  simp [SlotTable.held, stored, equal]

theorem held_of_kept (stores : event.StoresFree) (kept : ¬ event.Replaces slot)
    (unchosen : ∀ function, event.act ≠ .registered function slot) :
    event.after.held slot = event.before.held slot := by
  by_cases registered : ∃ function chosen, event.act = .registered function chosen
  · obtain ⟨function, chosen, act⟩ := registered
    obtain ⟨other, same, -, stored⟩ := stores function chosen act
    have apart : other.val ≠ slot.val := by
      intro equal
      exact unchosen function (by rw [act, ← same, equal])
    simp [SlotTable.held, stored, apart]
  · refine Decidable.byContradiction fun differs => kept ⟨?_, fun same => differs same.symm⟩
    exact fun function chosen act => registered ⟨function, chosen, act⟩

theorem unsettled_of_registered (stores : event.StoresFree) {function : UInt32}
    (registered : event.act = .registered function slot) :
    Unsettled (events ++ [event]) slot (event.after.held slot) :=
  ⟨events, event, [], function, rfl, registered, by simp,
    fun _ => held_of_registered stores registered⟩

theorem Unsettled.next (unsettled : Unsettled events slot (event.before.held slot))
    (stores : event.StoresFree) (unfound : ¬ event.Finds slot)
    (unchosen : ∀ function, event.act ≠ .registered function slot) :
    Unsettled (events ++ [event]) slot (event.after.held slot) := by
  obtain ⟨earlier, first, later, function, split, registered, waiting, held⟩ := unsettled
  refine ⟨earlier, first, later ++ [event], function, by simp [split], registered, ?_, ?_⟩
  · intro other member
    rcases List.mem_append.mp member with before | last
    · exact waiting other before
    · rw [List.mem_singleton.mp last]
      exact unfound
  · intro kept
    rw [held_of_kept stores (kept event (by simp)) unchosen]
    exact held fun other member => kept other (List.mem_append_left _ member)

end SlotEvent

namespace SlotFlags

theorem is_set_eq (slots : SlotFlags) (slot : Fin slotCount) :
    slots.isSet slot = getElem slots.flags slot.val slot.isLt := by
  simp [isSet]

theorem is_set_clear (slot : Fin slotCount) : clear.isSet slot = false := by
  simp [is_set_eq, clear]

theorem is_set_register {Native : Type} (host : FunctionHost Native) (slots : SlotFlags)
    (native : Native) (function : UInt32) (slot : Fin slotCount) :
    (slots.register host native function).2.1.isSet slot = true ↔
      slot.val = (host.addFunction native function).1 ∨ slots.isSet slot = true := by
  simp only [register]
  cases accepted : slots.mark (host.addFunction native function).1 with
  | ok marked => simp only [is_set_mark accepted, Bool.or_eq_true, beq_iff_eq]
  | error fault =>
      have outside : slot.val ≠ (host.addFunction native function).1 := by
        intro chosen
        rw [← chosen, mark, dif_pos slot.isLt] at accepted
        contradiction
      simp only [outside, false_or]

theorem is_set_settle (slots : SlotFlags) (table : SlotTable) (slot : Fin slotCount) :
    (slots.settle table).isSet slot = true ↔
      slots.isSet slot = true ∧ table.held slot = 0 := by
  simp only [is_set_eq, settle, due, SlotTable.held, Fin.getElem_fin,
    Vector.getElem_ofFn]
  cases slots.flags[slot.val] <;> simp

theorem timing_compensate (slots : SlotFlags) (table : SlotTable) (slot : Fin slotCount) :
    SlotTable.timing { table with timings := slots.compensate table } slot =
      if slots.isSet slot = true ∧ table.held slot ≠ 0 then table.timing slot * 2
      else table.timing slot := by
  simp [SlotTable.timing, SlotTable.held, is_set_eq, compensate, due]

end SlotFlags

namespace Session

variable {Native : Type} (host : FunctionHost Native)

/-- What can happen to the slots: a registration, a dispatch, or anything that leaves the
flags as they are. -/
inductive Happens : Session Native → SlotEvent → Session Native → Prop where
  | register (session : Session Native) (function : UInt32) :
      Happens session
        ⟨.registered function (host.addFunction session.native function).1,
          host.slots session.native, host.slots (session.addFunction host function).2.native⟩
        (session.addFunction host function).2
  | change (session after : Session Native) (kept : after.flags = session.flags) :
      Happens session ⟨.changed, host.slots session.native, host.slots after.native⟩ after
  | dispatch (session : Session Native) :
      Happens session
        ⟨.dispatched, host.slots session.native,
          host.slots (session.dispatch host).1.native⟩
        (session.dispatch host).1

/-- The sessions that a session can become, with the events on the way, oldest first. -/
inductive History (start : Session Native) : List SlotEvent → Session Native → Prop where
  | begins : History start [] start
  | next {events : List SlotEvent} {event : SlotEvent} {session after : Session Native}
      (history : History start events session) (happens : Happens host session event after) :
      History start (events ++ [event]) after

variable {host} {start session after : Session Native} {event : SlotEvent}
  {events : List SlotEvent}

theorem Happens.tables (happens : Happens host session event after) :
    event.before = host.slots session.native ∧ event.after = host.slots after.native := by
  cases happens <;> exact ⟨rfl, rfl⟩

/-- A flag is set by a registration and kept until a dispatch finds a function. -/
theorem Happens.flag (happens : Happens host session event after) (slot : Fin slotCount) :
    after.flags.isSet slot = true ↔
      (∃ function, event.act = .registered function slot) ∨
        (session.flags.isSet slot = true ∧ ¬ event.Finds slot) := by
  cases happens with
  | register function =>
      have answered := session.flags.is_set_register host session.native function slot
      simp only [SlotAct.registered.injEq, exists_eq_left', SlotEvent.Finds, reduceCtorEq,
        false_and, not_false_eq_true, and_true]
      rw [eq_comm (a := (host.addFunction session.native function).1)]
      exact answered
  | change after kept => simp [kept, SlotEvent.Finds]
  | dispatch =>
      have settled := session.flags.is_set_settle (host.slots session.native) slot
      simp only [reduceCtorEq, exists_false, false_or, SlotEvent.Finds, true_and, ne_eq,
        Decidable.not_not]
      exact settled

theorem History.unsettled (history : History host start events session)
    (allocated : ∀ event ∈ events, event.StoresFree) {slot : Fin slotCount}
    (owed : SlotEvent.Owed events slot) :
    SlotEvent.Unsettled events slot ((host.slots session.native).held slot) := by
  induction history with
  | begins => exact absurd owed SlotEvent.not_owed_nil
  | @next events event session after history happens ih =>
      have stores := allocated event (by simp)
      obtain ⟨before, afterwards⟩ := happens.tables
      rw [← afterwards]
      by_cases registered : ∃ function, event.act = .registered function slot
      · obtain ⟨function, act⟩ := registered
        exact SlotEvent.unsettled_of_registered stores act
      · obtain ⟨earlier, unfound⟩ := (SlotEvent.owed_concat_iff.mp owed).resolve_left registered
        have kept :=
          ih (fun other member => allocated other (List.mem_append_left _ member)) earlier
        rw [← before] at kept
        exact kept.next stores unfound fun function act => registered ⟨function, act⟩

end Session

namespace SlotTable

def host : FunctionHost SlotTable where
  addFunction table function :=
    match (List.finRange slotCount).find? fun slot => table.held slot == 0 with
    | some slot => (slot, { table with functions := table.functions.set slot function slot.isLt })
    | none => (slotCount, table)
  slots := id
  setTimings table timings := { table with timings }
  runFunctions := id

end SlotTable

namespace Session

def aroundSlots (table : SlotTable) : Session SlotTable where
  settings := ⟨⟨⟨0, 0⟩, ⟨0, 0⟩, 0, 0, 0⟩, ⟨false, false⟩, false, 64⟩
  machine := ⟨⟨0, ⟨#[]⟩⟩, .active⟩
  flags := .clear
  native := table

end Session

end CameraScript
