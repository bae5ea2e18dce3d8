import CameraScript.Log

/-!
Compensation of camera functions. The game keeps sixteen function slots. A function
that a special opcode registers runs at half speed, so its timing is doubled at the
first dispatch that finds a function in its slot. The flag belongs to the slot.
-/

namespace CameraScript

def slotCount : Nat := 16

/-- The handles of the functions, zero in a free slot, and their timings. -/
structure SlotTable where
  functions : Vector UInt32 slotCount
  timings : Vector Int16 slotCount
  deriving DecidableEq

structure FunctionHost (Native : Type) where
  /-- Stores a function and answers the slot that the game chose for it. -/
  addFunction : Native → UInt32 → Nat × Native
  slots : Native → SlotTable
  setTimings : Native → Vector Int16 slotCount → Native
  /-- Runs the functions of all slots once. -/
  runFunctions : Native → Native

structure SlotOutOfRange where
  slot : Nat
  deriving DecidableEq, Repr

def SlotOutOfRange.message (fault : SlotOutOfRange) : String :=
  s!"camera function slot out of range: {fault.slot} (slots={slotCount})"

structure SlotFlags where
  flags : Vector Bool slotCount
  deriving DecidableEq

namespace SlotFlags

def clear : SlotFlags := ⟨Vector.replicate slotCount false⟩

def isSet (slots : SlotFlags) (slot : Nat) : Bool :=
  slots.flags[slot]?.getD false

def pending (slots : SlotFlags) : Nat :=
  slots.flags.toList.count true

def marked (slots : SlotFlags) : List Nat :=
  (List.range slotCount).filter slots.isSet

def mark (slots : SlotFlags) (slot : Nat) : Except SlotOutOfRange SlotFlags :=
  if inside : slot < slotCount then .ok ⟨slots.flags.set slot true⟩
  else .error ⟨slot⟩

/-- A flagged slot is compensated as soon as it holds a function. -/
def due (slots : SlotFlags) (table : SlotTable) (slot : Fin slotCount) : Bool :=
  slots.flags[slot] && table.functions[slot] != 0

def compensate (slots : SlotFlags) (table : SlotTable) : Vector Int16 slotCount :=
  Vector.ofFn fun slot =>
    if slots.due table slot then table.timings[slot] * 2 else table.timings[slot]

def settle (slots : SlotFlags) (table : SlotTable) : SlotFlags :=
  ⟨Vector.ofFn fun slot => slots.flags[slot] && !slots.due table slot⟩

def started (slots : SlotFlags) (table : SlotTable) : List UInt32 :=
  ((List.finRange slotCount).filter (slots.due table)).map fun slot => table.functions[slot]

/-- The result, the flags and the game after a registration. A slot that does not
exist is refused after the game has already chosen it. -/
def register {Native : Type} (host : FunctionHost Native) (slots : SlotFlags) (native : Native)
    (function : UInt32) : Except SlotOutOfRange Nat × SlotFlags × Native :=
  match host.addFunction native function with
  | (slot, stored) =>
      match slots.mark slot with
      | .ok marked => (.ok slot, marked, stored)
      | .error fault => (.error fault, slots, stored)

/-- Doubles the timings that are due and then lets the game run its functions. -/
def dispatch {Native : Type} (host : FunctionHost Native) (trace : TraceFlags)
    (slots : SlotFlags) (native : Native) : SlotFlags × Native × Array Event :=
  let table := host.slots native
  (slots.settle table,
    host.runFunctions (host.setTimings native (slots.compensate table)),
    (slots.started table).foldl (fun log function => trace.record log (.functionStarted function))
      #[])

theorem is_set_mark {slots marked : SlotFlags} {slot : Nat}
    (accepted : slots.mark slot = .ok marked) (other : Nat) :
    marked.isSet other = (other == slot || slots.isSet other) := by
  simp only [mark] at accepted
  split at accepted
  · rename_i inside
    cases accepted
    by_cases same : slot = other
    · subst same
      simp [isSet, inside]
    · have differs : (other == slot) = false := by
        simpa using fun eq : other = slot => same eq.symm
      simp [isSet, same, differs]
  · contradiction

end SlotFlags

end CameraScript
