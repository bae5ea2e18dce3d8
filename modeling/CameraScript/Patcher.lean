import Std.Data.ExtTreeSet
import CameraScript.Memory

/-!
Doubling of arguments that scripts store at half resolution. The patcher keeps
every address that it has doubled, so that a byte is doubled at most once however
often the scripts that hold it are walked.
-/

namespace CameraScript

structure Patcher where
  enabled : Bool
  patched : Std.ExtTreeSet UInt32

/-- What became of one argument. The byte that an overflow leaves behind is the
double modulo 256. -/
inductive PatchOutcome where
  | doubled (before after : UInt8)
  | overflowed (before after : UInt8)
  | alreadyPatched
  | disabled
  deriving DecidableEq, Repr

namespace Patcher

def active : Patcher := ⟨true, ∅⟩

def inactive : Patcher := ⟨false, ∅⟩

def ofEnabled (enabled : Bool) : Patcher := ⟨enabled, ∅⟩

def isPatched (patcher : Patcher) (addr : UInt32) : Bool :=
  patcher.patched.contains addr

def addresses (patcher : Patcher) : List UInt32 :=
  patcher.patched.toList

def count (patcher : Patcher) : Nat :=
  patcher.patched.size

def outcomeOf (before : UInt8) : PatchOutcome :=
  let after := before * 2
  if before.toNat * 2 = after.toNat then .doubled before after else .overflowed before after

end Patcher

/-- The image together with the record of its doubled arguments. -/
structure Machine where
  memory : Region
  patcher : Patcher

namespace Machine

/-- An address outside the image is refused and not recorded; a byte that overflows
is recorded all the same. -/
def patch : Machine → UInt32 → Except OutOfRange PatchOutcome × Machine
  | ⟨⟨base, image⟩, ⟨enabled, patched⟩⟩, addr =>
      if !enabled then (.ok .disabled, ⟨⟨base, image⟩, ⟨enabled, patched⟩⟩)
      else if patched.contains addr then
        (.ok .alreadyPatched, ⟨⟨base, image⟩, ⟨enabled, patched⟩⟩)
      else
        match Region.locate ⟨base, image⟩ addr 1 with
        | .error fault => (.error fault, ⟨⟨base, image⟩, ⟨enabled, patched⟩⟩)
        | .ok ⟨offset, inside⟩ =>
            let before := getElem image offset inside
            (.ok (Patcher.outcomeOf before),
              ⟨⟨base, image.set offset (before * 2) inside⟩, ⟨enabled, patched.insert addr⟩⟩)

end Machine

theorem Patcher.outcome_of_small {before : UInt8} (small : before.toNat < 128) :
    Patcher.outcomeOf before = .doubled before (before * 2) := by
  have fits : before.toNat * 2 = (before * 2).toNat := by
    simp only [UInt8.toNat_mul, UInt8.reduceToNat]
    omega
  exact if_pos fits

theorem Patcher.outcome_of_large {before : UInt8} (large : 128 ≤ before.toNat) :
    Patcher.outcomeOf before = .overflowed before (before * 2) := by
  have wraps : ¬ before.toNat * 2 = (before * 2).toNat := by
    simp only [UInt8.toNat_mul, UInt8.reduceToNat]
    omega
  exact if_neg wraps

theorem Machine.patch_eq (machine : Machine) (addr : UInt32) :
    machine.patch addr =
      if !machine.patcher.enabled then (.ok .disabled, machine)
      else if machine.patcher.isPatched addr then (.ok .alreadyPatched, machine)
      else
        match machine.memory.readByte addr with
        | .error fault => (.error fault, machine)
        | .ok before =>
            match machine.memory.writeByte addr (before * 2) with
            | .error fault => (.error fault, machine)
            | .ok memory =>
                (.ok (Patcher.outcomeOf before),
                  ⟨memory, ⟨machine.patcher.enabled, machine.patcher.patched.insert addr⟩⟩) := by
  obtain ⟨⟨base, image⟩, ⟨enabled, patched⟩⟩ := machine
  cases enabled
  · rfl
  · by_cases known : patched.contains addr = true
    · simp [Machine.patch, Patcher.isPatched, known]
    · cases located : Region.locate ⟨base, image⟩ addr 1 <;>
        simp [Machine.patch, Region.readByte, Region.writeByte, Patcher.isPatched, known, located]

end CameraScript
