import CameraScript.Proofs.WalkStages

/-!
# What a walk can change

A walk patches nothing but positions of its script. Whatever such patches preserve, a
whole run preserves, and with it the frame: each byte that differs after a run belongs to
the script and was recorded on the way, and all other bytes and records are as before.
-/

namespace CameraScript

/-- The addresses to which positions of a script lead. -/
def View.Names (view : View) (addr : UInt32) : Prop :=
  ∃ position, view.addrOf? position = some addr

theorem View.names_of_inside {view : View} {position : UInt16}
    (inside : position.toNat < view.length) :
    view.Names (view.start + position.toUInt32) :=
  ⟨position, View.addr_of_eq_some_iff.mpr ⟨inside, rfl⟩⟩

namespace Machine

/-- Between two machines nothing but bytes of the script was doubled. Bytes are counted
from the start of the image, so that also those are covered that no address names. -/
structure PatchedWithin (view : View) (before after : Machine) : Prop where
  base : after.memory.base = before.memory.base
  size : after.memory.size = before.memory.size
  enabled : after.patcher.enabled = before.patcher.enabled
  changed : ∀ index, after.memory.bytes[index]? ≠ before.memory.bytes[index]? →
    ∃ addr, addr.toNat = before.memory.base.toNat + index ∧
      before.patcher.isPatched addr = false ∧ after.patcher.isPatched addr = true
  recorded : ∀ addr, after.patcher.isPatched addr = true →
    before.patcher.isPatched addr = true ∨
      (view.Names addr ∧ (after.memory.byte? addr).isSome = true)
  kept : ∀ addr, before.patcher.isPatched addr = true → after.patcher.isPatched addr = true

variable {view : View} {before after : Machine}

theorem PatchedWithin.refl (view : View) (machine : Machine) :
    machine.PatchedWithin view machine where
  base := rfl
  size := rfl
  enabled := rfl
  changed _ differs := absurd rfl differs
  recorded _ known := .inl known
  kept _ known := known

theorem PatchedWithin.patch (within : before.PatchedWithin view after) {addr : UInt32}
    (named : view.Names addr) : before.PatchedWithin view (after.patch addr).2 := by
  rcases after.patch_cases addr with
    ⟨-, went⟩ | ⟨-, -, went⟩ | ⟨-, -, -, went⟩ | ⟨-, fresh, byte, present, went⟩ <;> rw [went]
  · exact within
  · exact within
  · exact within
  · have unrecorded : before.patcher.isPatched addr = false := by
      apply Bool.eq_false_iff.mpr
      intro known
      rw [within.kept addr known] at fresh
      contradiction
    exact {
      base := within.base
      size := by
        rw [← within.size]
        exact after.size_double addr byte
      enabled := within.enabled
      changed := by
        intro index differs
        by_cases own : addr.toNat = before.memory.base.toNat + index
        · exact ⟨addr, own, unrecorded, (after.double_is_patched addr addr byte).mpr (.inl rfl)⟩
        · rw [after.double_bytes present, within.base, if_neg own] at differs
          obtain ⟨other, place, unknown, known⟩ := within.changed index differs
          exact ⟨other, place, unknown, (after.double_is_patched addr other byte).mpr (.inr known)⟩
      recorded := by
        intro other known
        rw [after.byte_double present]
        by_cases own : other = addr
        · rw [own, if_pos rfl]
          exact .inr ⟨named, rfl⟩
        · rw [if_neg own]
          apply within.recorded other
          exact ((after.double_is_patched addr other byte).mp known).resolve_left own
      kept := by
        intro other known
        exact (after.double_is_patched addr other byte).mpr (.inr (within.kept other known)) }

theorem PatchedWithin.byte_outside (within : before.PatchedWithin view after) {addr : UInt32}
    (outside : ¬ view.Names addr) : after.memory.byte? addr = before.memory.byte? addr := by
  unfold Region.byte?
  rw [within.base]
  split
  · rename_i reached
    have past := UInt32.le_iff_toNat_le.mp reached
    apply Decidable.byContradiction
    intro differs
    obtain ⟨other, place, unknown, known⟩ := within.changed _ differs
    have same : other = addr := UInt32.toNat_inj.mp (by omega)
    rw [same] at unknown known
    rcases within.recorded addr known with earlier | ⟨named, -⟩
    · rw [unknown] at earlier
      contradiction
    · exact outside named
  · rfl

theorem PatchedWithin.recorded_outside (within : before.PatchedWithin view after) {addr : UInt32}
    (outside : ¬ view.Names addr) :
    after.patcher.isPatched addr = before.patcher.isPatched addr := by
  apply Bool.eq_iff_iff.mpr
  constructor
  · intro known
    exact (within.recorded addr known).resolve_right fun named => outside named.1
  · exact within.kept addr

theorem patch_keeps_recorded {addr : UInt32} (machine : Machine) (other : UInt32)
    (_ : view.Names other) (known : machine.patcher.isPatched addr = true) :
    (machine.patch other).2.patcher.isPatched addr = true :=
  machine.patch_keeps_patched other known

end Machine

namespace Simulator

variable (simulator : Simulator) (view : View)

/-- A step patches one address of its script, or none at all. -/
theorem step_machine (walk : Walk) :
    (simulator.step view walk).walk.machine = walk.machine ∨
      ∃ addr, view.Names addr ∧
        (simulator.step view walk).walk.machine = (walk.machine.patch addr).2 := by
  obtain ⟨argument?, -, inside, machine, -⟩ := simulator.step_effects view walk
  rw [machine]
  cases argument? with
  | none => exact .inl rfl
  | some argument => exact .inr ⟨_, View.names_of_inside (inside argument rfl), rfl⟩

variable {Holds : Machine → Prop}

theorem step_preserves
    (kept : ∀ machine addr, view.Names addr → Holds machine → Holds (machine.patch addr).2)
    {walk : Walk} (holds : Holds walk.machine) :
    Holds (simulator.step view walk).walk.machine := by
  rcases simulator.step_machine view walk with idle | ⟨addr, named, patched⟩
  · rw [idle]
    exact holds
  · rw [patched]
    exact kept walk.machine addr named holds

theorem walk_from_preserves
    (kept : ∀ machine addr, view.Names addr → Holds machine → Holds (machine.patch addr).2)
    (budget taken : Nat) (walk : Walk) (holds : Holds walk.machine) :
    Holds (simulator.walkFrom view budget taken walk).2.2.machine := by
  induction budget generalizing taken walk with
  | zero => exact holds
  | succ budget ih =>
      have stepped := simulator.step_preserves view kept holds
      unfold walkFrom
      cases went : simulator.step view walk with
      | resumed next =>
          rw [went] at stepped
          exact ih (taken + 1) next stepped
      | halted reason final =>
          rw [went] at stepped
          exact stepped

/-- What every patch of the script preserves is preserved by a whole run. -/
theorem run_preserves_within
    (kept : ∀ machine addr, view.Names addr → Holds machine → Holds (machine.patch addr).2)
    (cursor : Cursor) {machine : Machine} (holds : Holds machine) :
    Holds (simulator.run view cursor machine).machine :=
  simulator.walk_from_preserves view kept simulator.stepLimit 0
    (simulator.beginning cursor machine) holds

theorem run_patched_within (cursor : Cursor) (machine : Machine) :
    machine.PatchedWithin view (simulator.run view cursor machine).machine :=
  simulator.run_preserves_within view (fun _ _ named within => within.patch named) cursor
    (.refl view machine)

/-- A run writes only inside its script, whatever view it is given and however it halts. A byte
that differs, counted from the start of the image, lies at an address that was recorded on the
way, and each of these is the address of a position and can be read. -/
theorem run_writes_within (cursor : Cursor) (machine : Machine) :
    let left := (simulator.run view cursor machine).machine
    left.memory.base = machine.memory.base ∧ left.memory.size = machine.memory.size ∧
      (∀ addr, (∀ position : UInt16, position.toNat < view.length →
          view.start + position.toUInt32 ≠ addr) →
        left.memory.byte? addr = machine.memory.byte? addr) ∧
      (∀ addr, machine.patcher.isPatched addr = false → left.patcher.isPatched addr = true →
        (∃ position : UInt16, position.toNat < view.length ∧
          view.start + position.toUInt32 = addr) ∧
          ∃ value, left.memory.readByte addr = .ok value) ∧
      ∀ index : Nat, left.memory.bytes[index]? ≠ machine.memory.bytes[index]? →
        ∃ addr, addr.toNat = machine.memory.base.toNat + index ∧
          machine.patcher.isPatched addr = false ∧ left.patcher.isPatched addr = true := by
  intro left
  have within : machine.PatchedWithin view left := simulator.run_patched_within view cursor machine
  refine ⟨within.base, within.size, ?_, ?_, within.changed⟩
  · intro addr outside
    apply within.byte_outside
    rintro ⟨position, place⟩
    have placed := View.addr_of_eq_some_iff.mp place
    exact outside position placed.1 placed.2
  · intro addr unknown known
    rcases within.recorded addr known with earlier | ⟨⟨position, place⟩, present⟩
    · rw [unknown] at earlier
      contradiction
    · have readable : ∃ value, left.memory.byte? addr = some value :=
        Option.isSome_iff_exists.mp present
      constructor
      · exact ⟨position, View.addr_of_eq_some_iff.mp place⟩
      · exact readable.imp fun value found => Region.read_byte_eq_ok_iff.mpr found

end Simulator

end CameraScript
