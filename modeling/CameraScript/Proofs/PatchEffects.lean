import CameraScript.Diagnostic
import CameraScript.View

/-!
# What doubling one argument does

A patch either leaves the machine alone or writes one double and records one
address, and never both for an address that is recorded already. Everything that
is said about longer runs is derived from these four cases.
-/

namespace CameraScript

theorem Region.byte_eq_some_iff {region : Region} {addr : UInt32} {value : UInt8} :
    region.byte? addr = some value ↔
      region.base ≤ addr ∧ region.bytes[addr.toNat - region.base.toNat]? = some value := by
  simp [byte_eq]

theorem Region.byte_at_index {region : Region} {addr : UInt32} {index : Nat}
    (place : addr.toNat = region.base.toNat + index) :
    region.byte? addr = region.bytes[index]? := by
  have reached : region.base ≤ addr := UInt32.le_iff_toNat_le.mpr (by omega)
  have offset : addr.toNat - region.base.toNat = index := by omega
  rw [byte_eq, if_pos reached, offset]

theorem Region.read_byte_eq_ok_iff {region : Region} {addr : UInt32} {value : UInt8} :
    region.readByte addr = .ok value ↔ region.byte? addr = some value := by
  rw [read_byte_eq]
  cases region.byte? addr <;> simp

namespace Machine

/-- The machine after a byte was doubled: its double is written and its address
is recorded. -/
def double (machine : Machine) (addr : UInt32) (before : UInt8) : Machine where
  memory :=
    { machine.memory with
      image := ⟨machine.memory.bytes.setIfInBounds
        (addr.toNat - machine.memory.base.toNat) (before * 2)⟩ }
  patcher := { machine.patcher with patched := machine.patcher.patched.insert addr }

theorem bytes_double (machine : Machine) (addr : UInt32) (before : UInt8) :
    (machine.double addr before).memory.bytes =
      machine.memory.bytes.setIfInBounds (addr.toNat - machine.memory.base.toNat) (before * 2) :=
  rfl

theorem size_double (machine : Machine) (addr : UInt32) (before : UInt8) :
    (machine.double addr before).memory.size = machine.memory.size :=
  Array.size_setIfInBounds

theorem patch_cases (machine : Machine) (addr : UInt32) :
    (machine.patcher.enabled = false ∧ machine.patch addr = (.ok .disabled, machine)) ∨
      (machine.patcher.enabled = true ∧ machine.patcher.isPatched addr = true ∧
        machine.patch addr = (.ok .alreadyPatched, machine)) ∨
      (machine.patcher.enabled = true ∧ machine.patcher.isPatched addr = false ∧
        machine.memory.byte? addr = none ∧
        machine.patch addr = (.error (machine.memory.refusal addr), machine)) ∨
      (machine.patcher.enabled = true ∧ machine.patcher.isPatched addr = false ∧
        ∃ before, machine.memory.byte? addr = some before ∧
          machine.patch addr = (.ok (Patcher.outcomeOf before), machine.double addr before)) := by
  have patched := machine.patch_eq addr
  cases enabled : machine.patcher.enabled with
  | false => exact .inl ⟨rfl, by rw [patched, enabled]; rfl⟩
  | true =>
      cases known : machine.patcher.isPatched addr with
      | true => exact .inr (.inl ⟨rfl, rfl, by rw [patched, enabled, known]; rfl⟩)
      | false =>
          rw [enabled, known] at patched
          refine .inr (.inr ?_)
          cases found : machine.memory.byte? addr with
          | none =>
              refine .inl ⟨rfl, rfl, rfl, ?_⟩
              simp [patched, Region.read_byte_eq, found]
          | some before =>
              refine .inr ⟨rfl, rfl, before, rfl, ?_⟩
              simp [patched, Region.read_byte_eq, Region.write_byte_eq, found, double, enabled]

theorem double_is_patched (machine : Machine) (addr other : UInt32) (before : UInt8) :
    (machine.double addr before).patcher.isPatched other = true ↔
      other = addr ∨ machine.patcher.isPatched other = true := by
  have inserted : (machine.double addr before).patcher.isPatched other =
      (compare addr other == .eq || machine.patcher.isPatched other) :=
    Std.ExtTreeSet.contains_insert
  rw [inserted, Bool.or_eq_true, beq_iff_eq, Std.compare_eq_iff_eq, eq_comm]

/-- Bytes are counted from the start of the image here, so that also those are
covered that no address names. -/
theorem double_bytes (machine : Machine) {addr : UInt32} {before : UInt8}
    (present : machine.memory.byte? addr = some before) (index : Nat) :
    (machine.double addr before).memory.bytes[index]? =
      if addr.toNat = machine.memory.base.toNat + index then some (before * 2)
      else machine.memory.bytes[index]? := by
  obtain ⟨reached, found⟩ := Region.byte_eq_some_iff.mp present
  have after := UInt32.le_iff_toNat_le.mp reached
  have inside := (Array.getElem?_eq_some_iff.mp found).1
  by_cases own : addr.toNat = machine.memory.base.toNat + index
  · have offset : addr.toNat - machine.memory.base.toNat = index := by omega
    rw [offset] at inside
    rw [if_pos own, bytes_double, offset]
    exact Array.getElem?_setIfInBounds_self_of_lt inside
  · have offset : addr.toNat - machine.memory.base.toNat ≠ index := by omega
    rw [if_neg own]
    exact Array.getElem?_setIfInBounds_ne offset

theorem byte_double (machine : Machine) {addr : UInt32} {before : UInt8}
    (present : machine.memory.byte? addr = some before) (other : UInt32) :
    (machine.double addr before).memory.byte? other =
      if other = addr then some (before * 2) else machine.memory.byte? other := by
  have reached := (Region.byte_eq_some_iff.mp present).1
  by_cases same : other = addr
  · subst same
    rw [if_pos rfl]
    refine Region.byte_eq_some_iff.mpr ⟨reached, ?_⟩
    have after := UInt32.le_iff_toNat_le.mp reached
    have whole : other.toNat =
        machine.memory.base.toNat + (other.toNat - machine.memory.base.toNat) := by omega
    exact (double_bytes machine present _).trans (if_pos whole)
  · rw [if_neg same]
    simp only [Region.byte_eq]
    change (if machine.memory.base ≤ other then
      (machine.double addr before).memory.bytes[other.toNat - machine.memory.base.toNat]?
      else none) = _
    split
    · rename_i otherReached
      have otherAfter := UInt32.le_iff_toNat_le.mp otherReached
      have distinct : addr.toNat ≠ other.toNat := fun eq => same (UInt32.toNat_inj.mp eq).symm
      exact (double_bytes machine present _).trans (if_neg (by omega))
    · rfl

/-- Patching this address again would change nothing and raise nothing. -/
def Settled (machine : Machine) (addr : UInt32) : Prop :=
  machine.patcher.enabled = false ∨ machine.patcher.isPatched addr = true

theorem patch_of_settled {machine : Machine} {addr : UInt32} (settled : machine.Settled addr) :
    ∃ outcome, machine.patch addr = (.ok outcome, machine) ∧
      outcome.diagnostic? addr = none := by
  rcases machine.patch_cases addr with ⟨-, patched⟩ | ⟨-, -, patched⟩ | ⟨on, fresh, -⟩ |
    ⟨on, fresh, -⟩
  · exact ⟨.disabled, patched, rfl⟩
  · exact ⟨.alreadyPatched, patched, rfl⟩
  all_goals
    rcases settled with off | known
    · rw [on] at off
      contradiction
    · rw [fresh] at known
      contradiction

theorem patch_of_disabled {machine : Machine} {addr : UInt32}
    (off : machine.patcher.enabled = false) : machine.patch addr = (.ok .disabled, machine) := by
  rcases machine.patch_cases addr with ⟨-, patched⟩ | ⟨on, -⟩ | ⟨on, -⟩ | ⟨on, -⟩
  · exact patched
  all_goals
    rw [on] at off
    contradiction

theorem settled_of_patch_ok {machine : Machine} {addr : UInt32} {outcome : PatchOutcome}
    (accepted : (machine.patch addr).1 = .ok outcome) :
    (machine.patch addr).2.Settled addr := by
  rcases machine.patch_cases addr with ⟨off, patched⟩ | ⟨-, known, patched⟩ | ⟨-, -, -, patched⟩ |
    ⟨-, -, before, -, patched⟩
  · rw [patched]
    exact .inl off
  · rw [patched]
    exact .inr known
  · rw [patched] at accepted
    contradiction
  · rw [patched]
    exact .inr ((double_is_patched machine addr addr before).mpr (.inl rfl))

theorem patch_ok_of_byte {machine : Machine} {addr : UInt32} {before : UInt8}
    (present : machine.memory.byte? addr = some before) :
    ∃ outcome, (machine.patch addr).1 = .ok outcome := by
  rcases machine.patch_cases addr with
    ⟨-, went⟩ | ⟨-, -, went⟩ | ⟨-, -, absent, -⟩ | ⟨-, -, found, -, went⟩
  · exact ⟨.disabled, by rw [went]⟩
  · exact ⟨.alreadyPatched, by rw [went]⟩
  · rw [present] at absent
    contradiction
  · exact ⟨Patcher.outcomeOf found, by rw [went]⟩

theorem patch_enabled (machine : Machine) (addr : UInt32) :
    (machine.patch addr).2.patcher.enabled = machine.patcher.enabled := by
  rcases machine.patch_cases addr with ⟨-, patched⟩ | ⟨-, -, patched⟩ | ⟨-, -, -, patched⟩ |
    ⟨-, -, before, -, patched⟩ <;> rw [patched]
  rfl

theorem patch_keeps_patched (machine : Machine) (addr : UInt32) {other : UInt32}
    (known : machine.patcher.isPatched other = true) :
    (machine.patch addr).2.patcher.isPatched other = true := by
  rcases machine.patch_cases addr with ⟨-, patched⟩ | ⟨-, -, patched⟩ | ⟨-, -, -, patched⟩ |
    ⟨-, -, before, -, patched⟩ <;> rw [patched]
  all_goals first
    | exact known
    | exact (double_is_patched machine addr other before).mpr (.inr known)

theorem byte_patch_of_ne (machine : Machine) {addr other : UInt32} (different : other ≠ addr) :
    (machine.patch addr).2.memory.byte? other = machine.memory.byte? other := by
  rcases machine.patch_cases addr with ⟨-, patched⟩ | ⟨-, -, patched⟩ | ⟨-, -, -, patched⟩ |
    ⟨-, -, before, present, patched⟩ <;> rw [patched]
  exact (byte_double machine present other).trans (if_neg different)

/-- The answer to a patch depends on the switch, the record of the address and its byte. -/
theorem patch_answer (machine : Machine) (addr : UInt32) :
    (machine.patch addr).1 =
      if machine.patcher.enabled = false then .ok .disabled
      else if machine.patcher.isPatched addr = true then .ok .alreadyPatched
      else
        match machine.memory.byte? addr with
        | some before => .ok (Patcher.outcomeOf before)
        | none => .error (machine.memory.refusal addr) := by
  rcases machine.patch_cases addr with ⟨off, patched⟩ | ⟨on, known, patched⟩ |
    ⟨on, fresh, absent, patched⟩ | ⟨on, fresh, before, present, patched⟩
  · rw [patched, if_pos off]
  · rw [patched, if_neg (by simp [on]), if_pos known]
  · rw [patched, if_neg (by simp [on]), if_neg (by simp [fresh]), absent]
  · rw [patched, if_neg (by simp [on]), if_neg (by simp [fresh]), present]

theorem byte_patch_self (machine : Machine) (addr : UInt32) :
    (machine.patch addr).2.memory.byte? addr =
      if machine.patcher.enabled = true ∧ machine.patcher.isPatched addr = false then
        (machine.memory.byte? addr).map (· * 2)
      else machine.memory.byte? addr := by
  rcases machine.patch_cases addr with ⟨off, patched⟩ | ⟨on, known, patched⟩ |
    ⟨on, fresh, absent, patched⟩ | ⟨on, fresh, before, present, patched⟩ <;> rw [patched]
  · rw [if_neg (by simp [off])]
  · rw [if_neg (by simp [known])]
  · rw [if_pos ⟨on, fresh⟩, absent, Option.map_none]
  · rw [if_pos ⟨on, fresh⟩, byte_double machine present, if_pos rfl, present, Option.map_some]

theorem is_patched_patch (machine : Machine) (addr other : UInt32) :
    (machine.patch addr).2.patcher.isPatched other = true ↔
      machine.patcher.isPatched other = true ∨
        (other = addr ∧ machine.patcher.enabled = true ∧
          (machine.memory.byte? addr).isSome = true) := by
  rcases machine.patch_cases addr with ⟨off, patched⟩ | ⟨on, known, patched⟩ |
    ⟨on, fresh, absent, patched⟩ | ⟨on, fresh, before, present, patched⟩ <;> rw [patched]
  · simp [off]
  · refine ⟨.inl, fun recorded => recorded.elim id fun own => ?_⟩
    rw [own.1]
    exact known
  · simp [absent]
  · rw [double_is_patched]
    simp [on, present, or_comm]

theorem refusal_patch (machine : Machine) (addr other : UInt32) :
    (machine.patch addr).2.memory.refusal other = machine.memory.refusal other := by
  rcases machine.patch_cases addr with ⟨-, patched⟩ | ⟨-, -, patched⟩ | ⟨-, -, -, patched⟩ |
    ⟨-, -, before, -, patched⟩ <;> rw [patched]
  have size := machine.size_double addr before
  exact congrArg (fun size => OutOfRange.mk other machine.memory.base (_ + size)) size

end Machine

theorem View.inside_of_byte {view : View} {memory : Region} {position : UInt16} {byte : UInt8}
    (found : view.byte? memory position = some byte) : position.toNat < view.length := by
  obtain ⟨addr, named, -⟩ := Option.bind_eq_some_iff.mp found
  exact (View.addr_of_eq_some_iff.mp named).1

theorem View.byte_of_inside {view : View} {position : UInt16}
    (inside : position.toNat < view.length) (memory : Region) :
    view.byte? memory position = memory.byte? (view.start + position.toUInt32) := by
  simp only [View.byte?, View.addrOf?, if_pos inside, Option.bind_some]

theorem View.to_nat_addr {view : View} {position : UInt16}
    (unwrapped : view.start.toNat + position.toNat < UInt32.size) :
    (view.start + position.toUInt32).toNat = view.start.toNat + position.toNat := by
  rw [UInt32.toNat_add, UInt16.toNat_toUInt32]
  exact Nat.mod_eq_of_lt unwrapped

/-- A script that ends in its image, and inside the address space, has a byte at every
position. -/
theorem View.byte_present {view : View} {memory : Region} (after : memory.base ≤ view.start)
    (ends : view.start.toNat + view.length ≤ memory.finish)
    (fits : view.start.toNat + view.length ≤ UInt32.size) {position : UInt16}
    (inside : position.toNat < view.length) : ∃ byte, view.byte? memory position = some byte := by
  have start := UInt32.le_iff_toNat_le.mp after
  have whole : (view.start + position.toUInt32).toNat = view.start.toNat + position.toNat :=
    View.to_nat_addr (by omega)
  have covered : memory.Covers (view.start + position.toUInt32) 1 := by
    refine ⟨UInt32.le_iff_toNat_le.mpr ?_, ?_⟩ <;> omega
  rw [View.byte_of_inside inside]
  apply Option.ne_none_iff_exists'.mp
  intro absent
  exact (Region.byte_eq_none_iff _ _).mp absent covered

theorem View.addr_injective (view : View) {left right : UInt16}
    (same : view.start + left.toUInt32 = view.start + right.toUInt32) : left = right := by
  have widened := (UInt32.add_right_inj view.start).mp same
  have values := congrArg UInt32.toNat widened
  simpa using UInt16.toNat_inj.mp (by simpa using values)

theorem View.byte_patch_of_ne (view : View) (machine : Machine) {position other : UInt16}
    (different : other ≠ position) :
    view.byte? (machine.patch (view.start + position.toUInt32)).2.memory other =
      view.byte? machine.memory other := by
  simp only [View.byte?, View.addrOf?]
  split
  · apply Machine.byte_patch_of_ne
    exact fun same => different (view.addr_injective same)
  · rfl

end CameraScript
