import CameraScript.Proofs.MirroredWalks
import CameraScript.Proofs.WalkFrame

/-!
# Scripts that share no address

A run changes nothing that a run over a disjoint script looks at, so each of two such
runs meets its script as if the other had not been. The runs commute: every byte and
every record belongs to at most one of the scripts, and the run over that one alone
decides what becomes of it.
-/

namespace CameraScript

/-- No address belongs to both scripts. A script has no addresses beyond its last 16-bit
position, however long its view may be. -/
def View.Apart (left right : View) : Prop :=
  ∀ addr, left.Names addr → ¬ right.Names addr

theorem View.Apart.symm {left right : View} (apart : left.Apart right) : right.Apart left :=
  fun addr inRight inLeft => apart addr inLeft inRight

/-- A script that ends before another begins shares no address with it, as long as
neither of them wraps around. -/
theorem View.apart_of_le {left right : View}
    (order : left.start.toNat + left.length ≤ right.start.toNat)
    (bound : right.start.toNat + right.length ≤ UInt32.size) : left.Apart right := by
  have place {view : View} {addr : UInt32} (below : view.start.toNat + view.length ≤ UInt32.size)
      (named : view.Names addr) :
      view.start.toNat ≤ addr.toNat ∧ addr.toNat < view.start.toNat + view.length := by
    obtain ⟨position, at_position⟩ := named
    obtain ⟨inside, rfl⟩ := View.addr_of_eq_some_iff.mp at_position
    have whole : (view.start + position.toUInt32).toNat =
        view.start.toNat + position.toNat := View.to_nat_addr (by omega)
    omega
  intro addr inLeft inRight
  have before := place (by omega) inLeft
  have after := place bound inRight
  omega

namespace Machine

theorem ext_contents {left right : Machine} (base : left.memory.base = right.memory.base)
    (bytes : ∀ index : Nat, left.memory.bytes[index]? = right.memory.bytes[index]?)
    (enabled : left.patcher.enabled = right.patcher.enabled)
    (recorded : ∀ addr, left.patcher.isPatched addr = right.patcher.isPatched addr) :
    left = right := by
  obtain ⟨⟨leftBase, leftImage⟩, ⟨leftEnabled, leftPatched⟩⟩ := left
  obtain ⟨⟨rightBase, rightImage⟩, ⟨rightEnabled, rightPatched⟩⟩ := right
  change leftBase = rightBase at base
  change leftEnabled = rightEnabled at enabled
  have sameImage : leftImage = rightImage := ByteArray.ext (Array.ext_getElem? bytes)
  have samePatched : leftPatched = rightPatched := Std.ExtTreeSet.ext_contains recorded
  rw [base, enabled, sameImage, samePatched]

/-- A script looks as before when bytes of a disjoint script were doubled. -/
theorem PatchedWithin.mirrors {view other : View} {before after : Machine}
    (within : before.PatchedWithin other after) (apart : view.Apart other) :
    before.Mirrors view view after where
  enabled := within.enabled
  bytes position := by
    unfold View.byte?
    cases place : view.addrOf? position with
    | none => rfl
    | some addr => exact within.byte_outside (apart addr ⟨position, place⟩)
  recorded position inside := within.recorded_outside (apart _ (View.names_of_inside inside))
  refused position _ _ := by
    have sizes := within.size
    unfold Region.size at sizes
    simp only [Region.refusal, Region.finish, within.base, sizes]

theorem PatchedWithin.bytes_outside {view : View} {before after : Machine}
    (within : before.PatchedWithin view after) {index : Nat}
    (outside : ∀ addr, view.Names addr → addr.toNat ≠ before.memory.base.toNat + index) :
    after.memory.bytes[index]? = before.memory.bytes[index]? := by
  apply Decidable.byContradiction
  intro differs
  obtain ⟨addr, place, unknown, known⟩ := within.changed index differs
  rcases within.recorded addr known with earlier | ⟨named, -⟩
  · rw [unknown] at earlier
    contradiction
  · exact outside addr named place

theorem Mirrors.recorded_named {view : View} {left right : Machine}
    (mirrors : left.Mirrors view view right) {addr : UInt32} (named : view.Names addr) :
    right.patcher.isPatched addr = left.patcher.isPatched addr := by
  obtain ⟨position, place⟩ := named
  obtain ⟨inside, rfl⟩ := View.addr_of_eq_some_iff.mp place
  exact mirrors.recorded position inside

theorem Mirrors.bytes_named {view : View} {left right : Machine}
    (mirrors : left.Mirrors view view right) (base : right.memory.base = left.memory.base)
    {addr : UInt32} (named : view.Names addr) {index : Nat}
    (place : addr.toNat = left.memory.base.toNat + index) :
    right.memory.bytes[index]? = left.memory.bytes[index]? := by
  obtain ⟨position, named⟩ := named
  have bytes := mirrors.bytes position
  unfold View.byte? at bytes
  rw [named, Option.bind_some, Option.bind_some, Region.byte_at_index place] at bytes
  rw [← bytes, Region.byte_at_index (by rw [base]; exact place)]

/-- What two disjoint scripts make of a machine does not depend on their order, if either
is left by the second run as by a first one. -/
theorem PatchedWithin.commute {left right : View} {machine afterLeft afterRight leftRight
    rightLeft : Machine} (apart : left.Apart right)
    (leftFirst : machine.PatchedWithin left afterLeft)
    (rightNext : afterLeft.PatchedWithin right leftRight)
    (rightFirst : machine.PatchedWithin right afterRight)
    (leftNext : afterRight.PatchedWithin left rightLeft)
    (sameLeft : afterLeft.Mirrors left left rightLeft)
    (sameRight : afterRight.Mirrors right right leftRight) : leftRight = rightLeft := by
  have leftBase : afterLeft.memory.base = machine.memory.base := leftFirst.base
  have rightBase : afterRight.memory.base = machine.memory.base := rightFirst.base
  have bothBase : leftRight.memory.base = machine.memory.base := rightNext.base.trans leftBase
  have againBase : rightLeft.memory.base = machine.memory.base := leftNext.base.trans rightBase
  apply Machine.ext_contents
  · exact bothBase.trans againBase.symm
  · intro index
    -- an index lies in the left script, in the right one, or in neither of them
    by_cases inLeft : ∃ addr, left.Names addr ∧ addr.toNat = machine.memory.base.toNat + index
    · obtain ⟨addr, named, place⟩ := inLeft
      have kept : leftRight.memory.bytes[index]? = afterLeft.memory.bytes[index]? := by
        apply rightNext.bytes_outside
        intro other inRight same
        rw [leftBase, ← place] at same
        exact apart addr named (UInt32.toNat_inj.mp same ▸ inRight)
      rw [kept]
      apply (sameLeft.bytes_named (againBase.trans leftBase.symm) named ?_).symm
      rw [leftBase]
      exact place
    · have outLeft (addr : UInt32) (named : left.Names addr) :
          addr.toNat ≠ machine.memory.base.toNat + index := fun place =>
        inLeft ⟨addr, named, place⟩
      have keptLeft : rightLeft.memory.bytes[index]? = afterRight.memory.bytes[index]? := by
        apply leftNext.bytes_outside
        rw [rightBase]
        exact outLeft
      by_cases inRight : ∃ addr, right.Names addr ∧
          addr.toNat = machine.memory.base.toNat + index
      · obtain ⟨addr, named, place⟩ := inRight
        rw [keptLeft]
        apply sameRight.bytes_named (bothBase.trans rightBase.symm) named
        rw [rightBase]
        exact place
      · have outRight (addr : UInt32) (named : right.Names addr) :
            addr.toNat ≠ machine.memory.base.toNat + index := fun place =>
          inRight ⟨addr, named, place⟩
        have keptRight : leftRight.memory.bytes[index]? = afterLeft.memory.bytes[index]? := by
          apply rightNext.bytes_outside
          rw [leftBase]
          exact outRight
        rw [keptLeft, keptRight, leftFirst.bytes_outside outLeft,
          rightFirst.bytes_outside outRight]
  · rw [rightNext.enabled, leftFirst.enabled, leftNext.enabled, rightFirst.enabled]
  · intro addr
    by_cases inLeft : left.Names addr
    · rw [rightNext.recorded_outside (apart addr inLeft)]
      exact (sameLeft.recorded_named inLeft).symm
    · rw [leftNext.recorded_outside inLeft]
      by_cases inRight : right.Names addr
      · exact sameRight.recorded_named inRight
      · rw [rightNext.recorded_outside inRight, leftFirst.recorded_outside inLeft,
          rightFirst.recorded_outside inRight]

end Machine

namespace Simulator

/-- A run over a disjoint script, before or after, makes no difference to a simulation. -/
theorem run_beside (simulator other : Simulator) {view beside : View}
    (apart : view.Apart beside) (cursor start : Cursor) (machine : Machine) :
    let earlier := (other.run beside start machine).machine
    (simulator.run view cursor earlier).simulation =
        (simulator.run view cursor machine).simulation ∧
      (simulator.run view cursor machine).machine.Mirrors view view
        (simulator.run view cursor earlier).machine := by
  intro earlier
  have alike : machine.Mirrors view view earlier :=
    (other.run_patched_within beside start machine).mirrors apart
  obtain ⟨simulated, mirrors⟩ := run_mirrors rfl rfl rfl alike cursor
  rw [simulated, Diagnostic.map_relocate_self]
  exact ⟨rfl, mirrors⟩

/-- Runs over scripts that share no address give the same simulations and leave the same
machine in either order, whatever their tables, their limits and their cursors. -/
theorem run_commutes (first second : Simulator) (left right : View) (leftStart rightStart : Cursor)
    (machine : Machine) (apart : left.Apart right) :
    let leftFirst := first.run left leftStart machine
    let rightNext := second.run right rightStart leftFirst.machine
    let rightFirst := second.run right rightStart machine
    let leftNext := first.run left leftStart rightFirst.machine
    leftNext.simulation = leftFirst.simulation ∧
      rightNext.simulation = rightFirst.simulation ∧
      rightNext.machine = leftNext.machine := by
  intro leftFirst rightNext rightFirst leftNext
  obtain ⟨leftSame, leftMirrors⟩ :=
    first.run_beside second apart leftStart rightStart machine
  obtain ⟨rightSame, rightMirrors⟩ :=
    second.run_beside first apart.symm rightStart leftStart machine
  refine ⟨leftSame, rightSame, ?_⟩
  apply Machine.PatchedWithin.commute apart
  · exact first.run_patched_within left leftStart machine
  · exact second.run_patched_within right rightStart leftFirst.machine
  · exact second.run_patched_within right rightStart machine
  · exact first.run_patched_within left leftStart rightFirst.machine
  · exact leftMirrors
  · exact rightMirrors

/-- The second script begins where the first one ends, and one of them overflows. -/
theorem run_commutes_of_neighbours :
    let first := Simulator.withLimit Dialect.routine5C3FD5.table .off 64
    let second := Simulator.withLimit Dialect.routine5C23D1.table .off 64
    let left : View := ⟨0x1000, 4⟩
    let right : View := ⟨0x1004, 4⟩
    let machine : Machine :=
      ⟨⟨0x1000, ⟨#[0xF5, 3, 0xF4, 0xFF, 0xF5, 200, 0xF4, 0xFF]⟩⟩, .active⟩
    let rightNext := second.run right .start (first.run left .start machine).machine
    let leftNext := first.run left .start (second.run right .start machine).machine
    left.Apart right ∧ rightNext.machine = leftNext.machine ∧
      rightNext.machine.memory.bytes = #[0xF5, 6, 0xF4, 0xFF, 0xF5, 144, 0xF4, 0xFF] ∧
      rightNext.simulation.diagnostics = [.argumentOverflow 0x1005 200 144] := by
  intro first second left right machine rightNext leftNext
  have apart : left.Apart right := View.apart_of_le (by decide) (by decide)
  obtain ⟨-, -, same⟩ := run_commutes first second left right .start .start machine apart
  exact ⟨apart, same, by decide +kernel, by decide +kernel⟩

end Simulator

end CameraScript
