import CameraScript.Layout
import CameraScript.Proofs.MirroredWalks
import CameraScript.Proofs.RegionAccess
import CameraScript.Proofs.WalkFrame

/-!
# Scripts at other addresses

A run depends on its script alone. Where two images hold the same bytes and the same records
from one address each, as far as the script reaches, the runs from there agree in all but the
addresses that they report, and leave the scripts in agreement again. Neither the address of
the script nor the bytes around it have a part in a run, and it makes no difference whether
the script ends with its image or was cut off before.
-/

namespace CameraScript

/-- The views that can be had of an image. Truncation may be repeated. -/
inductive Region.Offers (region : Region) : View → Prop where
  | opened {addr : UInt32} {view : View} (found : region.view addr = .ok view) :
      Offers region view
  | resolved {layout : Layout} {trace : TraceFlags} {dialect : Dialect} {variation : Int8}
      {selector : Int16} {view : View}
      (found : (layout.resolve trace region dialect variation selector).1 = .ok view) :
      Offers region view
  | truncated {view : View} (offered : Offers region view) (length : Nat) :
      Offers region (view.truncate length)

theorem Layout.view_of_resolve {layout : Layout} {trace : TraceFlags} {memory : Region}
    {dialect : Dialect} {variation : Int8} {selector : Int16} {view : View}
    (found : (layout.resolve trace memory dialect variation selector).1 = .ok view) :
    ∃ addr, memory.view addr = .ok view := by
  unfold resolve at found
  split at found
  · contradiction
  · split at found
    · contradiction
    · rename_i addr located
      refine ⟨addr, ?_⟩
      cases opened : memory.view addr with
      | ok other =>
          rw [opened] at found
          cases found
          rfl
      | error fault =>
          rw [opened] at found
          contradiction

namespace Region

variable {region : Region} {view : View}

theorem view_inside {addr : UInt32} (found : region.view addr = .ok view) :
    region.base ≤ view.start ∧ view.start.toNat + view.length ≤ region.finish := by
  obtain ⟨start, ends, -⟩ := view_extent found
  have covered := view_ok_iff.mp ⟨view, found⟩
  rw [start]
  exact ⟨covered.1, Nat.le_of_eq ends⟩

theorem Offers.inside (offered : region.Offers view) :
    region.base ≤ view.start ∧ view.start.toNat + view.length ≤ region.finish := by
  induction offered with
  | opened found => exact view_inside found
  | resolved found =>
      obtain ⟨addr, opened⟩ := Layout.view_of_resolve found
      exact view_inside opened
  | truncated offered length ih =>
      obtain ⟨after, before⟩ := ih
      refine ⟨after, ?_⟩
      simp only [View.truncate]
      omega

end Region

/-- Behind the last position a script goes on without being named. -/
theorem View.not_names_beyond (view : View) {offset : Nat} (far : UInt16.size ≤ offset)
    (bound : offset < UInt32.size) : ¬ view.Names (view.start + UInt32.ofNat offset) := by
  rintro ⟨position, place⟩
  obtain ⟨-, same⟩ := View.addr_of_eq_some_iff.mp place
  have widened := congrArg UInt32.toNat ((UInt32.add_right_inj view.start).mp same)
  rw [UInt16.toNat_toUInt32, UInt32.toNat_ofNat_of_lt' bound] at widened
  have small := position.toNat_lt_size
  omega

/-- The same script in two machines: its bytes and its records agree, offset by offset, also
where an offset is too large for a position. -/
structure Machine.Coincides (view twin : View) (left right : Machine) : Prop where
  enabled : right.patcher.enabled = left.patcher.enabled
  bytes : ∀ offset < view.length,
    right.memory.byte? (twin.start + UInt32.ofNat offset) =
      left.memory.byte? (view.start + UInt32.ofNat offset)
  recorded : ∀ offset < view.length,
    right.patcher.isPatched (twin.start + UInt32.ofNat offset) =
      left.patcher.isPatched (view.start + UInt32.ofNat offset)

namespace Machine.Coincides

variable {view twin : View} {left right afterLeft afterRight : Machine}

theorem mirrors (coincides : left.Coincides view twin right) (lengths : twin.length = view.length)
    (offered : left.memory.Offers view)
    (fits : view.start.toNat + view.length ≤ UInt32.size) : left.Mirrors view twin right where
  enabled := coincides.enabled
  bytes position := by
    by_cases inside : position.toNat < view.length
    · have same := coincides.bytes position.toNat inside
      rw [UInt32.ofNat_uInt16ToNat] at same
      rw [View.byte_of_inside inside, View.byte_of_inside (lengths ▸ inside)]
      exact same
    · simp only [View.byte?, View.addrOf?, lengths, if_neg inside, Option.bind_none]
  recorded position inside := by
    have same := coincides.recorded position.toNat inside
    rw [UInt32.ofNat_uInt16ToNat] at same
    exact same
  refused position inside absent := by
    obtain ⟨after, ends⟩ := offered.inside
    obtain ⟨byte, found⟩ := View.byte_present after ends fits inside
    rw [found] at absent
    contradiction

/-- Doublings that leave two scripts looking alike to a walk leave them coinciding, because
what lies behind the last position is left as it was. -/
theorem patched (coincides : left.Coincides view twin right) (lengths : twin.length = view.length)
    (bound : view.length ≤ UInt32.size) (first : left.PatchedWithin view afterLeft)
    (second : right.PatchedWithin twin afterRight)
    (mirrors : afterLeft.Mirrors view twin afterRight) :
    afterLeft.Coincides view twin afterRight where
  enabled := mirrors.enabled
  -- A view may be longer than there are positions; what lies behind the last of them has no
  -- position to be doubled through.
  bytes offset inside := by
    by_cases near : offset < UInt16.size
    · have position : (UInt16.ofNat offset).toNat = offset := UInt16.toNat_ofNat_of_lt' near
      have same := mirrors.bytes (UInt16.ofNat offset)
      rw [View.byte_of_inside (by omega), View.byte_of_inside (by omega),
        UInt16.toUInt32_ofNat' near] at same
      exact same
    · have far : UInt16.size ≤ offset := by omega
      rw [second.byte_outside (twin.not_names_beyond far (by omega)),
        first.byte_outside (view.not_names_beyond far (by omega))]
      exact coincides.bytes offset inside
  recorded offset inside := by
    by_cases near : offset < UInt16.size
    · have position : (UInt16.ofNat offset).toNat = offset := UInt16.toNat_ofNat_of_lt' near
      have same := mirrors.recorded (UInt16.ofNat offset) (by omega)
      rw [UInt16.toUInt32_ofNat' near] at same
      exact same
    · have far : UInt16.size ≤ offset := by omega
      rw [second.recorded_outside (twin.not_names_beyond far (by omega)),
        first.recorded_outside (view.not_names_beyond far (by omega))]
      exact coincides.recorded offset inside

end Machine.Coincides

namespace Simulator

/-- Scripts that coincide are run alike and coincide again afterwards. The simulations differ in
nothing but the addresses of their reports, which are counted from the start of the script. -/
theorem run_relocated (simulator : Simulator) (trace : TraceFlags) {view twin : View}
    {left right : Machine} (offered : left.memory.Offers view)
    (fits : view.start.toNat + view.length ≤ UInt32.size) (lengths : twin.length = view.length)
    (coincides : left.Coincides view twin right) (cursor : Cursor) :
    let one := simulator.run view cursor left
    let other := Simulator.run { simulator with trace } twin cursor right
    other.simulation =
        { one.simulation with
          diagnostics := one.simulation.diagnostics.map (Diagnostic.relocate view twin) } ∧
      one.machine.Coincides view twin other.machine := by
  intro one other
  have alike : left.Mirrors view twin right := coincides.mirrors lengths offered fits
  have tables : Simulator.table { simulator with trace } = simulator.table := rfl
  have limits : Simulator.stepLimit { simulator with trace } = simulator.stepLimit := rfl
  obtain ⟨simulations, mirrors⟩ := run_mirrors tables limits lengths alike cursor
  refine ⟨simulations, ?_⟩
  apply coincides.patched lengths (by omega)
  · exact simulator.run_patched_within view cursor left
  · exact Simulator.run_patched_within { simulator with trace } twin cursor right
  · exact mirrors

/-- A script at the end of the address space, where the report of its fault wraps around, and
the same script in the middle of another image, where it was cut off and its byte behind the
end is recorded. -/
theorem run_relocated_around_the_end :
    let simulator := withLimit Dialect.routine5C3FD5.table .off 64
    let view : View := ⟨0xFFFFFFFD, 3⟩
    let twin : View := View.truncate ⟨0x1001, 4⟩ 3
    let left : Machine := ⟨⟨0xFFFFFFFD, ⟨#[0xF5, 200, 0xE2]⟩⟩, .active⟩
    let right : Machine :=
      ⟨⟨0x1000, ⟨#[0xFF, 0xF5, 200, 0xE2, 7]⟩⟩, ⟨true, Std.ExtTreeSet.empty.insert 0x1004⟩⟩
    left.memory.Offers view ∧ left.Coincides view twin right ∧
      (simulator.run view .start left).simulation.diagnostics =
        [.argumentOverflow 0xFFFFFFFE 200 144, .patchFault 0 (.outsideScript 3)] ∧
      (simulator.run twin .start right).simulation =
        ⟨⟨3, 144⟩, .fault, 2,
          [.argumentOverflow 0x1002 200 144, .patchFault 0x1004 (.outsideScript 3)]⟩ := by
  intro simulator view twin left right
  have found : left.memory.view 0xFFFFFFFD = .ok view := rfl
  have offered : left.memory.Offers view := .opened found
  have coincides : left.Coincides view twin right :=
    ⟨rfl, by decide +kernel, by decide +kernel⟩
  have walked : (simulator.run view .start left).simulation =
      ⟨⟨3, 144⟩, .fault, 2,
        [.argumentOverflow 0xFFFFFFFE 200 144, .patchFault 0 (.outsideScript 3)]⟩ := by
    decide +kernel
  have moved : List.map (Diagnostic.relocate view twin)
      [.argumentOverflow 0xFFFFFFFE 200 144, .patchFault 0 (.outsideScript 3)] =
        [.argumentOverflow 0x1002 200 144, .patchFault 0x1004 (.outsideScript 3)] := by
    decide +kernel
  have lengths : twin.length = view.length := rfl
  obtain ⟨simulations, -⟩ :=
    run_relocated simulator simulator.trace offered (by decide) lengths coincides .start
  simp only [walked, moved] at simulations
  exact ⟨offered, coincides, by rw [walked], simulations⟩

end Simulator

end CameraScript
