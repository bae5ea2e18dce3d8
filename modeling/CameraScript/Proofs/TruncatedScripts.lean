import CameraScript.Simulator

/-!
# Bytes behind the end of a script

A walk asks for a position before it uses the byte there, and a position outside the script
ends the walk with an overrun or a fault. A step over a shorter script is therefore the same
step over a longer one, or one of these two ends, and so is a run: a script that ends in
another way ends in the same way whatever bytes follow it.
-/

namespace CameraScript

/-- The shorter of two scripts that begin at the same address. -/
structure View.Heads (short long : View) : Prop where
  start : long.start = short.start
  shorter : short.length ≤ long.length

namespace View

variable {short long : View}

theorem truncate_heads (view : View) {few many : Nat} (order : few ≤ many) :
    (view.truncate few).Heads (view.truncate many) where
  start := rfl
  shorter := by
    simp only [truncate]
    omega

theorem truncate_heads_whole (view : View) (length : Nat) : (view.truncate length).Heads view where
  start := rfl
  shorter := Nat.min_le_left view.length length

theorem Heads.byte (heads : short.Heads long) {region : Region} {position : UInt16} {byte : UInt8}
    (found : short.byte? region position = some byte) :
    long.byte? region position = some byte := by
  obtain ⟨addr, named, holds⟩ := Option.bind_eq_some_iff.mp found
  obtain ⟨inside, place⟩ := addr_of_eq_some_iff.mp named
  apply Option.bind_eq_some_iff.mpr
  refine ⟨addr, ?_, holds⟩
  apply addr_of_eq_some_iff.mpr
  rw [heads.start]
  exact ⟨Nat.lt_of_lt_of_le inside heads.shorter, place⟩

end View

/-- The progress over a shorter script, which is that over a longer one unless the walk left
the shorter script. -/
inductive Progress.Extends : Progress → Progress → Prop where
  | same (progress : Progress) : Extends progress progress
  | overrun (walk : Walk) (longer : Progress) : Extends (.halted .overrun walk) longer
  | fault (walk : Walk) (longer : Progress) : Extends (.halted .fault walk) longer

theorem Progress.Extends.and_then {shorter longer : Progress} (extended : shorter.Extends longer)
    {first second : Walk → Progress} (next : ∀ walk, (first walk).Extends (second walk)) :
    (shorter.andThen first).Extends (longer.andThen second) := by
  cases extended with
  | same =>
      cases shorter with
      | resumed walk => exact next walk
      | halted reason walk => exact .same _
  | overrun => exact .overrun _ _
  | fault => exact .fault _ _

namespace View.Heads

variable {short long : View} (heads : short.Heads long)

include heads

theorem read_then (position : UInt16) (walk : Walk) {first second : UInt8 → Walk → Progress}
    (next : ∀ byte, (first byte walk).Extends (second byte walk)) :
    (walk.readThen short position first).Extends (walk.readThen long position second) := by
  unfold Walk.readThen
  cases found : short.byte? walk.machine.memory position with
  | none => exact .overrun _ _
  | some byte =>
      rw [heads.byte found]
      exact next byte

theorem patch_argument (position : UInt16) (walk : Walk) :
    (walk.patchArgument short position).Extends (walk.patchArgument long position) := by
  unfold Walk.patchArgument
  by_cases inside : position.toNat < short.length
  · have within : position.toNat < long.length := Nat.lt_of_lt_of_le inside heads.shorter
    simp only [heads.start, if_pos inside, if_pos within]
    exact .same _
  · simp only [if_neg inside]
    exact .fault _ _

theorem step_set_wait (walk : Walk) :
    (Simulator.stepSetWait short walk).Extends (Simulator.stepSetWait long walk) := by
  unfold Simulator.stepSetWait
  apply (heads.patch_argument _ walk).and_then
  intro patched
  apply heads.read_then
  intro frames
  exact .same _

variable (simulator : Simulator)

theorem step_restart (walk : Walk) :
    (simulator.stepRestart short walk).Extends (simulator.stepRestart long walk) := by
  unfold Simulator.stepRestart
  split
  · apply heads.read_then
    intro next
    exact .same _
  · exact .same _

theorem step_table (opcode : UInt8) (origin : UInt16) (walk : Walk) :
    (simulator.stepTable short opcode origin walk).Extends
      (simulator.stepTable long opcode origin walk) := by
  unfold Simulator.stepTable
  cases simulator.table.get? opcode with
  | none => exact .same _
  | some descriptor =>
      simp only
      cases descriptor.doubled with
      | none => exact .same _
      | some index =>
          apply (heads.patch_argument _ walk).and_then
          intro patched
          exact .same _

/-- One opcode over a shorter script is the same opcode over a longer one, or leaves it. -/
theorem step (walk : Walk) : (simulator.step short walk).Extends (simulator.step long walk) := by
  unfold Simulator.step
  apply heads.read_then
  intro opcode
  simp only
  cases Control.ofOpcode? opcode with
  | none => exact heads.step_table simulator opcode _ _
  | some control =>
      cases control with
      | wait => exact .same _
      | setWait => exact heads.step_set_wait _
      | restart => exact heads.step_restart simulator _

theorem walk_from (budget taken : Nat) (walk : Walk)
    (inside : (simulator.walkFrom short budget taken walk).1 ≠ .overrun)
    (calm : (simulator.walkFrom short budget taken walk).1 ≠ .fault) :
    simulator.walkFrom long budget taken walk = simulator.walkFrom short budget taken walk := by
  induction budget generalizing taken walk with
  | zero => rfl
  | succ budget ih =>
      have stepped := heads.step simulator walk
      -- A step that leaves the shorter script ends the walk over it, against one of the
      -- two hypotheses; any other step is taken over both scripts.
      unfold Simulator.walkFrom at inside calm ⊢
      generalize simulator.step short walk = shorter at inside calm stepped ⊢
      generalize simulator.step long walk = longer at stepped ⊢
      cases stepped with
      | same =>
          cases shorter with
          | resumed next => exact ih (taken + 1) next inside calm
          | halted reason final => rfl
      | overrun => exact absurd rfl inside
      | fault => exact absurd rfl calm

theorem run (cursor : Cursor) (machine : Machine)
    (inside : (simulator.run short cursor machine).simulation.halt ≠ .overrun)
    (calm : (simulator.run short cursor machine).simulation.halt ≠ .fault) :
    simulator.run long cursor machine = simulator.run short cursor machine := by
  have walked := heads.walk_from simulator simulator.stepLimit 0
    ((Walk.begin machine cursor).note simulator.trace .walkStarted) inside calm
  unfold Simulator.run
  simp only [walked]

end View.Heads

namespace Simulator

/-- A run that neither overruns the script nor faults does not depend on what follows the
script: over any longer part of the view, and over the whole view, it is the same run, its log
included. -/
theorem run_ignores_tail (simulator : Simulator) (view : View) (cursor : Cursor)
    (machine : Machine) {few many : Nat} (order : few ≤ many)
    (inside : (simulator.run (view.truncate few) cursor machine).simulation.halt ≠ .overrun)
    (calm : (simulator.run (view.truncate few) cursor machine).simulation.halt ≠ .fault) :
    simulator.run (view.truncate many) cursor machine =
        simulator.run (view.truncate few) cursor machine ∧
      simulator.run view cursor machine =
        simulator.run (view.truncate few) cursor machine := by
  constructor
  · exact (view.truncate_heads order).run simulator cursor machine inside calm
  · exact (view.truncate_heads_whole few).run simulator cursor machine inside calm

/-- The script stops at a wait that is its last byte, so that only the longer views have a byte
behind the opcode. -/
theorem run_ignores_tail_behind_wait :
    let simulator := withLimit Dialect.routine5C3FD5.table .off 64
    let view : View := ⟨0x1000, 7⟩
    let machine : Machine := ⟨⟨0x1000, ⟨#[0xE2, 3, 0xF5, 1, 0xF4, 0xE2, 9]⟩⟩, .active⟩
    (simulator.run (view.truncate 5) .start machine).simulation =
        ⟨⟨4, 1⟩, .yielded, 3, []⟩ ∧
      simulator.run (view.truncate 6) .start machine =
        simulator.run (view.truncate 5) .start machine ∧
      (simulator.run view .start machine).machine.memory.bytes =
        #[0xE2, 6, 0xF5, 2, 0xF4, 0xE2, 9] := by
  intro simulator view machine
  have walked : (simulator.run (view.truncate 5) .start machine).simulation =
      ⟨⟨4, 1⟩, .yielded, 3, []⟩ := by decide +kernel
  have order : 5 ≤ 6 := by decide
  obtain ⟨longer, whole⟩ := run_ignores_tail simulator view .start machine order
    (by rw [walked]; decide) (by rw [walked]; decide)
  refine ⟨walked, longer, ?_⟩
  rw [whole]
  decide +kernel

end Simulator

end CameraScript
