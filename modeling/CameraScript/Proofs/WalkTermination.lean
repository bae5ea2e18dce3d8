import CameraScript.Proofs.OpcodeSpans

/-!
# Walks end by themselves

A step that goes on either comes closer to the end of the script or takes the one
restart that a walk has. The steps that are left are therefore bounded by the length
of the script, whatever the walk writes into the bytes that it is about to read.
-/

namespace CameraScript

namespace Simulator

variable {simulator : Simulator} {view : View}

/-- A step that goes on moves forward, or takes the restart at an opcode that is not
the last byte of the script. -/
theorem step_progress (fits : simulator.table.Fits view.length) {walk next : Walk}
    (resumed : simulator.step view walk = .resumed next) :
    walk.cursor.position.toNat < view.length ∧
      ((next.restarted = walk.restarted ∧
          walk.cursor.position.toNat < next.cursor.position.toNat) ∨
        (walk.restarted = false ∧ next.restarted = true ∧ next.cursor = .start ∧
          walk.cursor.position.toNat + 1 < view.length)) := by
  obtain ⟨opcode, ready, prepared, machine, -, turned⟩ := step_resumed resumed
  have inside := View.inside_of_byte prepared.fetched
  have room := fits opcode
  have single := simulator.table.one_le_span opcode
  refine ⟨inside, ?_⟩
  rcases turned with ⟨onward, kept⟩ | ⟨anew, first, start, second⟩
  · have moved := Table.turn_onward (by omega) onward
    exact .inl ⟨kept, by omega⟩
  · obtain ⟨-, -, marked⟩ := Table.turn_anew anew
    have after := View.inside_of_byte marked
    rw [Table.to_nat_add_one (by omega)] at after
    exact .inr ⟨first, second, start, after⟩

/-- The most steps that a walk can still take: to the end of the script and once
past it, and the same again behind a restart. -/
def stepsLeft (view : View) (walk : Walk) : Nat :=
  (view.length - walk.cursor.position.toNat) + 1 +
    (if walk.restarted then 0 else view.length - 1)

theorem steps_left_decreases (fits : simulator.table.Fits view.length) {walk next : Walk}
    (resumed : simulator.step view walk = .resumed next) :
    stepsLeft view next < stepsLeft view walk := by
  obtain ⟨inside, ⟨kept, moved⟩ | ⟨first, second, start, after⟩⟩ := step_progress fits resumed
  · simp only [stepsLeft, kept]
    omega
  · have zero : Cursor.start.position.toNat = 0 := rfl
    simp only [stepsLeft, first, second, start, zero, if_true, Bool.false_eq_true, if_false]
    omega

theorem restarted_of_walk_from (simulator : Simulator) (view : View) (budget taken : Nat)
    {walk : Walk} (restarted : walk.restarted = true) :
    (simulator.walkFrom view budget taken walk).2.2.restarted = true := by
  induction budget generalizing taken walk with
  | zero => exact restarted
  | succ budget ih =>
      have kept := restarted_of_step simulator view restarted
      unfold walkFrom
      cases stepped : simulator.step view walk with
      | resumed next =>
          rw [stepped] at kept
          exact ih (taken + 1) kept
      | halted reason final =>
          rw [stepped] at kept
          exact kept

theorem walk_ends_within (fits : simulator.table.Fits view.length) (budget taken : Nat)
    (walk : Walk) (enough : stepsLeft view walk ≤ budget) :
    (simulator.walkFrom view budget taken walk).1 ≠ .stepBudget ∧
      (simulator.walkFrom view budget taken walk).2.1 ≤ taken + stepsLeft view walk := by
  induction budget generalizing taken walk with
  | zero =>
      unfold stepsLeft at enough
      omega
  | succ budget ih =>
      unfold walkFrom
      cases stepped : simulator.step view walk with
      | resumed next =>
          have decreased := steps_left_decreases fits stepped
          obtain ⟨ends, bounded⟩ := ih (taken + 1) next (by omega)
          exact ⟨ends, by simp only; omega⟩
      | halted reason final =>
          refine ⟨step_never_exhausts stepped, ?_⟩
          simp only [stepsLeft]
          omega

theorem walk_steps_without_restart (fits : simulator.table.Fits view.length) (budget taken : Nat)
    (walk : Walk)
    (single : (simulator.walkFrom view budget taken walk).2.2.restarted = false) :
    (simulator.walkFrom view budget taken walk).2.1 ≤
      taken + (view.length - walk.cursor.position.toNat) + 1 := by
  induction budget generalizing taken walk with
  | zero =>
      simp only [walkFrom]
      omega
  | succ budget ih =>
      unfold walkFrom at single ⊢
      cases stepped : simulator.step view walk with
      | resumed next =>
          rw [stepped] at single
          have bounded := ih (taken + 1) next single
          obtain ⟨inside, ⟨-, moved⟩ | ⟨-, second, -⟩⟩ := step_progress fits stepped
          · simp only at bounded ⊢
            omega
          · have again := restarted_of_walk_from simulator view budget (taken + 1) second
            rw [again] at single
            contradiction
      | halted reason final =>
          simp only
          omega

def takesRestart (simulator : Simulator) (view : View) (cursor : Cursor) (machine : Machine) :
    Bool :=
  (simulator.walkFrom view simulator.stepLimit 0
    (simulator.beginning cursor machine)).2.2.restarted

/-- A limit of twice the length of the script is never exhausted, and neither is the
default limit by a script of half its length. -/
theorem run_ends_by_itself (simulator : Simulator) (view : View) (cursor : Cursor)
    (machine : Machine) (short : view.length ≤ 65408) :
    (max 1 (2 * view.length) ≤ simulator.stepLimit →
        (simulator.run view cursor machine).simulation.halt ≠ .stepBudget ∧
          (simulator.run view cursor machine).simulation.steps ≤ max 1 (2 * view.length) ∧
          (simulator.takesRestart view cursor machine = false →
            (simulator.run view cursor machine).simulation.steps ≤ view.length + 1)) ∧
      (view.length ≤ 32768 → simulator.stepLimit = defaultStepLimit →
        (simulator.run view cursor machine).simulation.halt ≠ .stepBudget) := by
  let begun := simulator.beginning cursor machine
  have fits := simulator.table.fits_of_length_le short
  have bound : stepsLeft view begun ≤ max 1 (2 * view.length) := by
    have fresh : begun.restarted = false := rfl
    simp only [stepsLeft, fresh, Bool.false_eq_true, if_false]
    omega
  constructor
  · intro enough
    obtain ⟨ends, bounded⟩ := walk_ends_within fits simulator.stepLimit 0 begun (by omega)
    refine ⟨ends, ?_, ?_⟩
    · change (simulator.walkFrom view simulator.stepLimit 0 begun).2.1 ≤ _
      omega
    · intro single
      have steps := walk_steps_without_restart fits simulator.stepLimit 0 begun single
      change (simulator.walkFrom view simulator.stepLimit 0 begun).2.1 ≤ _
      omega
  · intro half standard
    have limit : defaultStepLimit = 65536 := rfl
    exact (walk_ends_within fits simulator.stepLimit 0 begun (by omega)).1

/-- A walk that doubles an argument and takes its restart before it ends, and one that
meets no restart at all. -/
theorem run_ends_by_itself_at_restart :
    let simulator := withLimit Dialect.routine5C3FD5.table ⟨false, false⟩ 8
    let restarting : Machine := ⟨⟨0x1000, ⟨#[0xE2, 3, 0xFE, 0xC0]⟩⟩, .active⟩
    let waiting : Machine := ⟨⟨0x1000, ⟨#[0xF5, 3, 0xF4, 0xFF]⟩⟩, .active⟩
    (simulator.run ⟨0x1000, 4⟩ .start restarting).simulation.halt ≠ .stepBudget ∧
      (simulator.run ⟨0x1000, 4⟩ .start restarting).simulation.steps ≤ 8 ∧
      (simulator.run ⟨0x1000, 4⟩ .start waiting).simulation.steps ≤ 5 := by
  intro simulator restarting waiting
  obtain ⟨ends, bounded, -⟩ :=
    (run_ends_by_itself simulator ⟨0x1000, 4⟩ .start restarting (by decide)).1 (by decide)
  obtain ⟨-, -, single⟩ :=
    (run_ends_by_itself simulator ⟨0x1000, 4⟩ .start waiting (by decide)).1 (by decide)
  exact ⟨ends, bounded, single (by decide +kernel)⟩

end Simulator

end CameraScript
