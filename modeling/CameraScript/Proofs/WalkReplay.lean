import CameraScript.Proofs.WalkFrame
import CameraScript.Proofs.WalkTermination

/-!
# Walks over the bytes that they left behind

A walk doubles only what lies ahead of it. A byte that it has read therefore has its
final value, and the same walk over the final machine reads the same bytes, turns
alike at every opcode and finds nothing left to double.
-/

namespace CameraScript

/-- A later machine that has taken back nothing, and has changed no byte up to a
position. -/
structure Machine.KeptBy (view : View) (bound : Nat) (machine later : Machine) : Prop where
  enabled : later.patcher.enabled = machine.patcher.enabled
  patched : ∀ addr, machine.patcher.isPatched addr = true →
    later.patcher.isPatched addr = true
  bytes : ∀ position : UInt16, position.toNat ≤ bound →
    view.byte? later.memory position = view.byte? machine.memory position

namespace Machine

variable {view : View} {bound : Nat} {machine later : Machine}

theorem KeptBy.refl (view : View) (bound : Nat) (machine : Machine) :
    machine.KeptBy view bound machine :=
  ⟨rfl, fun _ known => known, fun _ _ => rfl⟩

theorem KeptBy.trans {final : Machine} {farther : Nat} (first : machine.KeptBy view bound later)
    (second : later.KeptBy view farther final) (order : bound ≤ farther) :
    machine.KeptBy view bound final where
  enabled := second.enabled.trans first.enabled
  patched addr known := second.patched addr (first.patched addr known)
  bytes position behind :=
    (second.bytes position (Nat.le_trans behind order)).trans (first.bytes position behind)

theorem KeptBy.settled (kept : machine.KeptBy view bound later) {addr : UInt32}
    (settled : machine.Settled addr) : later.Settled addr := by
  rcases settled with off | known
  · exact .inl (kept.enabled.trans off)
  · exact .inr (kept.patched addr known)

theorem kept_by_patch_at (view : View) (machine : Machine) {argument? : Option UInt16}
    (ahead : ∀ argument, argument? = some argument → bound < argument.toNat) :
    machine.KeptBy view bound (machine.patchAt view argument?) := by
  cases argument? with
  | none => exact KeptBy.refl view bound machine
  | some argument =>
      have beyond := ahead argument rfl
      exact {
        enabled := machine.patch_enabled _
        patched := fun _ known => machine.patch_keeps_patched _ known
        bytes := fun position behind => by
          apply view.byte_patch_of_ne
          intro same
          rw [same] at behind
          omega }

theorem patch_at_of_settled {argument? : Option UInt16}
    (settled : ∀ argument, argument? = some argument →
      machine.Settled (view.start + argument.toUInt32)) :
    machine.patchAt view argument? = machine := by
  cases argument? with
  | none => rfl
  | some argument =>
      obtain ⟨outcome, went, -⟩ := patch_of_settled (settled argument rfl)
      simp only [patchAt, went]

end Machine

namespace Simulator

variable {simulator : Simulator} {view : View}

theorem step_of_settled {walk : Walk} {opcode : UInt8}
    (fetched : view.byte? walk.machine.memory walk.cursor.position = some opcode)
    (settled : ∀ argument,
      simulator.table.doubledAt? opcode walk.cursor.position = some argument →
        argument.toNat < view.length ∧
          walk.machine.Settled (view.start + argument.toUInt32)) :
    ∃ ready, walk.Ready simulator.table view opcode ready ∧ ready.machine = walk.machine ∧
      simulator.step view walk =
        ready.follow (simulator.turnAt view opcode walk.cursor walk.machine.memory) := by
  have accepted : ∀ argument,
      simulator.table.doubledAt? opcode walk.cursor.position = some argument →
        argument.toNat < view.length ∧
          ∃ outcome, (walk.machine.patch (view.start + argument.toUInt32)).1 = .ok outcome := by
    intro argument doubled
    obtain ⟨inside, calm⟩ := settled argument doubled
    obtain ⟨outcome, went, -⟩ := Machine.patch_of_settled calm
    exact ⟨inside, outcome, by rw [went]⟩
  obtain ⟨ready, prepared, stepped⟩ := simulator.step_of_accepted walk fetched accepted
  have machine : ready.machine = walk.machine := prepared.machine.trans
    (Machine.patch_at_of_settled fun argument doubled => (settled argument doubled).2)
  exact ⟨ready, prepared, machine, by rw [stepped, machine]⟩

/-- A restart doubles nothing. From the same place with the same machine it is taken again,
and the second one of a walk ends it. -/
theorem step_of_anew {walk ready : Walk} {opcode : UInt8}
    (prepared : walk.Ready simulator.table view opcode ready)
    (turned : simulator.turnAt view opcode walk.cursor ready.machine.memory = .anew) :
    ready.machine = walk.machine ∧
      ∀ again : Walk, again.cursor = walk.cursor → again.machine = walk.machine →
        ∃ begun, begun.cursor = .start ∧ begun.machine = walk.machine ∧
          begun.restarted = true ∧
          simulator.step view again =
            if again.restarted then .halted .restarted begun else .resumed begun := by
  obtain ⟨control, -, -⟩ := Table.turn_anew turned
  have undoubled : simulator.table.doubledAt? opcode walk.cursor.position = none := by
    simp only [Table.doubledAt?, control]
  have unchanged : ready.machine = walk.machine := by
    rw [prepared.machine, undoubled]
    rfl
  refine ⟨unchanged, ?_⟩
  intro again cursor same
  have fetched : view.byte? again.machine.memory again.cursor.position = some opcode := by
    rw [same, cursor]
    exact prepared.fetched
  obtain ⟨entered, preparedAgain, still, stepped⟩ := step_of_settled fetched
    fun argument doubled => by
      rw [cursor, undoubled] at doubled
      contradiction
  have turnedAgain : simulator.turnAt view opcode again.cursor again.machine.memory = .anew := by
    rw [cursor, same, ← unchanged]
    exact turned
  refine ⟨{ entered with cursor := .start, restarted := true }, rfl, still.trans same, rfl, ?_⟩
  rw [stepped, turnedAgain, Walk.follow, preparedAgain.restarted]
  by_cases flag : again.restarted = true
  · have kept : entered.restarted = true := preparedAgain.restarted.trans flag
    simp only [flag, if_true, ← kept]
  · simp only [flag]
    rfl

inductive Reaches (simulator : Simulator) (view : View) : Nat → Walk → Walk → Prop where
  | refl (walk : Walk) : Reaches simulator view 0 walk walk
  | step {steps : Nat} {walk next last : Walk}
      (resumed : simulator.step view walk = .resumed next)
      (rest : Reaches simulator view steps next last) :
      Reaches simulator view (steps + 1) walk last

theorem Reaches.trans {first second : Nat} {walk middle last : Walk}
    (earlier : simulator.Reaches view first walk middle)
    (later : simulator.Reaches view second middle last) :
    simulator.Reaches view (second + first) walk last := by
  induction earlier with
  | refl => exact later
  | step resumed rest ih => exact .step resumed (ih later)

theorem Reaches.preserves {Holds : Machine → Prop}
    (kept : ∀ machine addr, view.Names addr → Holds machine → Holds (machine.patch addr).2)
    {steps : Nat} {walk last : Walk} (reaches : simulator.Reaches view steps walk last)
    (holds : Holds walk.machine) : Holds last.machine := by
  induction reaches with
  | refl => exact holds
  | step resumed rest ih =>
      have stepped := simulator.step_preserves view kept holds
      rw [resumed] at stepped
      exact ih stepped

/-- Behind a part of a walk that was taken already, the walk goes on under the rest of its
budget. -/
theorem walk_from_continues {steps : Nat} {walk last : Walk}
    (reaches : simulator.Reaches view steps walk last) (rest taken : Nat) :
    simulator.walkFrom view (steps + rest) taken walk =
      simulator.walkFrom view rest (taken + steps) last := by
  induction reaches generalizing taken with
  | refl => rw [Nat.zero_add, Nat.add_zero]
  | @step steps walk next last resumed further ih =>
      have budget : steps + 1 + rest = (steps + rest) + 1 := by omega
      have counted : taken + 1 + steps = taken + (steps + 1) := by omega
      rw [budget, walkFrom, resumed]
      simp only
      rw [ih (taken + 1), counted]

theorem walk_from_of_reaches {steps : Nat} {walk last final : Walk} {reason : Halt}
    (reaches : simulator.Reaches view steps walk last)
    (halted : simulator.step view last = .halted reason final) {budget : Nat} (taken : Nat)
    (few : steps < budget) :
    simulator.walkFrom view budget taken walk = (reason, taken + steps + 1, final) := by
  obtain ⟨rest, rfl⟩ := Nat.exists_eq_add_of_lt few
  rw [Nat.add_assoc, walk_from_continues reaches, walkFrom, halted]

theorem walk_from_exhausts {budget : Nat} {walk last : Walk}
    (reaches : simulator.Reaches view budget walk last) (taken : Nat) :
    simulator.walkFrom view budget taken walk =
      (.stepBudget, taken + budget, last.raise (.budgetExhausted (taken + budget))) :=
  walk_from_continues reaches 0 taken

theorem reaches_or_halts (simulator : Simulator) (view : View) (budget : Nat) (walk : Walk) :
    (∃ steps last reason final, simulator.Reaches view steps walk last ∧ steps < budget ∧
        simulator.step view last = .halted reason final) ∨
      ∃ last, simulator.Reaches view budget walk last := by
  induction budget generalizing walk with
  | zero => exact .inr ⟨walk, .refl walk⟩
  | succ budget ih =>
      cases stepped : simulator.step view walk with
      | halted reason final =>
          exact .inl ⟨0, walk, reason, final, .refl walk, by omega, stepped⟩
      | resumed next =>
          rcases ih next with ⟨steps, last, reason, final, reaches, few, halted⟩ | ⟨last, reaches⟩
          · exact .inl ⟨steps + 1, last, reason, final, .step stepped reaches, by omega, halted⟩
          · exact .inr ⟨last, .step stepped reaches⟩

theorem walk_from_cases (simulator : Simulator) (view : View) (budget taken : Nat)
    (walk : Walk) :
    (∃ steps last reason final, simulator.Reaches view steps walk last ∧ steps < budget ∧
        simulator.step view last = .halted reason final ∧
        simulator.walkFrom view budget taken walk = (reason, taken + steps + 1, final)) ∨
      ∃ last, simulator.Reaches view budget walk last ∧
        simulator.walkFrom view budget taken walk =
          (.stepBudget, taken + budget, last.raise (.budgetExhausted (taken + budget))) := by
  rcases simulator.reaches_or_halts view budget walk with
    ⟨steps, last, reason, final, reaches, few, halted⟩ | ⟨last, reaches⟩
  · exact .inl ⟨steps, last, reason, final, reaches, few, halted,
      walk_from_of_reaches reaches halted taken few⟩
  · exact .inr ⟨last, reaches, walk_from_exhausts reaches taken⟩

theorem walk_from_reaches (budget taken : Nat) (walk : Walk)
    (ends : (simulator.walkFrom view budget taken walk).1 ≠ .stepBudget) :
    ∃ steps last, simulator.Reaches view steps walk last ∧ steps < budget ∧
      simulator.step view last =
        .halted (simulator.walkFrom view budget taken walk).1
          (simulator.walkFrom view budget taken walk).2.2 := by
  rcases simulator.walk_from_cases view budget taken walk with
    ⟨steps, last, reason, final, reaches, few, halted, walked⟩ | ⟨last, -, walked⟩
  · rw [walked]
    exact ⟨steps, last, reaches, few, halted⟩
  · rw [walked] at ends
    contradiction

theorem Reaches.restarted {steps : Nat} {walk last : Walk}
    (reaches : simulator.Reaches view steps walk last) (restarted : walk.restarted = true) :
    last.restarted = true := by
  induction reaches with
  | refl => exact restarted
  | step resumed rest ih =>
      have kept := restarted_of_step simulator view restarted
      rw [resumed] at kept
      exact ih kept

theorem step_forward (fits : simulator.table.Fits view.length) {steps : Nat}
    {walk next last : Walk} (resumed : simulator.step view walk = .resumed next)
    (rest : simulator.Reaches view steps next last) (single : last.restarted = walk.restarted) :
    next.restarted = walk.restarted ∧
      walk.cursor.position.toNat < next.cursor.position.toNat := by
  obtain ⟨-, moved | ⟨first, second, -⟩⟩ := step_progress fits resumed
  · exact moved
  · have restarted := rest.restarted second
    rw [single, first] at restarted
    contradiction

theorem step_keeps (ahead : simulator.table.PatchesAhead view.length) {walk next : Walk}
    (resumed : simulator.step view walk = .resumed next) :
    walk.machine.KeptBy view walk.cursor.position.toNat next.machine := by
  obtain ⟨opcode, ready, prepared, machine, -⟩ := step_resumed resumed
  rw [machine, prepared.machine]
  have inside := View.inside_of_byte prepared.fetched
  exact Machine.kept_by_patch_at view walk.machine fun argument doubled =>
    ahead opcode _ argument inside doubled

theorem Reaches.kept (fits : simulator.table.Fits view.length)
    (ahead : simulator.table.PatchesAhead view.length) {steps : Nat} {walk last : Walk}
    (reaches : simulator.Reaches view steps walk last)
    (single : last.restarted = walk.restarted) :
    walk.cursor.position.toNat + steps ≤ last.cursor.position.toNat ∧
      walk.machine.KeptBy view walk.cursor.position.toNat last.machine := by
  induction reaches with
  | refl walk => exact ⟨Nat.le_refl _, Machine.KeptBy.refl view _ walk.machine⟩
  | step resumed rest ih =>
      obtain ⟨same, moved⟩ := step_forward fits resumed rest single
      obtain ⟨covered, later⟩ := ih (single.trans same.symm)
      exact ⟨by omega, (step_keeps ahead resumed).trans later (Nat.le_of_lt moved)⟩

/-- The step of a walk that moves on is repeated over any later machine that has
changed nothing up to where the step led. -/
theorem replay_step (fits : simulator.table.Fits view.length)
    (ahead : simulator.table.PatchesAhead view.length) {walk next again : Walk}
    (resumed : simulator.step view walk = .resumed next)
    (moved : next.restarted = walk.restarted)
    (kept : next.machine.KeptBy view next.cursor.position.toNat again.machine)
    (cursor : again.cursor = walk.cursor) :
    ∃ after, simulator.step view again = .resumed after ∧ after.cursor = next.cursor ∧
      after.machine = again.machine ∧ after.restarted = again.restarted := by
  obtain ⟨-, ⟨-, forward⟩ | ⟨first, second, -⟩⟩ := step_progress fits resumed
  · have unchanged := step_keeps ahead resumed
    obtain ⟨opcode, ready, prepared, machine, -, turned⟩ := step_resumed resumed
    have fetched : view.byte? again.machine.memory again.cursor.position = some opcode := by
      rw [cursor, kept.bytes _ (Nat.le_of_lt forward), unchanged.bytes _ (Nat.le_refl _)]
      exact prepared.fetched
    have settled : ∀ argument,
        simulator.table.doubledAt? opcode again.cursor.position = some argument →
          argument.toNat < view.length ∧
            again.machine.Settled (view.start + argument.toUInt32) := by
      intro argument doubled
      rw [cursor] at doubled
      obtain ⟨inside, calm⟩ := prepared.settled argument doubled
      exact ⟨inside, kept.settled (machine ▸ calm)⟩
    have beyond : (walk.cursor.position + 1).toNat ≤ next.cursor.position.toNat := by
      rw [Table.to_nat_add_one (by have := next.cursor.position.toNat_lt; omega)]
      omega
    have same : simulator.turnAt view opcode again.cursor again.machine.memory =
        simulator.turnAt view opcode walk.cursor ready.machine.memory := by
      simp only [turnAt, cursor, kept.bytes _ beyond, machine]
    obtain ⟨readyAgain, preparedAgain, machineAgain, stepped⟩ := step_of_settled fetched settled
    rcases turned with ⟨onward, -⟩ | ⟨-, first, -, second⟩
    · rw [stepped, same, onward]
      exact ⟨_, rfl, rfl, machineAgain, preparedAgain.restarted⟩
    · rw [moved, first] at second
      contradiction
  · rw [moved, first] at second
    contradiction

/-- A walk without a restart is repeated, step by step and without any change, over any
later machine that has changed nothing up to where the walk led. -/
theorem Reaches.replay_later (fits : simulator.table.Fits view.length)
    (ahead : simulator.table.PatchesAhead view.length) {steps : Nat} {walk last : Walk}
    (reaches : simulator.Reaches view steps walk last)
    (single : last.restarted = walk.restarted) {again : Walk}
    (cursor : again.cursor = walk.cursor)
    (kept : last.machine.KeptBy view last.cursor.position.toNat again.machine) :
    ∃ after, simulator.Reaches view steps again after ∧ after.cursor = last.cursor ∧
      after.machine = again.machine ∧ after.restarted = again.restarted := by
  induction reaches generalizing again with
  | refl walk => exact ⟨again, .refl again, cursor, rfl, rfl⟩
  | step resumed rest ih =>
      obtain ⟨same, -⟩ := step_forward fits resumed rest single
      obtain ⟨covered, earlier⟩ := rest.kept fits ahead (single.trans same.symm)
      obtain ⟨after, stepped, moved, still, flag⟩ :=
        replay_step fits ahead resumed same (earlier.trans kept (by omega)) cursor
      obtain ⟨final, reached, finished, unchanged, carried⟩ :=
        ih (single.trans same.symm) moved (still ▸ kept)
      exact ⟨final, .step stepped reached, finished, unchanged.trans still, carried.trans flag⟩

/-- A walk without a restart is repeated, step by step and without any change, over
the machine that it led to. -/
theorem Reaches.replay (fits : simulator.table.Fits view.length)
    (ahead : simulator.table.PatchesAhead view.length) {steps : Nat} {walk last : Walk}
    (reaches : simulator.Reaches view steps walk last)
    (single : last.restarted = walk.restarted) {again : Walk}
    (cursor : again.cursor = walk.cursor) (machine : again.machine = last.machine) :
    ∃ after, simulator.Reaches view steps again after ∧ after.cursor = last.cursor ∧
      after.machine = last.machine ∧ after.restarted = again.restarted := by
  have kept : last.machine.KeptBy view last.cursor.position.toNat again.machine := by
    rw [machine]
    exact .refl view _ _
  rw [← machine]
  exact reaches.replay_later fits ahead single cursor kept

end Simulator

end CameraScript
