import CameraScript.Proofs.WaitDoubling
import CameraScript.Proofs.WalkReplay

/-!
# Why a walk stopped

A step that goes on reports nothing but overflows. The last step of a walk adds at most one
report of another kind, and this report, the halt and the cursor all say the same about the
place where the walk stopped.
-/

namespace CameraScript

def Diagnostic.TooLarge : Diagnostic → Prop
  | argumentOverflow _ before _ => 128 ≤ before.toNat
  | _ => False

theorem Diagnostic.TooLarge.overflow {diagnostic : Diagnostic} (large : diagnostic.TooLarge) :
    diagnostic.Overflow := by
  cases diagnostic with
  | argumentOverflow => trivial
  | unknownOpcode | overrun | patchFault | budgetExhausted | cursorMismatch => contradiction

theorem Patcher.too_large_of_outcome {before : UInt8} {addr : UInt32} {diagnostic : Diagnostic}
    (raised : (outcomeOf before).diagnostic? addr = some diagnostic) : diagnostic.TooLarge := by
  by_cases large : 128 ≤ before.toNat
  · rw [outcome_of_large large] at raised
    cases raised
    exact large
  · rw [outcome_of_small (by omega)] at raised
    contradiction

theorem Machine.too_large_of_overflow_at {view : View} {machine : Machine}
    {argument? : Option UInt16} {diagnostic : Diagnostic}
    (raised : machine.overflowAt? view argument? = some diagnostic) : diagnostic.TooLarge := by
  cases argument? with
  | none => contradiction
  | some argument =>
      simp only [overflowAt?] at raised
      rcases machine.patch_cases (view.start + argument.toUInt32) with
        ⟨-, went⟩ | ⟨-, -, went⟩ | ⟨-, -, -, went⟩ | ⟨-, -, before, -, went⟩ <;> rw [went] at raised
      · contradiction
      · contradiction
      · contradiction
      · exact Patcher.too_large_of_outcome raised

/-- No argument lies so far behind its opcode that its position comes round to the opcode. -/
theorem Table.doubled_at_ne {table : Table} {opcode : UInt8} {position argument : UInt16}
    (doubled : table.doubledAt? opcode position = some argument) : position ≠ argument := by
  have apart (index : UInt8) : position ≠ position + 1 + index.toUInt16 := by
    intro same
    have values := congrArg UInt16.toNat same
    have bound := index.toNat_lt
    simp only [UInt16.toNat_add, UInt16.reduceToNat, UInt8.toNat_toUInt16] at values
    omega
  simp only [doubledAt?] at doubled
  split at doubled
  · cases doubled
    simp
  · contradiction
  · obtain ⟨index, -, rfl⟩ := Option.map_eq_some_iff.mp doubled
    exact apart index

theorem Walk.Ready.opcode_kept {table : Table} {view : View} {walk ready : Walk} {opcode : UInt8}
    (prepared : walk.Ready table view opcode ready) :
    view.byte? ready.machine.memory walk.cursor.position = some opcode := by
  rw [prepared.machine, ← prepared.fetched]
  cases doubled : table.doubledAt? opcode walk.cursor.position with
  | none => rfl
  | some argument => exact view.byte_patch_of_ne walk.machine (Table.doubled_at_ne doubled)

theorem Walk.Ready.too_large {table : Table} {view : View} {walk ready : Walk} {opcode : UInt8}
    (prepared : walk.Ready table view opcode ready)
    (large : ∀ diagnostic ∈ walk.diagnostics.toList, diagnostic.TooLarge) :
    ∀ diagnostic ∈ ready.diagnostics.toList, diagnostic.TooLarge := by
  intro diagnostic member
  rw [prepared.diagnostics] at member
  rcases List.mem_append.mp member with earlier | raised
  · exact large diagnostic earlier
  · exact Machine.too_large_of_overflow_at (Option.mem_toList.mp raised)

/-- What a halt, the cursor and the last report have to do with each other, and with the
machine that the walk leaves behind. A clean halt has no report of its own. -/
inductive Halt.Closes (table : Table) (view : View) (limit : Nat) (machine : Machine)
    (cursor : Cursor) (steps : Nat) : Halt → Option Diagnostic → Prop where
  | yielded (waiting : view.byte? machine.memory cursor.position = some Opcode.wait) :
      Closes table view limit machine cursor steps .yielded none
  | restarted (start : cursor = .start) :
      Closes table view limit machine cursor steps .restarted none
  | terminal {opcode : UInt8} {descriptor : Descriptor}
      (plain : Control.ofOpcode? opcode = none) (entry : table.get? opcode = some descriptor)
      (ends : descriptor.terminal = true)
      (held : view.byte? machine.memory
        (cursor.position - 1 - descriptor.argLength.toInt16.toUInt16) = some opcode) :
      Closes table view limit machine cursor steps (.terminal opcode) none
  | unknownOpcode {opcode : UInt8} (plain : Control.ofOpcode? opcode = none)
      (unlisted : table.get? opcode = none)
      (held : view.byte? machine.memory (cursor.position - 1) = some opcode) :
      Closes table view limit machine cursor steps (.unknownOpcode opcode)
        (some (.unknownOpcode opcode (cursor.position - 1)))
  | overrun (absent : view.byte? machine.memory cursor.position = none) :
      Closes table view limit machine cursor steps .overrun
        (some (.overrun cursor.position view.length))
  | fault {opcode : UInt8} {argument : UInt16} {reason : FaultReason}
      (held : view.byte? machine.memory (cursor.position - 1) = some opcode)
      (doubled : table.doubledAt? opcode (cursor.position - 1) = some argument)
      (caused : reason.Caused view machine argument) :
      Closes table view limit machine cursor steps .fault
        (some (.patchFault (view.start + argument.toUInt32) reason))
  | stepBudget (spent : steps = limit) :
      Closes table view limit machine cursor steps .stepBudget (some (.budgetExhausted limit))

namespace Simulator

variable {simulator : Simulator} {view : View}

theorem reaches_too_large {steps : Nat} {walk last : Walk}
    (reaches : simulator.Reaches view steps walk last)
    (large : ∀ diagnostic ∈ walk.diagnostics.toList, diagnostic.TooLarge) :
    ∀ diagnostic ∈ last.diagnostics.toList, diagnostic.TooLarge := by
  induction reaches with
  | refl => exact large
  | step resumed rest ih =>
      obtain ⟨opcode, ready, prepared, -, diagnostics, -⟩ := step_resumed resumed
      apply ih
      rw [diagnostics]
      exact prepared.too_large large

/-- The last step of a walk: what it reports, after an overflow perhaps, goes with its halt. -/
theorem step_closes (limit steps : Nat) {last final : Walk} {reason : Halt}
    (halted : simulator.step view last = .halted reason final)
    (large : ∀ diagnostic ∈ last.diagnostics.toList, diagnostic.TooLarge) :
    ∃ overflows closing?, final.diagnostics.toList = overflows ++ closing?.toList ∧
      (∀ diagnostic ∈ overflows, diagnostic.TooLarge) ∧
      reason.Closes simulator.table view limit final.machine final.cursor steps closing? := by
  have back (position : UInt16) : position + 1 - 1 = position := by simp
  rcases step_halted halted with
    ⟨rfl, rfl, absent⟩ | ⟨rfl, faulted⟩ | ⟨opcode, ready, prepared, machine, -, stopped | anew⟩
  · exact ⟨_, some _, Array.toList_push, large, .overrun absent⟩
  · obtain ⟨opcode, argument, reason, fetched, doubled, caused, raised⟩ := faulted.raised
    have place : last.cursor.position = final.cursor.position - 1 := by
      rw [faulted.cursor, back]
    rw [← faulted.machine] at fetched caused
    rw [place] at fetched doubled
    exact ⟨_, some _, raised, large, .fault fetched doubled caused⟩
  · obtain ⟨raised?, turned, diagnostics⟩ := stopped
    have held := prepared.opcode_kept
    simp only [turnAt] at turned
    rw [← machine] at held turned
    refine ⟨_, raised?, diagnostics, prepared.too_large large, ?_⟩
    rcases Table.turn_stop turned with
      ⟨rfl, control, -, after, rfl⟩ | ⟨rfl, absent, after, rfl⟩ |
        ⟨rfl, plain, unlisted, after, rfl⟩ | ⟨descriptor, rfl, plain, entry, ends, after, rfl⟩
    · rw [Control.of_opcode_eq_some_iff.mp control] at held
      refine .yielded ?_
      rw [after]
      exact held
    · have place : last.cursor.position + 1 = final.cursor.position := by rw [after]
      rw [place] at absent ⊢
      exact .overrun absent
    · have place : last.cursor.position = final.cursor.position - 1 := by rw [after, back]
      rw [place] at held ⊢
      exact .unknownOpcode plain unlisted held
    · refine .terminal plain entry ends ?_
      have place (shift : UInt16) :
          last.cursor.position + 1 + shift - 1 - shift = last.cursor.position := by grind
      rw [after, place]
      exact held
  · obtain ⟨-, -, rfl, start, diagnostics⟩ := anew
    refine ⟨_, none, ?_, prepared.too_large large, .restarted start⟩
    rw [diagnostics, Option.toList_none, List.append_nil]

theorem run_cases (simulator : Simulator) (view : View) (cursor : Cursor) (machine : Machine) :
    (∃ steps last reason final,
        simulator.Reaches view steps (simulator.beginning cursor machine) last ∧
        steps < simulator.stepLimit ∧ simulator.step view last = .halted reason final ∧
        (simulator.run view cursor machine).simulation =
          ⟨final.cursor, reason, steps + 1, final.diagnostics.toList⟩ ∧
        (simulator.run view cursor machine).machine = final.machine ∧
        simulator.takesRestart view cursor machine = final.restarted) ∨
      ∃ last, simulator.Reaches view simulator.stepLimit (simulator.beginning cursor machine) last ∧
        (simulator.run view cursor machine).simulation =
          ⟨last.cursor, .stepBudget, simulator.stepLimit,
            last.diagnostics.toList ++ [.budgetExhausted simulator.stepLimit]⟩ ∧
        (simulator.run view cursor machine).machine = last.machine ∧
        simulator.takesRestart view cursor machine = last.restarted := by
  rcases simulator.walk_from_cases view simulator.stepLimit 0
      (simulator.beginning cursor machine) with
    ⟨steps, last, reason, final, reaches, few, halted, walked⟩ | ⟨last, reaches, walked⟩
  · rw [Nat.zero_add] at walked
    obtain ⟨simulation, left⟩ := run_of_walk_from walked
    exact .inl ⟨steps, last, reason, final, reaches, few, halted, simulation, left,
      by rw [takesRestart, walked]⟩
  · rw [Nat.zero_add] at walked
    obtain ⟨simulation, left⟩ := run_of_walk_from walked
    refine .inr ⟨last, reaches, simulation.trans ?_, left, by rw [takesRestart, walked]; rfl⟩
    rw [← show (last.raise (.budgetExhausted simulator.stepLimit)).diagnostics.toList =
      last.diagnostics.toList ++ [.budgetExhausted simulator.stepLimit] from Array.toList_push]
    rfl

end Simulator

theorem Halt.Closes.clean_iff {table : Table} {view : View} {limit steps : Nat}
    {machine : Machine} {cursor : Cursor} {halt : Halt} {closing? : Option Diagnostic}
    (closes : halt.Closes table view limit machine cursor steps closing?) :
    halt.isClean = true ↔ ∀ diagnostic ∈ closing?.toList, diagnostic.Overflow := by
  cases closes <;> simp [Halt.isClean, Diagnostic.Overflow]

namespace Simulator

/-- How the halt of a run, its cursor and its diagnostics correspond. The diagnostics are
overflows, of bytes that were too large, and after them at most one of another kind; there
is none exactly if the halt is clean, and otherwise it names the same reason at the same
place. -/
theorem run_halts_as_reported (simulator : Simulator) (view : View) (cursor : Cursor)
    (machine : Machine) :
    let left := (simulator.run view cursor machine).machine
    let simulation := (simulator.run view cursor machine).simulation
    1 ≤ simulation.steps ∧ simulation.steps ≤ simulator.stepLimit ∧
      (simulation.halt.isClean = true ↔
        ∀ diagnostic ∈ simulation.diagnostics, diagnostic.Overflow) ∧
      ∃ overflows closing?, simulation.diagnostics = overflows ++ closing?.toList ∧
        (∀ diagnostic ∈ overflows, diagnostic.TooLarge) ∧
        simulation.halt.Closes simulator.table view simulator.stepLimit left simulation.cursor
          simulation.steps closing? := by
  intro left simulation
  have fresh : ∀ diagnostic ∈ (simulator.beginning cursor machine).diagnostics.toList,
      diagnostic.TooLarge := fun diagnostic absent => by cases absent
  have counted : 1 ≤ simulation.steps ∧ simulation.steps ≤ simulator.stepLimit ∧
      ∃ overflows closing?, simulation.diagnostics = overflows ++ closing?.toList ∧
        (∀ diagnostic ∈ overflows, diagnostic.TooLarge) ∧
        simulation.halt.Closes simulator.table view simulator.stepLimit left simulation.cursor
          simulation.steps closing? := by
    rcases simulator.run_cases view cursor machine with
      ⟨steps, last, reason, final, reaches, few, halted, answer, went, -⟩ |
        ⟨last, reaches, answer, went, -⟩
    · obtain ⟨overflows, closing?, diagnostics, large, closes⟩ :=
        step_closes simulator.stepLimit (steps + 1) halted (reaches_too_large reaches fresh)
      simp only [simulation, left, answer, went]
      exact ⟨by omega, by omega, overflows, closing?, diagnostics, large, closes⟩
    · simp only [simulation, left, answer, went]
      exact ⟨simulator.stepLimit_pos, Nat.le_refl _, last.diagnostics.toList, some _, rfl,
        reaches_too_large reaches fresh, .stepBudget rfl⟩
  obtain ⟨positive, bounded, overflows, closing?, diagnostics, large, closes⟩ := counted
  refine ⟨positive, bounded, ?_, overflows, closing?, diagnostics, large, closes⟩
  rw [closes.clean_iff, diagnostics]
  constructor
  · intro clean diagnostic member
    rcases List.mem_append.mp member with overflow | closing
    · exact (large diagnostic overflow).overflow
    · exact clean diagnostic closing
  · intro overflow diagnostic closing
    exact overflow diagnostic (List.mem_append_right overflows closing)

end Simulator

end CameraScript
