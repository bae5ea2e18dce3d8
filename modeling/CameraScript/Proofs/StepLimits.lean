import CameraScript.Proofs.HaltReasons
import CameraScript.Proofs.WalkFrame

/-!
# The step limit

A limit cuts a walk off and does nothing else: under a larger limit the walk goes on from the
place where it was cut off. A run can be taken up from there as well. It then starts without
the reports of the steps before, and without a restart; the reports have no part in what
follows, so it comes to the same end unless a restart was taken.
-/

namespace CameraScript

/-- The same walk with the reports and events of earlier steps in front of its own. -/
def Walk.prefaced (reports : Array Diagnostic) (events : Array Event) (walk : Walk) : Walk :=
  { walk with diagnostics := reports ++ walk.diagnostics, log := events ++ walk.log }

def Progress.prefaced (reports : Array Diagnostic) (events : Array Event) : Progress → Progress
  | .resumed walk => .resumed (walk.prefaced reports events)
  | .halted reason walk => .halted reason (walk.prefaced reports events)

theorem TraceFlags.record_append (flags : TraceFlags) (earlier log : Array Event) (event : Event) :
    flags.record (earlier ++ log) event = earlier ++ flags.record log event := by
  unfold record
  split
  · exact Array.push_append
  · rfl

namespace Walk

variable (reports : Array Diagnostic) (events : Array Event) (walk : Walk)

theorem prefaced_fields :
    (walk.prefaced reports events).machine = walk.machine ∧
      (walk.prefaced reports events).cursor = walk.cursor ∧
      (walk.prefaced reports events).restarted = walk.restarted :=
  ⟨rfl, rfl, rfl⟩

theorem raise_prefaced (diagnostic : Diagnostic) :
    (walk.prefaced reports events).raise diagnostic =
      (walk.raise diagnostic).prefaced reports events := by
  simp only [prefaced, raise, Array.push_append]

theorem raise_all_prefaced (raised? : Option Diagnostic) :
    (walk.prefaced reports events).raiseAll raised? =
      (walk.raiseAll raised?).prefaced reports events := by
  cases raised? with
  | none => rfl
  | some diagnostic => exact walk.raise_prefaced reports events diagnostic

theorem note_prefaced (flags : TraceFlags) (event : Event) :
    (walk.prefaced reports events).note flags event =
      (walk.note flags event).prefaced reports events := by
  simp only [prefaced, note, TraceFlags.record_append]

theorem enter_prefaced (flags : TraceFlags) (opcode : UInt8) :
    (walk.prefaced reports events).enter flags opcode =
      (walk.enter flags opcode).prefaced reports events :=
  (walk.moveTo (walk.cursor.position + 1)).note_prefaced reports events flags (.fetched opcode)

theorem glance_prefaced (flags : TraceFlags) (opcode : UInt8) (next? : Option UInt8) :
    (walk.prefaced reports events).glance flags opcode next? =
      (walk.glance flags opcode next?).prefaced reports events := by
  cases next? with
  | none => rfl
  | some next =>
      obtain ⟨-, cursor, -⟩ := walk.prefaced_fields reports events
      unfold glance
      rw [cursor]
      by_cases looks : Control.ofOpcode? opcode = some .restart ∧ walk.cursor.wait = 0
      · simp only [if_pos looks]
        exact walk.note_prefaced reports events flags _
      · simp only [if_neg looks]

theorem follow_prefaced (turn : Turn) :
    (walk.prefaced reports events).follow turn = (walk.follow turn).prefaced reports events := by
  cases turn with
  | onward cursor => rfl
  | anew =>
      obtain ⟨-, -, restarted⟩ := walk.prefaced_fields reports events
      unfold follow
      rw [restarted]
      cases walk.restarted <;> rfl
  | stop reason cursor raised? =>
      exact congrArg (Progress.halted reason)
        (raise_all_prefaced reports events { walk with cursor } raised?)

theorem patch_argument_prefaced (view : View) (position : UInt16) :
    (walk.prefaced reports events).patchArgument view position =
      (walk.patchArgument view position).prefaced reports events := by
  by_cases inside : position.toNat < view.length
  · obtain ⟨machine, -, -⟩ := walk.prefaced_fields reports events
    rw [patch_argument_inside inside, patch_argument_inside inside, machine]
    cases (walk.machine.patch (view.start + position.toUInt32)).1 with
    | ok outcome =>
        exact congrArg Progress.resumed (raise_all_prefaced reports events
          { walk with machine := (walk.machine.patch (view.start + position.toUInt32)).2 } _)
    | error fault =>
        exact congrArg (Progress.halted .fault) (walk.raise_prefaced reports events _)
  · have outside : view.length ≤ position.toNat := by omega
    rw [patch_argument_outside outside, patch_argument_outside outside]
    exact congrArg (Progress.halted .fault) (walk.raise_prefaced reports events _)

theorem patch_at_prefaced (view : View) (argument? : Option UInt16) :
    (walk.prefaced reports events).patchAt view argument? =
      (walk.patchAt view argument?).prefaced reports events := by
  cases argument? with
  | none => rfl
  | some argument => exact walk.patch_argument_prefaced reports events view argument

end Walk

theorem Progress.and_then_prefaced (reports : Array Diagnostic) (events : Array Event)
    (progress : Progress) {next : Walk → Progress}
    (same : ∀ walk : Walk, next (walk.prefaced reports events) =
      (next walk).prefaced reports events) :
    (progress.prefaced reports events).andThen next =
      (progress.andThen next).prefaced reports events := by
  cases progress with
  | resumed walk => exact same walk
  | halted reason walk => rfl

namespace Simulator

variable (simulator : Simulator) (view : View)

theorem conclude_prefaced (reports : Array Diagnostic) (events : Array Event) (opcode : UInt8)
    (position : UInt16) (walk : Walk) :
    simulator.conclude view opcode position (walk.prefaced reports events) =
      (simulator.conclude view opcode position walk).prefaced reports events := by
  obtain ⟨machine, cursor, -⟩ := walk.prefaced_fields reports events
  simp only [conclude, machine, cursor, Walk.glance_prefaced, Walk.follow_prefaced]

theorem step_prefaced (reports : Array Diagnostic) (events : Array Event) (walk : Walk) :
    simulator.step view (walk.prefaced reports events) =
      (simulator.step view walk).prefaced reports events := by
  obtain ⟨machine, cursor, -⟩ := walk.prefaced_fields reports events
  rw [step_eq, step_eq, Walk.readThen, Walk.readThen, machine, cursor]
  cases view.byte? walk.machine.memory walk.cursor.position with
  | none => exact congrArg (Progress.halted .overrun) (walk.raise_prefaced reports events _)
  | some opcode =>
      simp only
      rw [Walk.enter_prefaced, Walk.patch_at_prefaced]
      apply Progress.and_then_prefaced
      exact simulator.conclude_prefaced view reports events opcode _

theorem walk_from_prefaced (reports : Array Diagnostic) (events : Array Event)
    (budget taken : Nat) (walk : Walk) :
    simulator.walkFrom view budget taken (walk.prefaced reports events) =
      ((simulator.walkFrom view budget taken walk).1,
        (simulator.walkFrom view budget taken walk).2.1,
        (simulator.walkFrom view budget taken walk).2.2.prefaced reports events) := by
  induction budget generalizing taken walk with
  | zero => simp only [walkFrom, Walk.raise_prefaced]
  | succ budget ih =>
      unfold walkFrom
      rw [step_prefaced]
      cases simulator.step view walk with
      | resumed next => exact ih (taken + 1) next
      | halted reason final => rfl

/-- The steps taken before are added to those that a walk counts, and matter to it only where
it reports that its budget is spent. -/
theorem walk_from_counted (budget taken earlier : Nat) (walk : Walk) :
    let counted := simulator.walkFrom view budget (taken + earlier) walk
    let fresh := simulator.walkFrom view budget taken walk
    counted.1 = fresh.1 ∧ counted.2.1 = fresh.2.1 + earlier ∧
      counted.2.2.cursor = fresh.2.2.cursor ∧ counted.2.2.machine = fresh.2.2.machine := by
  induction budget generalizing taken walk with
  | zero => exact ⟨rfl, rfl, rfl, rfl⟩
  | succ budget ih =>
      have order : taken + earlier + 1 = taken + 1 + earlier := by omega
      unfold walkFrom
      rw [order]
      cases simulator.step view walk with
      | resumed next => exact ih (taken + 1) next
      | halted reason final => exact ⟨rfl, rfl, rfl, rfl⟩

/-- A walk goes on by its machine, its cursor and whether it has taken its restart. The steps
taken before are added to those that it counts. -/
theorem walk_from_same_place {one other : Walk} (machine : one.machine = other.machine)
    (cursor : one.cursor = other.cursor) (restarted : one.restarted = other.restarted)
    (budget taken earlier : Nat) :
    let left := simulator.walkFrom view budget (taken + earlier) one
    let right := simulator.walkFrom view budget taken other
    left.1 = right.1 ∧ left.2.1 = right.2.1 + earlier ∧
      left.2.2.cursor = right.2.2.cursor ∧ left.2.2.machine = right.2.2.machine := by
  intro left right
  -- Both walks are one walk without reports, with other reports in front of it.
  let bare : Walk := ⟨other.machine, other.cursor, other.restarted, #[], #[]⟩
  have first : one = bare.prefaced one.diagnostics one.log := by
    simp only [bare, Walk.prefaced, ← machine, ← cursor, ← restarted, Array.append_empty]
  have second : other = bare.prefaced other.diagnostics other.log := by
    simp only [bare, Walk.prefaced, Array.append_empty]
  have walked : left = simulator.walkFrom view budget (taken + earlier)
      (bare.prefaced one.diagnostics one.log) := by rw [← first]
  have again : right = simulator.walkFrom view budget taken
      (bare.prefaced other.diagnostics other.log) := by rw [← second]
  rw [walk_from_prefaced] at walked again
  obtain ⟨halts, steps, cursors, machines⟩ :=
    simulator.walk_from_counted view budget taken earlier bare
  rw [walked, again]
  exact ⟨halts, steps, cursors, machines⟩

variable {simulator view}

theorem walk_from_with_limit (table : Table) (trace : TraceFlags) (few many : Nat) (view : View)
    (budget taken : Nat) (walk : Walk) :
    (withLimit table trace few).walkFrom view budget taken walk =
      (withLimit table trace many).walkFrom view budget taken walk := by
  have steps : (withLimit table trace few).step = (withLimit table trace many).step := rfl
  induction budget generalizing taken walk with
  | zero => rfl
  | succ budget ih =>
      unfold walkFrom
      rw [steps]
      cases (withLimit table trace many).step view walk with
      | resumed next => exact ih (taken + 1) next
      | halted reason final => rfl

theorem Reaches.with_limit {table : Table} {trace : TraceFlags} {few : Nat} (many : Nat)
    {steps : Nat} {walk last : Walk}
    (reaches : (withLimit table trace few).Reaches view steps walk last) :
    (withLimit table trace many).Reaches view steps walk last := by
  induction reaches with
  | refl walk => exact .refl walk
  | step resumed rest ih => exact .step resumed ih

theorem walk_from_keeps_recorded (simulator : Simulator) (view : View) (budget taken : Nat)
    {walk : Walk} {addr : UInt32} (known : walk.machine.patcher.isPatched addr = true) :
    (simulator.walkFrom view budget taken walk).2.2.machine.patcher.isPatched addr = true :=
  simulator.walk_from_preserves view Machine.patch_keeps_recorded budget taken walk known

/-- A run can be taken up again wherever it has come to without a restart: under the rest of
its limit it comes to the same end. -/
theorem run_resumed {table : Table} {trace : TraceFlags} {steps rest : Nat} (room : 0 < rest)
    {cursor : Cursor} {machine : Machine} {last : Walk}
    (reaches : (withLimit table trace (steps + rest)).Reaches view steps
      ((withLimit table trace (steps + rest)).beginning cursor machine) last)
    (single : last.restarted = false) :
    let whole := (withLimit table trace (steps + rest)).run view cursor machine
    let resumed := (withLimit table trace rest).run view last.cursor last.machine
    resumed.simulation.cursor = whole.simulation.cursor ∧
      resumed.simulation.halt = whole.simulation.halt ∧
      whole.simulation.steps = resumed.simulation.steps + steps ∧
      resumed.machine = whole.machine := by
  intro whole resumed
  let long := withLimit table trace (steps + rest)
  let again := long.beginning last.cursor last.machine
  have limit : long.stepLimit = steps + rest := Nat.max_eq_left (by omega)
  have remaining : (withLimit table trace rest).stepLimit = rest := Nat.max_eq_left room
  have walked : long.walkFrom view long.stepLimit 0 (long.beginning cursor machine) =
      long.walkFrom view rest (0 + steps) last := by
    rw [limit]
    exact walk_from_continues reaches rest 0
  have walkedAgain : (withLimit table trace rest).walkFrom view
      (withLimit table trace rest).stepLimit 0 again = long.walkFrom view rest 0 again := by
    rw [remaining]
    exact walk_from_with_limit ..
  have sameMachine : last.machine = again.machine := rfl
  have sameCursor : last.cursor = again.cursor := rfl
  have sameFlag : last.restarted = again.restarted := single
  obtain ⟨halts, counted, cursors, machines⟩ :=
    long.walk_from_same_place view sameMachine sameCursor sameFlag rest 0 steps
  obtain ⟨answer, left⟩ := run_of_walk_from walked
  obtain ⟨answerAgain, leftAgain⟩ := run_of_walk_from walkedAgain
  simp only [whole, resumed]
  rw [answer, left, answerAgain, leftAgain]
  exact ⟨cursors.symm, halts.symm, counted, machines.symm⟩

/-- A limit only cuts a run off. A run that ends before is the run under any larger limit. One
that is cut off has taken as many steps as it may, and has reported and recorded nothing else
than the run under the larger limit, which goes on from there; and if it has taken no restart,
a new run with the rest of the steps goes on from there as well. -/
theorem run_cut_off (table : Table) (trace : TraceFlags) (view : View) (cursor : Cursor)
    (machine : Machine) {few many : Nat} (positive : 1 ≤ few) (order : few ≤ many) :
    let short := withLimit table trace few
    let cut := short.run view cursor machine
    let whole := (withLimit table trace many).run view cursor machine
    (cut.simulation.halt ≠ .stepBudget →
        whole.simulation = cut.simulation ∧ whole.machine = cut.machine) ∧
      (cut.simulation.halt = .stepBudget →
        cut.simulation.steps = few ∧ few ≤ whole.simulation.steps ∧
          (∃ earlier, cut.simulation.diagnostics = earlier ++ [.budgetExhausted few] ∧
            earlier <+: whole.simulation.diagnostics) ∧
          (∀ addr, cut.machine.patcher.isPatched addr = true →
            whole.machine.patcher.isPatched addr = true) ∧
          (few < many → short.takesRestart view cursor machine = false →
            let rest := (withLimit table trace (many - few)).run view cut.simulation.cursor
              cut.machine
            rest.simulation.cursor = whole.simulation.cursor ∧
              rest.simulation.halt = whole.simulation.halt ∧ rest.machine = whole.machine)) := by
  obtain ⟨rest, rfl⟩ := Nat.exists_eq_add_of_le order
  intro short cut whole
  let long := withLimit table trace (few + rest)
  have limit : short.stepLimit = few := Nat.max_eq_left positive
  have longLimit : long.stepLimit = few + rest := Nat.max_eq_left (by omega)
  rcases short.run_cases view cursor machine with
    ⟨steps, last, reason, final, reaches, less, halted, answer, left, -⟩ |
      ⟨last, reaches, answer, left, flag⟩
  · -- The run ends by itself, and comes to the same end with more steps to spare.
    have further := reaches.with_limit (few + rest)
    have enough : steps < long.stepLimit := by omega
    obtain ⟨longAnswer, longLeft⟩ := run_of_walk_from (walk_from_of_reaches further halted 0 enough)
    rw [Nat.zero_add] at longAnswer
    constructor
    · intro ends
      exact ⟨longAnswer.trans answer.symm, longLeft.trans left.symm⟩
    · intro spent
      have halts : cut.simulation.halt = reason := by rw [answer]
      exact absurd (halts.symm.trans spent) (step_never_exhausts halted)
  · -- The run is cut off, and the longer one goes on from the same place.
    rw [limit] at reaches answer
    have further := reaches.with_limit (few + rest)
    have goesOn : long.walkFrom view long.stepLimit 0 (long.beginning cursor machine) =
        long.walkFrom view rest (0 + few) last := by
      rw [longLimit]
      exact walk_from_continues further rest 0
    obtain ⟨longAnswer, longLeft⟩ := run_of_walk_from goesOn
    have counted := (long.walk_from_counted view rest 0 few last).2.1
    constructor
    · intro ends
      have halts : cut.simulation.halt = .stepBudget := by rw [answer]
      exact absurd halts ends
    · intro spent
      simp only [cut, whole, answer, left]
      rw [longAnswer, longLeft]
      refine ⟨trivial, ?_, ⟨last.diagnostics.toList, rfl, ?_⟩, ?_, ?_⟩
      · change few ≤ (long.walkFrom view rest (0 + few) last).2.1
        omega
      · exact long.walk_from_diagnostics view rest (0 + few) last
      · intro addr known
        exact long.walk_from_keeps_recorded view rest (0 + few) known
      · intro more untaken
        have room : 0 < rest := by omega
        obtain ⟨cursors, halts, -, machines⟩ := run_resumed room further (flag.symm.trans untaken)
        rw [longAnswer] at cursors halts
        rw [longLeft] at machines
        rw [Nat.add_sub_cancel_left]
        exact ⟨cursors, halts, machines⟩

/-- Two steps of a walk that doubles two arguments and yields with its third step, and the
same walk taken up again. -/
theorem run_cut_off_before_wait :
    let table := Dialect.routine5C3FD5.table
    let machine : Machine := ⟨⟨0x1000, ⟨#[0xE2, 200, 0xF5, 1, 0xF4]⟩⟩, .active⟩
    let cut := (withLimit table .off 2).run ⟨0x1000, 5⟩ .start machine
    let whole := (withLimit table .off 8).run ⟨0x1000, 5⟩ .start machine
    let rest := (withLimit table .off 6).run ⟨0x1000, 5⟩ cut.simulation.cursor cut.machine
    cut.simulation =
        ⟨⟨4, 2⟩, .stepBudget, 2, [.argumentOverflow 0x1001 200 144, .budgetExhausted 2]⟩ ∧
      [.argumentOverflow 0x1001 200 144] <+: whole.simulation.diagnostics ∧
      rest.simulation.cursor = whole.simulation.cursor ∧
      rest.simulation.halt = whole.simulation.halt ∧ rest.machine = whole.machine := by
  intro table machine
  have walked : ((withLimit table .off 2).run ⟨0x1000, 5⟩ .start machine).simulation =
      ⟨⟨4, 2⟩, .stepBudget, 2, [.argumentOverflow 0x1001 200 144, .budgetExhausted 2]⟩ := by
    decide +kernel
  have single : (withLimit table .off 2).takesRestart ⟨0x1000, 5⟩ .start machine = false := by
    decide +kernel
  have cutOff := run_cut_off table .off ⟨0x1000, 5⟩ .start machine
    (show 1 ≤ 2 by decide) (show 2 ≤ 8 by decide)
  simp only at cutOff ⊢
  generalize (withLimit table .off 2).run ⟨0x1000, 5⟩ .start machine = cut at walked cutOff ⊢
  generalize (withLimit table .off 8).run ⟨0x1000, 5⟩ .start machine = whole at cutOff ⊢
  obtain ⟨-, spent⟩ := cutOff
  obtain ⟨-, -, ⟨earlier, reports, kept⟩, -, resumes⟩ := spent (by rw [walked])
  have before : earlier = [.argumentOverflow 0x1001 200 144] := by
    have same : earlier ++ [.budgetExhausted 2] =
        [.argumentOverflow 0x1001 200 144] ++ [.budgetExhausted 2] := by
      rw [← reports, walked]
      rfl
    exact List.append_cancel_right same
  rw [before] at kept
  exact ⟨walked, kept, resumes (by decide) single⟩

end Simulator

end CameraScript
