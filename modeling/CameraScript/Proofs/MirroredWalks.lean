import CameraScript.Proofs.WalkStages

/-!
# Walks over scripts that look alike

A walk knows its script by position only: the byte at each position, whether it is
recorded, and how the image would refuse it. Two scripts that agree in these are walked
alike, wherever they lie and whatever the images hold elsewhere. Their diagnostics differ
in nothing but the addresses, which move with the script.
-/

namespace CameraScript

/-- The diagnostic that a walk raises where the script lies at another address. -/
def Diagnostic.relocate (view twin : View) : Diagnostic → Diagnostic
  | argumentOverflow addr before after =>
      argumentOverflow (addr - view.start + twin.start) before after
  | patchFault addr reason => patchFault (addr - view.start + twin.start) reason
  | unknownOpcode opcode position => unknownOpcode opcode position
  | overrun position length => overrun position length
  | budgetExhausted steps => budgetExhausted steps
  | cursorMismatch dialect field simulated actual =>
      cursorMismatch dialect field simulated actual

namespace Diagnostic

theorem relocate_self (view : View) (diagnostic : Diagnostic) :
    diagnostic.relocate view view = diagnostic := by
  cases diagnostic <;> simp [relocate]

theorem map_relocate_self (view : View) (diagnostics : List Diagnostic) :
    diagnostics.map (relocate view view) = diagnostics := by
  have same : relocate view view = id := funext (relocate_self view)
  rw [same, List.map_id]

end Diagnostic

theorem View.relocated (view twin : View) (position : UInt16) :
    view.start + position.toUInt32 - view.start + twin.start =
      twin.start + position.toUInt32 := by
  rw [UInt32.add_comm view.start, UInt32.add_sub_cancel, UInt32.add_comm]

/-- Two machines in which the scripts of two views look alike. -/
structure Machine.Mirrors (view twin : View) (left right : Machine) : Prop where
  enabled : right.patcher.enabled = left.patcher.enabled
  bytes : ∀ position, twin.byte? right.memory position = view.byte? left.memory position
  recorded : ∀ position : UInt16, position.toNat < view.length →
    right.patcher.isPatched (twin.start + position.toUInt32) =
      left.patcher.isPatched (view.start + position.toUInt32)
  refused : ∀ position : UInt16, position.toNat < view.length →
    view.byte? left.memory position = none →
      right.memory.refusal (twin.start + position.toUInt32) =
        left.memory.refusal (view.start + position.toUInt32)

namespace Machine.Mirrors

variable {view twin : View} {left right : Machine}

theorem patch_answer (mirrors : left.Mirrors view twin right) (lengths : twin.length = view.length)
    {position : UInt16} (inside : position.toNat < view.length) :
    (right.patch (twin.start + position.toUInt32)).1 =
      (left.patch (view.start + position.toUInt32)).1 := by
  have bytes := mirrors.bytes position
  have refused := mirrors.refused position inside
  rw [View.byte_of_inside (lengths ▸ inside), View.byte_of_inside inside] at bytes
  rw [View.byte_of_inside inside] at refused
  rw [Machine.patch_answer, Machine.patch_answer, mirrors.enabled,
    mirrors.recorded position inside, bytes]
  cases present : left.memory.byte? (view.start + position.toUInt32) with
  | some before => rfl
  | none => rw [refused present]

theorem patch (mirrors : left.Mirrors view twin right) (lengths : twin.length = view.length)
    {position : UInt16} (inside : position.toNat < view.length) :
    (left.patch (view.start + position.toUInt32)).2.Mirrors view twin
      (right.patch (twin.start + position.toUInt32)).2 := by
  have own := mirrors.bytes position
  rw [View.byte_of_inside (lengths ▸ inside), View.byte_of_inside inside] at own
  have bytes (other : UInt16) :
      twin.byte? (right.patch (twin.start + position.toUInt32)).2.memory other =
        view.byte? (left.patch (view.start + position.toUInt32)).2.memory other := by
    by_cases same : other = position
    · rw [same, View.byte_of_inside (lengths ▸ inside), View.byte_of_inside inside,
        Machine.byte_patch_self, Machine.byte_patch_self, mirrors.enabled,
        mirrors.recorded position inside, own]
    · rw [twin.byte_patch_of_ne right same, view.byte_patch_of_ne left same]
      exact mirrors.bytes other
  constructor
  · rw [Machine.patch_enabled, Machine.patch_enabled, mirrors.enabled]
  · exact bytes
  · intro other within
    have places : twin.start + other.toUInt32 = twin.start + position.toUInt32 ↔
        view.start + other.toUInt32 = view.start + position.toUInt32 :=
      ⟨fun same => by rw [twin.addr_injective same], fun same => by rw [view.addr_injective same]⟩
    apply Bool.eq_iff_iff.mpr
    rw [Machine.is_patched_patch, Machine.is_patched_patch, places, mirrors.enabled, own,
      mirrors.recorded other within]
  · intro other within absent
    rw [Machine.refusal_patch, Machine.refusal_patch]
    apply mirrors.refused other within
    by_cases same : other = position
    · rw [same, View.byte_of_inside inside, Machine.byte_patch_self] at absent
      rw [same, View.byte_of_inside inside]
      split at absent
      · exact Option.map_eq_none_iff.mp absent
      · exact absent
    · rw [view.byte_patch_of_ne left same] at absent
      exact absent

end Machine.Mirrors

structure Walk.Mirrors (view twin : View) (left right : Walk) : Prop where
  machine : left.machine.Mirrors view twin right.machine
  cursor : right.cursor = left.cursor
  restarted : right.restarted = left.restarted
  diagnostics : right.diagnostics.toList =
    left.diagnostics.toList.map (Diagnostic.relocate view twin)

inductive Progress.Mirrors (view twin : View) : Progress → Progress → Prop where
  | resumed {left right : Walk} (mirrors : left.Mirrors view twin right) :
      Mirrors view twin (.resumed left) (.resumed right)
  | halted (reason : Halt) {left right : Walk} (mirrors : left.Mirrors view twin right) :
      Mirrors view twin (.halted reason left) (.halted reason right)

/-- What opcodes raise by themselves names no address. -/
theorem Table.relocate_raised {view twin : View} {table : Table} {length : Nat} {opcode : UInt8}
    {cursor after : Cursor} {next? : Option UInt8} {reason : Halt} {diagnostic : Diagnostic}
    (stopped : table.turn length opcode cursor next? = .stop reason after (some diagnostic)) :
    diagnostic.relocate view twin = diagnostic := by
  rcases Table.turn_stop stopped with
    ⟨-, -, -, -, raised⟩ | ⟨-, -, -, raised⟩ | ⟨-, -, -, -, raised⟩ |
      ⟨descriptor, -, -, -, -, -, raised⟩
  · contradiction
  · cases raised
    rfl
  · cases raised
    rfl
  · contradiction

namespace Walk.Mirrors

variable {view twin : View} {left right : Walk}

theorem note (mirrors : left.Mirrors view twin right) (flags other : TraceFlags) (event : Event) :
    (left.note flags event).Mirrors view twin (right.note other event) :=
  ⟨mirrors.machine, mirrors.cursor, mirrors.restarted, mirrors.diagnostics⟩

theorem move (mirrors : left.Mirrors view twin right) (cursor : Cursor) :
    Walk.Mirrors view twin { left with cursor } { right with cursor } :=
  ⟨mirrors.machine, rfl, mirrors.restarted, mirrors.diagnostics⟩

theorem raise (mirrors : left.Mirrors view twin right) {diagnostic other : Diagnostic}
    (relocated : diagnostic.relocate view twin = other) :
    (left.raise diagnostic).Mirrors view twin (right.raise other) where
  machine := mirrors.machine
  cursor := mirrors.cursor
  restarted := mirrors.restarted
  diagnostics := by
    simp only [Walk.raise, Array.toList_push, List.map_append, List.map_cons, List.map_nil,
      mirrors.diagnostics, relocated]

theorem enter (mirrors : left.Mirrors view twin right) (flags other : TraceFlags)
    (opcode : UInt8) :
    (left.enter flags opcode).Mirrors view twin (right.enter other opcode) := by
  unfold Walk.enter Walk.moveTo
  rw [mirrors.cursor]
  exact (mirrors.move _).note flags other _

theorem glance (mirrors : left.Mirrors view twin right) (flags other : TraceFlags)
    (opcode : UInt8) (next? : Option UInt8) :
    (left.glance flags opcode next?).Mirrors view twin (right.glance other opcode next?) := by
  cases next? with
  | none => exact mirrors
  | some next =>
      unfold Walk.glance
      rw [mirrors.cursor]
      by_cases looks : Control.ofOpcode? opcode = some .restart ∧ left.cursor.wait = 0
      · simp only [if_pos looks]
        exact mirrors.note flags other _
      · simp only [if_neg looks]
        exact mirrors

theorem after_patch (mirrors : left.Mirrors view twin right) (lengths : twin.length = view.length)
    {position : UInt16} (inside : position.toNat < view.length) (outcome : PatchOutcome) :
    (left.afterPatch (view.start + position.toUInt32) outcome).Mirrors view twin
      (right.afterPatch (twin.start + position.toUInt32) outcome) := by
  have patched : Walk.Mirrors view twin
      { left with machine := (left.machine.patch (view.start + position.toUInt32)).2 }
      { right with machine := (right.machine.patch (twin.start + position.toUInt32)).2 } :=
    ⟨mirrors.machine.patch lengths inside, mirrors.cursor, mirrors.restarted, mirrors.diagnostics⟩
  unfold Walk.afterPatch
  cases outcome with
  | overflowed before after =>
      apply patched.raise
      rw [Diagnostic.relocate, View.relocated]
  | doubled before after => exact patched
  | alreadyPatched => exact patched
  | disabled => exact patched

theorem patch_argument (mirrors : left.Mirrors view twin right)
    (lengths : twin.length = view.length) (position : UInt16) :
    (left.patchArgument view position).Mirrors view twin (right.patchArgument twin position) := by
  have moved (reason : FaultReason) :
      (Diagnostic.patchFault (view.start + position.toUInt32) reason).relocate view twin =
        .patchFault (twin.start + position.toUInt32) reason := by
    rw [Diagnostic.relocate, View.relocated]
  by_cases inside : position.toNat < view.length
  · rw [Walk.patch_argument_inside inside, Walk.patch_argument_inside (lengths ▸ inside),
      mirrors.machine.patch_answer lengths inside]
    cases (left.machine.patch (view.start + position.toUInt32)).1 with
    | ok outcome => exact .resumed (mirrors.after_patch lengths inside outcome)
    | error fault => exact .halted .fault (mirrors.raise (moved _))
  · have outside : view.length ≤ position.toNat := by omega
    rw [Walk.patch_argument_outside outside, Walk.patch_argument_outside (lengths ▸ outside)]
    exact .halted .fault (mirrors.raise (moved _))

theorem patch_at (mirrors : left.Mirrors view twin right) (lengths : twin.length = view.length)
    (argument? : Option UInt16) :
    (left.patchAt view argument?).Mirrors view twin (right.patchAt twin argument?) := by
  cases argument? with
  | none => exact .resumed mirrors
  | some argument => exact mirrors.patch_argument lengths argument

theorem follow (mirrors : left.Mirrors view twin right) {turn : Turn}
    (raises : ∀ reason cursor diagnostic, turn = .stop reason cursor (some diagnostic) →
      diagnostic.relocate view twin = diagnostic) :
    (left.follow turn).Mirrors view twin (right.follow turn) := by
  cases turn with
  | onward cursor => exact .resumed (mirrors.move cursor)
  | anew =>
      unfold Walk.follow
      rw [mirrors.restarted]
      cases again : left.restarted with
      | true => exact .halted .restarted ⟨mirrors.machine, rfl, rfl, mirrors.diagnostics⟩
      | false => exact .resumed ⟨mirrors.machine, rfl, rfl, mirrors.diagnostics⟩
  | stop reason cursor raised? =>
      cases raised? with
      | none => exact .halted reason (mirrors.move cursor)
      | some diagnostic =>
          exact .halted reason ((mirrors.move cursor).raise (raises reason cursor diagnostic rfl))

theorem read_then (mirrors : left.Mirrors view twin right) (lengths : twin.length = view.length)
    (position : UInt16) {first second : UInt8 → Walk → Progress}
    (next : ∀ byte, (first byte left).Mirrors view twin (second byte right)) :
    (left.readThen view position first).Mirrors view twin
      (right.readThen twin position second) := by
  unfold Walk.readThen
  rw [mirrors.machine.bytes position, lengths]
  cases view.byte? left.machine.memory position with
  | none => exact .halted .overrun (mirrors.raise rfl)
  | some byte => exact next byte

end Walk.Mirrors

theorem Progress.Mirrors.and_then {view twin : View} {left right : Progress}
    (mirrors : left.Mirrors view twin right) {first second : Walk → Progress}
    (next : ∀ {one other : Walk}, one.Mirrors view twin other →
      (first one).Mirrors view twin (second other)) :
    (left.andThen first).Mirrors view twin (right.andThen second) := by
  cases mirrors with
  | resumed mirrors => exact next mirrors
  | halted reason mirrors => exact .halted reason mirrors

namespace Simulator

variable {simulator other : Simulator} {view twin : View} {left right : Walk}

theorem step_mirrors (tables : other.table = simulator.table)
    (lengths : twin.length = view.length) (mirrors : left.Mirrors view twin right) :
    (simulator.step view left).Mirrors view twin (other.step twin right) := by
  rw [step_eq, step_eq, tables, mirrors.cursor]
  apply mirrors.read_then lengths
  intro opcode
  apply ((mirrors.enter simulator.trace other.trace opcode).patch_at lengths _).and_then
  intro one another patched
  unfold conclude
  rw [patched.machine.bytes, patched.cursor, tables, lengths]
  apply (patched.glance _ _ opcode _).follow
  intro reason cursor diagnostic stopped
  exact Table.relocate_raised stopped

theorem walk_from_mirrors (tables : other.table = simulator.table)
    (lengths : twin.length = view.length) (budget taken : Nat)
    (mirrors : left.Mirrors view twin right) :
    (other.walkFrom twin budget taken right).1 = (simulator.walkFrom view budget taken left).1 ∧
      (other.walkFrom twin budget taken right).2.1 =
        (simulator.walkFrom view budget taken left).2.1 ∧
      (simulator.walkFrom view budget taken left).2.2.Mirrors view twin
        (other.walkFrom twin budget taken right).2.2 := by
  induction budget generalizing taken left right with
  | zero => exact ⟨rfl, rfl, mirrors.raise rfl⟩
  | succ budget ih =>
      have stepped := step_mirrors tables lengths mirrors
      unfold walkFrom
      generalize simulator.step view left = first at stepped ⊢
      generalize other.step twin right = second at stepped ⊢
      cases stepped with
      | resumed mirrors => exact ih (taken + 1) mirrors
      | halted reason mirrors => exact ⟨rfl, rfl, mirrors⟩

/-- Scripts that look alike are walked alike, and still look alike afterwards. -/
theorem run_mirrors (tables : other.table = simulator.table)
    (limits : other.stepLimit = simulator.stepLimit) (lengths : twin.length = view.length)
    {machine another : Machine} (mirrors : machine.Mirrors view twin another) (cursor : Cursor) :
    (other.run twin cursor another).simulation =
        { (simulator.run view cursor machine).simulation with
          diagnostics := (simulator.run view cursor machine).simulation.diagnostics.map
            (Diagnostic.relocate view twin) } ∧
      (simulator.run view cursor machine).machine.Mirrors view twin
        (other.run twin cursor another).machine := by
  have begun : (simulator.beginning cursor machine).Mirrors view twin
      (other.beginning cursor another) := ⟨mirrors, rfl, rfl, rfl⟩
  obtain ⟨halts, steps, walked⟩ :=
    walk_from_mirrors tables lengths simulator.stepLimit 0 begun
  rw [← limits] at halts steps walked
  obtain ⟨simulated, left⟩ := run_of_walk_from
    (rfl : simulator.walkFrom view simulator.stepLimit 0 (simulator.beginning cursor machine) = _)
  obtain ⟨again, right⟩ := run_of_walk_from
    (rfl : other.walkFrom twin other.stepLimit 0 (other.beginning cursor another) = _)
  rw [← limits] at simulated left
  rw [simulated, again, left, right, halts, steps, walked.cursor, walked.diagnostics]
  exact ⟨rfl, walked.machine⟩

end Simulator

end CameraScript
