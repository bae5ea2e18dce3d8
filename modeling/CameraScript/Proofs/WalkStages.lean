import CameraScript.Proofs.PatchEffects
import CameraScript.Simulator

/-!
# The stages of one step

A step fetches an opcode, doubles at most one argument, and then turns: it moves
on, begins the script anew, or stops. The turn depends on the table, the cursor
and the byte after the opcode alone, so two walks that read the same bytes turn
alike whatever their machines hold elsewhere.
-/

namespace CameraScript

inductive Turn where
  | onward (cursor : Cursor)
  | anew
  | stop (reason : Halt) (cursor : Cursor) (raised? : Option Diagnostic)

def Progress.walk : Progress → Walk
  | .resumed walk | .halted _ walk => walk

/-- The position of the argument that an opcode at a position doubles, if any. -/
def Table.doubledAt? (table : Table) (opcode : UInt8) (position : UInt16) : Option UInt16 :=
  match Control.ofOpcode? opcode with
  | some .setWait => some (position + 1)
  | some _ => none
  | none =>
      ((table.get? opcode).bind Descriptor.doubled).map fun index =>
        position + 1 + index.toUInt16

/-- The control flow of an opcode at the cursor's position, given the byte after it. -/
def Table.turn (table : Table) (length : Nat) (opcode : UInt8) (cursor : Cursor)
    (next? : Option UInt8) : Turn :=
  let past : Cursor := ⟨cursor.position + 1, cursor.wait⟩
  match Control.ofOpcode? opcode with
  | some .wait =>
      if cursor.wait = 0 then .onward past
      else .stop .yielded ⟨cursor.position, cursor.wait - 1⟩ none
  | some .setWait =>
      match next? with
      | some frames => .onward ⟨cursor.position + 1 + 1, frames.toUInt16⟩
      | none => .stop .overrun past (some (.overrun past.position length))
  | some .restart =>
      if cursor.wait = 0 then
        match next? with
        | some next => if next = Opcode.restartMarker then .anew else .onward past
        | none => .stop .overrun past (some (.overrun past.position length))
      else .onward past
  | none =>
      match table.get? opcode with
      | none => .stop (.unknownOpcode opcode) past (some (.unknownOpcode opcode cursor.position))
      | some descriptor =>
          let beyond : Cursor :=
            ⟨past.position + descriptor.argLength.toInt16.toUInt16, cursor.wait⟩
          if descriptor.terminal then .stop (.terminal opcode) beyond none else .onward beyond

theorem Table.turn_anew {table : Table} {length : Nat} {opcode : UInt8} {cursor : Cursor}
    {next? : Option UInt8} (went : table.turn length opcode cursor next? = .anew) :
    Control.ofOpcode? opcode = some .restart ∧ cursor.wait = 0 ∧
      next? = some Opcode.restartMarker := by
  simp only [Table.turn] at went
  cases control : Control.ofOpcode? opcode with
  | none =>
      simp only [control] at went
      cases entry : table.get? opcode with
      | none => simp [entry] at went
      | some descriptor =>
          simp only [entry] at went
          split at went <;> contradiction
  | some kind =>
      cases kind with
      | wait =>
          simp only [control] at went
          split at went <;> contradiction
      | setWait =>
          simp only [control] at went
          cases next? <;> contradiction
      | restart =>
          simp only [control] at went
          split at went
          · rename_i elapsed
            cases next? with
            | none => contradiction
            | some next =>
                simp only at went
                split at went
                · rename_i marked
                  exact ⟨rfl, elapsed, by rw [marked]⟩
                · contradiction
          · contradiction

theorem Table.turn_stop {table : Table} {length : Nat} {opcode : UInt8} {cursor after : Cursor}
    {next? : Option UInt8} {reason : Halt} {raised? : Option Diagnostic}
    (went : table.turn length opcode cursor next? = .stop reason after raised?) :
    (reason = .yielded ∧ Control.ofOpcode? opcode = some .wait ∧ cursor.wait ≠ 0 ∧
        after = ⟨cursor.position, cursor.wait - 1⟩ ∧ raised? = none) ∨
      (reason = .overrun ∧ next? = none ∧ after = ⟨cursor.position + 1, cursor.wait⟩ ∧
        raised? = some (.overrun (cursor.position + 1) length)) ∨
      (reason = .unknownOpcode opcode ∧ Control.ofOpcode? opcode = none ∧
        table.get? opcode = none ∧ after = ⟨cursor.position + 1, cursor.wait⟩ ∧
        raised? = some (.unknownOpcode opcode cursor.position)) ∨
      ∃ descriptor, reason = .terminal opcode ∧ Control.ofOpcode? opcode = none ∧
        table.get? opcode = some descriptor ∧ descriptor.terminal = true ∧
        after = ⟨cursor.position + 1 + descriptor.argLength.toInt16.toUInt16, cursor.wait⟩ ∧
        raised? = none := by
  simp only [Table.turn] at went
  cases control : Control.ofOpcode? opcode with
  | none =>
      simp only [control] at went
      cases entry : table.get? opcode with
      | none =>
          simp only [entry] at went
          cases went
          exact .inr (.inr (.inl ⟨rfl, rfl, rfl, rfl, rfl⟩))
      | some descriptor =>
          simp only [entry] at went
          split at went
          · rename_i ends
            cases went
            exact .inr (.inr (.inr ⟨descriptor, rfl, rfl, rfl, ends, rfl, rfl⟩))
          · contradiction
  | some kind =>
      cases kind with
      | wait =>
          simp only [control] at went
          split at went
          · contradiction
          · rename_i waiting
            cases went
            exact .inl ⟨rfl, rfl, waiting, rfl, rfl⟩
      | setWait =>
          simp only [control] at went
          cases next? with
          | some frames => contradiction
          | none =>
              cases went
              exact .inr (.inl ⟨rfl, rfl, rfl, rfl⟩)
      | restart =>
          simp only [control] at went
          split at went
          · cases next? with
            | some next =>
                simp only at went
                split at went <;> contradiction
            | none =>
                cases went
                exact .inr (.inl ⟨rfl, rfl, rfl, rfl⟩)
          · contradiction

/-- An argument cannot be doubled outside the script, nor inside it where the image
refuses the address. -/
def FaultReason.Caused (view : View) (machine : Machine) (argument : UInt16) :
    FaultReason → Prop
  | .outsideScript position => position = argument ∧ view.length ≤ argument.toNat
  | .outsideImage fault =>
      argument.toNat < view.length ∧
        (machine.patch (view.start + argument.toUInt32)).1 = .error fault

namespace Walk

/-- The position has moved past the opcode before the opcode takes effect. -/
def enter (trace : TraceFlags) (opcode : UInt8) (walk : Walk) : Walk :=
  (walk.moveTo (walk.cursor.position + 1)).note trace (.fetched opcode)

def raiseAll (walk : Walk) : Option Diagnostic → Walk
  | none => walk
  | some diagnostic => walk.raise diagnostic

def afterPatch (walk : Walk) (addr : UInt32) (outcome : PatchOutcome) : Walk :=
  { walk with machine := (walk.machine.patch addr).2 }.raiseAll (outcome.diagnostic? addr)

def patchAt (view : View) : Option UInt16 → Walk → Progress
  | none, walk => .resumed walk
  | some argument, walk => walk.patchArgument view argument

def glance (trace : TraceFlags) (opcode : UInt8) (next? : Option UInt8) (walk : Walk) : Walk :=
  match next? with
  | some next =>
      if Control.ofOpcode? opcode = some .restart ∧ walk.cursor.wait = 0 then
        walk.note trace (.peeked next)
      else walk
  | none => walk

def follow (walk : Walk) : Turn → Progress
  | .onward cursor => .resumed { walk with cursor }
  | .anew =>
      if walk.restarted then .halted .restarted { walk with cursor := .start }
      else .resumed { walk with cursor := .start, restarted := true }
  | .stop reason cursor raised? => .halted reason ({ walk with cursor }.raiseAll raised?)

theorem follow_resumed {ready next : Walk} {turn : Turn}
    (resumed : ready.follow turn = .resumed next) :
    (∃ cursor, turn = .onward cursor ∧ next = { ready with cursor }) ∨
      (turn = .anew ∧ ready.restarted = false ∧
        next = { ready with cursor := .start, restarted := true }) := by
  cases turn with
  | onward cursor =>
      cases resumed
      exact .inl ⟨cursor, rfl, rfl⟩
  | anew =>
      simp only [follow] at resumed
      split at resumed
      · contradiction
      · rename_i first
        cases resumed
        exact .inr ⟨rfl, by simpa using first, rfl⟩
  | stop reason cursor raised? => contradiction

theorem follow_halted {ready final : Walk} {turn : Turn} {reason : Halt}
    (halted : ready.follow turn = .halted reason final) :
    (∃ cursor raised?, turn = .stop reason cursor raised? ∧
      final = { ready with cursor }.raiseAll raised?) ∨
      (turn = .anew ∧ ready.restarted = true ∧ reason = .restarted ∧
        final = { ready with cursor := .start }) := by
  cases turn with
  | onward cursor => contradiction
  | anew =>
      simp only [follow] at halted
      split at halted
      · rename_i again
        cases halted
        exact .inr ⟨rfl, again, rfl, rfl⟩
      · contradiction
  | stop reason cursor raised? =>
      cases halted
      exact .inl ⟨cursor, raised?, rfl, rfl⟩

theorem patch_argument_cases (view : View) (position : UInt16) (walk : Walk) :
    (∃ reason, reason.Caused view walk.machine position ∧
      walk.patchArgument view position =
        .halted .fault (walk.raise (.patchFault (view.start + position.toUInt32) reason))) ∨
      ∃ outcome, position.toNat < view.length ∧
        (walk.machine.patch (view.start + position.toUInt32)).1 = .ok outcome ∧
        walk.patchArgument view position =
          .resumed (walk.afterPatch (view.start + position.toUInt32) outcome) := by
  obtain ⟨machine, cursor, restarted, diagnostics, log⟩ := walk
  simp only [patchArgument]
  by_cases inside : position.toNat < view.length
  · rw [if_pos inside]
    rcases machine.patch_cases (view.start + position.toUInt32) with
      ⟨-, patched⟩ | ⟨-, -, patched⟩ | ⟨-, -, -, patched⟩ | ⟨-, -, before, -, patched⟩
    · exact .inr ⟨.disabled, inside, by rw [patched], by simp only [patched, afterPatch]; rfl⟩
    · exact .inr ⟨.alreadyPatched, inside, by rw [patched], by simp only [patched, afterPatch]; rfl⟩
    · exact .inl ⟨.outsideImage _, ⟨inside, by rw [patched]⟩, by simp only [patched]⟩
    · refine .inr ⟨_, inside, by rw [patched], ?_⟩
      simp only [patched, afterPatch]
      cases (Patcher.outcomeOf before).diagnostic? (view.start + position.toUInt32) <;> rfl
  · rw [if_neg inside]
    exact .inl ⟨.outsideScript position, ⟨rfl, by omega⟩, rfl⟩

theorem patch_argument_inside {view : View} {position : UInt16}
    (inside : position.toNat < view.length) (walk : Walk) :
    walk.patchArgument view position =
      match (walk.machine.patch (view.start + position.toUInt32)).1 with
      | .ok outcome => .resumed (walk.afterPatch (view.start + position.toUInt32) outcome)
      | .error fault =>
          .halted .fault (walk.raise
            (.patchFault (view.start + position.toUInt32) (.outsideImage fault))) := by
  rcases walk.patch_argument_cases view position with
    ⟨reason, caused, failed⟩ | ⟨outcome, -, accepted, went⟩
  · cases reason with
    | outsideScript other =>
        have outside := caused.2
        omega
    | outsideImage fault => rw [failed, caused.2]
  · rw [went, accepted]

theorem patch_argument_outside {view : View} {position : UInt16}
    (outside : view.length ≤ position.toNat) (walk : Walk) :
    walk.patchArgument view position =
      .halted .fault (walk.raise
        (.patchFault (view.start + position.toUInt32) (.outsideScript position))) := by
  rcases walk.patch_argument_cases view position with
    ⟨reason, caused, failed⟩ | ⟨outcome, inside, -⟩
  · cases reason with
    | outsideScript other => rw [failed, caused.1]
    | outsideImage fault =>
        have inside := caused.1
        omega
  · omega

theorem raise_all_fields (walk : Walk) (raised? : Option Diagnostic) :
    (walk.raiseAll raised?).machine = walk.machine ∧
      (walk.raiseAll raised?).cursor = walk.cursor ∧
      (walk.raiseAll raised?).restarted = walk.restarted := by
  cases raised? <;> exact ⟨rfl, rfl, rfl⟩

theorem glance_fields (trace : TraceFlags) (opcode : UInt8) (next? : Option UInt8) (walk : Walk) :
    (walk.glance trace opcode next?).machine = walk.machine ∧
      (walk.glance trace opcode next?).cursor = walk.cursor ∧
      (walk.glance trace opcode next?).restarted = walk.restarted ∧
      (walk.glance trace opcode next?).diagnostics = walk.diagnostics := by
  unfold glance
  split
  · split <;> exact ⟨rfl, rfl, rfl, rfl⟩
  · exact ⟨rfl, rfl, rfl, rfl⟩

theorem glance_of_ne (trace : TraceFlags) {opcode : UInt8} (next? : Option UInt8) (walk : Walk)
    (other : Control.ofOpcode? opcode ≠ some .restart) :
    walk.glance trace opcode next? = walk := by
  cases next? <;> simp [glance, other]

end Walk

theorem Progress.and_then_congr {progress : Progress} {first second : Walk → Progress}
    (same : ∀ walk, progress = .resumed walk → first walk = second walk) :
    progress.andThen first = progress.andThen second := by
  cases progress with
  | resumed walk => exact same walk rfl
  | halted reason walk => rfl

namespace Simulator

variable (simulator : Simulator) (view : View) {opcode : UInt8} {position : UInt16} {walk : Walk}

def conclude (opcode : UInt8) (position : UInt16) (walk : Walk) : Progress :=
  let next? := view.byte? walk.machine.memory (position + 1)
  (walk.glance simulator.trace opcode next?).follow
    (simulator.table.turn view.length opcode ⟨position, walk.cursor.wait⟩ next?)

private theorem conclude_wait (control : Control.ofOpcode? opcode = some .wait)
    (entered : walk.cursor.position = position + 1) :
    simulator.conclude view opcode position walk = stepWait position walk := by
  obtain ⟨machine, ⟨current, wait⟩, restarted, diagnostics, log⟩ := walk
  change current = position + 1 at entered
  subst entered
  simp only [conclude]
  rw [Walk.glance_of_ne _ _ _ (by simp [control])]
  by_cases elapsed : wait = 0 <;>
    simp [Table.turn, control, stepWait, Walk.follow, elapsed, Walk.raiseAll]

private theorem conclude_set_wait (control : Control.ofOpcode? opcode = some .setWait)
    (entered : walk.cursor.position = position + 1) :
    simulator.conclude view opcode position walk =
      walk.readThen view (position + 1) fun frames loaded =>
        .resumed { loaded with cursor := ⟨position + 1 + 1, frames.toUInt16⟩ } := by
  obtain ⟨machine, ⟨current, wait⟩, restarted, diagnostics, log⟩ := walk
  change current = position + 1 at entered
  subst entered
  simp only [conclude]
  rw [Walk.glance_of_ne _ _ _ (by simp [control])]
  cases next : view.byte? machine.memory (position + 1) <;>
    simp [Table.turn, control, Walk.readThen, Walk.follow, next, Walk.raiseAll]

private theorem conclude_restart (control : Control.ofOpcode? opcode = some .restart)
    (entered : walk.cursor.position = position + 1) :
    simulator.conclude view opcode position walk = simulator.stepRestart view walk := by
  obtain ⟨machine, ⟨current, wait⟩, restarted, diagnostics, log⟩ := walk
  change current = position + 1 at entered
  subst entered
  by_cases elapsed : wait = 0
  · cases next : view.byte? machine.memory (position + 1) with
    | none =>
        simp [conclude, Table.turn, Walk.glance, control, stepRestart, Walk.readThen,
          Walk.follow, next, elapsed, Walk.raiseAll]
    | some byte =>
        by_cases marked : byte = Opcode.restartMarker <;>
          simp [conclude, Table.turn, Walk.glance, control, stepRestart, Walk.readThen,
            Walk.follow, next, elapsed, marked, Walk.note]
  · cases next : view.byte? machine.memory (position + 1) <;>
      simp [conclude, Table.turn, Walk.glance, control, stepRestart, Walk.follow, next, elapsed]

private theorem conclude_table (control : Control.ofOpcode? opcode = none)
    (entered : walk.cursor.position = position + 1) :
    simulator.conclude view opcode position walk =
      match simulator.table.get? opcode with
      | none => .halted (.unknownOpcode opcode) (walk.raise (.unknownOpcode opcode position))
      | some descriptor => skipArguments opcode descriptor walk := by
  obtain ⟨machine, ⟨current, wait⟩, restarted, diagnostics, log⟩ := walk
  change current = position + 1 at entered
  subst entered
  simp only [conclude]
  rw [Walk.glance_of_ne _ _ _ (by simp [control])]
  cases entry : simulator.table.get? opcode with
  | none => simp [Table.turn, control, Walk.follow, entry, Walk.raiseAll, Walk.raise]
  | some descriptor =>
      cases ends : descriptor.terminal <;>
        simp [Table.turn, control, Walk.follow, entry, Walk.raiseAll, skipArguments,
          Walk.moveTo, ends]

theorem patch_argument_cursor {argument : UInt16} {patched : Walk}
    (resumed : walk.patchArgument view argument = .resumed patched) :
    patched.cursor = walk.cursor := by
  rcases walk.patch_argument_cases view argument with ⟨reason, -, failed⟩ | ⟨outcome, -, -, went⟩
  · rw [failed] at resumed
    contradiction
  · rw [went] at resumed
    cases resumed
    exact (Walk.raise_all_fields _ _).2.1

theorem step_eq (walk : Walk) :
    simulator.step view walk =
      walk.readThen view walk.cursor.position fun opcode reading =>
        ((reading.enter simulator.trace opcode).patchAt view
            (simulator.table.doubledAt? opcode walk.cursor.position)).andThen
          (simulator.conclude view opcode walk.cursor.position) := by
  simp only [step, Walk.readThen]
  cases view.byte? walk.machine.memory walk.cursor.position with
  | none => rfl
  | some opcode =>
      have entered : (walk.enter simulator.trace opcode).cursor.position =
          walk.cursor.position + 1 := rfl
      simp only
      cases control : Control.ofOpcode? opcode with
      | none =>
          have concluded := conclude_table simulator view control entered
          cases entry : simulator.table.get? opcode with
          | none =>
              rw [entry] at concluded
              simp only [Table.doubledAt?, control, entry, stepTable]
              exact concluded.symm
          | some descriptor =>
              simp only [Table.doubledAt?, control, entry, stepTable, Option.bind_some]
              cases descriptor.doubled with
              | none =>
                  rw [entry] at concluded
                  exact concluded.symm
              | some index =>
                  refine Progress.and_then_congr fun patched resumed => ?_
                  have kept := patch_argument_cursor view resumed
                  have skipped := conclude_table simulator view control
                    (congrArg Cursor.position kept)
                  rw [entry] at skipped
                  exact skipped.symm
      | some kind =>
          cases kind with
          | wait =>
              simp only [Table.doubledAt?, control]
              exact (conclude_wait simulator view control entered).symm
          | setWait =>
              simp only [Table.doubledAt?, control]
              refine Progress.and_then_congr fun patched resumed => ?_
              have kept := patch_argument_cursor view resumed
              exact (conclude_set_wait simulator view control
                (congrArg Cursor.position kept)).symm
          | restart =>
              simp only [Table.doubledAt?, control]
              exact (conclude_restart simulator view control entered).symm

def turnAt (opcode : UInt8) (cursor : Cursor) (memory : Region) : Turn :=
  simulator.table.turn view.length opcode cursor (view.byte? memory (cursor.position + 1))

end Simulator

def Machine.patchAt (view : View) (machine : Machine) : Option UInt16 → Machine
  | none => machine
  | some argument => (machine.patch (view.start + argument.toUInt32)).2

def Machine.overflowAt? (view : View) (machine : Machine) : Option UInt16 → Option Diagnostic
  | none => none
  | some argument =>
      match (machine.patch (view.start + argument.toUInt32)).1 with
      | .ok outcome => outcome.diagnostic? (view.start + argument.toUInt32)
      | .error _ => none

def Diagnostic.overflowsAt (addr : UInt32) : Diagnostic → Bool
  | argumentOverflow other _ _ => other == addr
  | _ => false

theorem Walk.patch_at_cases (view : View) (argument? : Option UInt16) (walk : Walk) :
    (∃ argument reason, argument? = some argument ∧ reason.Caused view walk.machine argument ∧
      walk.patchAt view argument? =
        .halted .fault (walk.raise (.patchFault (view.start + argument.toUInt32) reason))) ∨
      ∃ patched, walk.patchAt view argument? = .resumed patched ∧
        (∀ argument, argument? = some argument → argument.toNat < view.length ∧
          patched.machine.Settled (view.start + argument.toUInt32)) ∧
        patched.machine = walk.machine.patchAt view argument? ∧
        patched.cursor = walk.cursor ∧ patched.restarted = walk.restarted ∧
        patched.diagnostics.toList =
          walk.diagnostics.toList ++ (walk.machine.overflowAt? view argument?).toList := by
  cases argument? with
  | none =>
      refine .inr ⟨walk, rfl, ?_, rfl, rfl, rfl, (List.append_nil _).symm⟩
      intro argument absent
      contradiction
  | some argument =>
      rcases Walk.patch_argument_cases view argument walk with
        ⟨reason, caused, failed⟩ | ⟨outcome, inside, accepted, went⟩
      · exact .inl ⟨argument, reason, rfl, caused, failed⟩
      · obtain ⟨machine, cursor, restarted⟩ := Walk.raise_all_fields
          { walk with machine := (walk.machine.patch (view.start + argument.toUInt32)).2 }
          (outcome.diagnostic? (view.start + argument.toUInt32))
        refine .inr ⟨_, went, ?_, machine, cursor, restarted, ?_⟩
        · intro other same
          cases same
          refine ⟨inside, ?_⟩
          rw [Walk.afterPatch, machine]
          exact Machine.settled_of_patch_ok accepted
        · simp only [Walk.afterPatch, Machine.overflowAt?, accepted]
          cases outcome.diagnostic? (view.start + argument.toUInt32) with
          | none => exact (List.append_nil _).symm
          | some diagnostic => exact Array.toList_push

/-- The walk is ready to turn: its opcode is fetched and its argument is doubled. -/
structure Walk.Ready (table : Table) (view : View) (walk : Walk) (opcode : UInt8)
    (ready : Walk) : Prop where
  fetched : view.byte? walk.machine.memory walk.cursor.position = some opcode
  settled : ∀ argument, table.doubledAt? opcode walk.cursor.position = some argument →
    argument.toNat < view.length ∧
      ready.machine.Settled (view.start + argument.toUInt32)
  machine : ready.machine =
    walk.machine.patchAt view (table.doubledAt? opcode walk.cursor.position)
  cursor : ready.cursor = ⟨walk.cursor.position + 1, walk.cursor.wait⟩
  restarted : ready.restarted = walk.restarted
  diagnostics : ready.diagnostics.toList = walk.diagnostics.toList ++
    (walk.machine.overflowAt? view (table.doubledAt? opcode walk.cursor.position)).toList

structure Walk.Faulted (table : Table) (view : View) (walk failed : Walk) : Prop where
  machine : failed.machine = walk.machine
  cursor : failed.cursor = ⟨walk.cursor.position + 1, walk.cursor.wait⟩
  restarted : failed.restarted = walk.restarted
  raised : ∃ opcode argument reason,
    view.byte? walk.machine.memory walk.cursor.position = some opcode ∧
      table.doubledAt? opcode walk.cursor.position = some argument ∧
      reason.Caused view walk.machine argument ∧
      failed.diagnostics.toList = walk.diagnostics.toList ++
        [.patchFault (view.start + argument.toUInt32) reason]

namespace Simulator

variable (simulator : Simulator) (view : View)

/-- All that a step can do: it finds no opcode, it finds an argument that cannot be
doubled, or it gets ready and turns. -/
theorem step_cases (walk : Walk) :
    (view.byte? walk.machine.memory walk.cursor.position = none ∧
      simulator.step view walk =
        .halted .overrun (walk.raise (.overrun walk.cursor.position view.length))) ∨
      (∃ failed, walk.Faulted simulator.table view failed ∧
        simulator.step view walk = .halted .fault failed) ∨
      ∃ opcode ready, walk.Ready simulator.table view opcode ready ∧
        simulator.step view walk =
          ready.follow (simulator.turnAt view opcode walk.cursor ready.machine.memory) := by
  rw [step_eq]
  simp only [Walk.readThen]
  cases fetched : view.byte? walk.machine.memory walk.cursor.position with
  | none => exact .inl ⟨rfl, rfl⟩
  | some opcode =>
      simp only
      refine .inr ?_
      rcases Walk.patch_at_cases view (simulator.table.doubledAt? opcode walk.cursor.position)
          (walk.enter simulator.trace opcode) with
        ⟨argument, reason, doubled, caused, failed⟩ |
          ⟨patched, went, settled, machine, cursor, restarted, diagnostics⟩
      · refine .inl ⟨_, ?_, by rw [failed]; rfl⟩
        exact {
          machine := rfl
          cursor := rfl
          restarted := rfl
          raised := ⟨opcode, argument, reason, fetched, doubled, caused, Array.toList_push⟩ }
      · let next? := view.byte? patched.machine.memory (walk.cursor.position + 1)
        have glanced := patched.glance_fields simulator.trace opcode next?
        refine .inr ⟨opcode, patched.glance simulator.trace opcode next?, ?_, ?_⟩
        · exact {
            fetched := fetched
            settled := by rw [glanced.1]; exact settled
            machine := glanced.1.trans machine
            cursor := glanced.2.1.trans cursor
            restarted := glanced.2.2.1.trans restarted
            diagnostics := by rw [glanced.2.2.2]; exact diagnostics }
        · rw [went]
          simp only [Progress.andThen, conclude, turnAt, glanced.1, cursor]
          rfl

variable {view}

theorem step_of_absent (walk : Walk)
    (absent : view.byte? walk.machine.memory walk.cursor.position = none) :
    simulator.step view walk =
      .halted .overrun (walk.raise (.overrun walk.cursor.position view.length)) := by
  rcases simulator.step_cases view walk with
    ⟨-, stepped⟩ | ⟨failed, faulted, -⟩ | ⟨opcode, ready, prepared, -⟩
  · exact stepped
  · obtain ⟨opcode, argument, reason, found, -⟩ := faulted.raised
    rw [absent] at found
    contradiction
  · have found := prepared.fetched
    rw [absent] at found
    contradiction

theorem step_of_outside (walk : Walk) {opcode : UInt8} {argument : UInt16}
    (fetched : view.byte? walk.machine.memory walk.cursor.position = some opcode)
    (doubled : simulator.table.doubledAt? opcode walk.cursor.position = some argument)
    (outside : view.length ≤ argument.toNat) :
    ∃ failed, simulator.step view walk = .halted .fault failed ∧
      walk.Faulted simulator.table view failed ∧
      failed.diagnostics.toList = walk.diagnostics.toList ++
        [.patchFault (view.start + argument.toUInt32) (.outsideScript argument)] := by
  rcases simulator.step_cases view walk with
    ⟨absent, -⟩ | ⟨failed, faulted, stepped⟩ | ⟨other, ready, prepared, -⟩
  · rw [fetched] at absent
    contradiction
  · refine ⟨failed, stepped, faulted, ?_⟩
    obtain ⟨other, another, reason, found, same, caused, raised⟩ := faulted.raised
    cases Option.some.inj (fetched.symm.trans found)
    cases Option.some.inj (doubled.symm.trans same)
    cases reason with
    | outsideScript position =>
        rw [raised, caused.1]
    | outsideImage fault =>
        have inside := caused.1
        omega
  · cases Option.some.inj (fetched.symm.trans prepared.fetched)
    have inside := (prepared.settled argument doubled).1
    omega

theorem step_of_accepted (walk : Walk) {opcode : UInt8}
    (fetched : view.byte? walk.machine.memory walk.cursor.position = some opcode)
    (accepted : ∀ argument,
      simulator.table.doubledAt? opcode walk.cursor.position = some argument →
        argument.toNat < view.length ∧
          ∃ outcome, (walk.machine.patch (view.start + argument.toUInt32)).1 = .ok outcome) :
    ∃ ready, walk.Ready simulator.table view opcode ready ∧
      simulator.step view walk =
        ready.follow (simulator.turnAt view opcode walk.cursor ready.machine.memory) := by
  rcases simulator.step_cases view walk with
    ⟨absent, -⟩ | ⟨failed, faulted, -⟩ | ⟨other, ready, prepared, stepped⟩
  · rw [fetched] at absent
    contradiction
  · obtain ⟨other, argument, reason, found, doubled, caused, -⟩ := faulted.raised
    cases Option.some.inj (fetched.symm.trans found)
    obtain ⟨inside, outcome, went⟩ := accepted argument doubled
    cases reason with
    | outsideScript position =>
        have outside := caused.2
        omega
    | outsideImage fault =>
        have refused := caused.2
        rw [went] at refused
        contradiction
  · cases Option.some.inj (fetched.symm.trans prepared.fetched)
    exact ⟨ready, prepared, stepped⟩

variable {simulator} {walk : Walk}

theorem step_resumed {next : Walk} (resumed : simulator.step view walk = .resumed next) :
    ∃ opcode ready, walk.Ready simulator.table view opcode ready ∧
      next.machine = ready.machine ∧ next.diagnostics = ready.diagnostics ∧
      ((simulator.turnAt view opcode walk.cursor ready.machine.memory = .onward next.cursor ∧
          next.restarted = walk.restarted) ∨
        (simulator.turnAt view opcode walk.cursor ready.machine.memory = .anew ∧
          walk.restarted = false ∧ next.cursor = .start ∧ next.restarted = true)) := by
  rcases simulator.step_cases view walk with
    ⟨-, stepped⟩ | ⟨failed, -, stepped⟩ | ⟨opcode, ready, prepared, stepped⟩
  · rw [stepped] at resumed
    contradiction
  · rw [stepped] at resumed
    contradiction
  · rw [stepped] at resumed
    refine ⟨opcode, ready, prepared, ?_⟩
    rcases Walk.follow_resumed resumed with ⟨cursor, turned, rfl⟩ | ⟨turned, first, rfl⟩
    · exact ⟨rfl, rfl, .inl ⟨turned, prepared.restarted⟩⟩
    · exact ⟨rfl, rfl, .inr ⟨turned, prepared.restarted.symm.trans first, rfl, rfl⟩⟩

/-- A step that ends the walk finds no opcode, cannot double an argument, stops at
an opcode, or takes a restart for the second time. -/
theorem step_halted {reason : Halt} {final : Walk}
    (halted : simulator.step view walk = .halted reason final) :
    (reason = .overrun ∧ final = walk.raise (.overrun walk.cursor.position view.length) ∧
        view.byte? walk.machine.memory walk.cursor.position = none) ∨
      (reason = .fault ∧ walk.Faulted simulator.table view final) ∨
      ∃ opcode ready, walk.Ready simulator.table view opcode ready ∧
        final.machine = ready.machine ∧ final.restarted = walk.restarted ∧
        ((∃ raised?, simulator.turnAt view opcode walk.cursor ready.machine.memory =
              .stop reason final.cursor raised? ∧
            final.diagnostics.toList = ready.diagnostics.toList ++ raised?.toList) ∨
          (simulator.turnAt view opcode walk.cursor ready.machine.memory = .anew ∧
            walk.restarted = true ∧ reason = .restarted ∧ final.cursor = .start ∧
            final.diagnostics = ready.diagnostics)) := by
  rcases simulator.step_cases view walk with
    ⟨absent, stepped⟩ | ⟨failed, faulted, stepped⟩ | ⟨opcode, ready, prepared, stepped⟩
  · rw [stepped] at halted
    cases halted
    exact .inl ⟨rfl, rfl, absent⟩
  · rw [stepped] at halted
    cases halted
    exact .inr (.inl ⟨rfl, faulted⟩)
  · rw [stepped] at halted
    refine .inr (.inr ⟨opcode, ready, prepared, ?_⟩)
    rcases Walk.follow_halted halted with ⟨cursor, raised?, turned, rfl⟩ | ⟨turned, again, rfl, rfl⟩
    · obtain ⟨machine, moved, restarted⟩ :=
        Walk.raise_all_fields { ready with cursor } raised?
      refine ⟨machine, restarted.trans prepared.restarted, .inl ⟨raised?, ?_, ?_⟩⟩
      · rw [turned, moved]
      · cases raised? with
        | none => exact (List.append_nil _).symm
        | some diagnostic => exact Array.toList_push
    · exact ⟨rfl, prepared.restarted, .inr ⟨turned, prepared.restarted.symm.trans again, rfl, rfl,
        rfl⟩⟩

/-- A step doubles at most one argument, which lies inside the script. What it raises besides
the overflow of this argument is no overflow. -/
theorem step_effects (simulator : Simulator) (view : View) (walk : Walk) :
    ∃ argument? others,
      (∀ argument, argument? = some argument → argument.toNat < view.length) ∧
        (simulator.step view walk).walk.machine = walk.machine.patchAt view argument? ∧
        (simulator.step view walk).walk.diagnostics.toList = walk.diagnostics.toList ++
          (walk.machine.overflowAt? view argument?).toList ++ others ∧
        ∀ addr, others.filter (Diagnostic.overflowsAt addr) = [] := by
  have inside {opcode : UInt8} {ready : Walk}
      (prepared : walk.Ready simulator.table view opcode ready) (argument : UInt16)
      (doubled : simulator.table.doubledAt? opcode walk.cursor.position = some argument) :
      argument.toNat < view.length := (prepared.settled argument doubled).1
  have nowhere (argument : UInt16) (absent : none = some argument) :
      argument.toNat < view.length := by contradiction
  cases stepped : simulator.step view walk with
  | resumed next =>
      obtain ⟨opcode, ready, prepared, machine, diagnostics, -⟩ := step_resumed stepped
      refine ⟨_, [], inside prepared, machine.trans prepared.machine, ?_, fun _ => rfl⟩
      rw [List.append_nil, ← prepared.diagnostics, ← diagnostics]
      rfl
  | halted reason final =>
      rcases step_halted stepped with
        ⟨-, rfl, -⟩ | ⟨-, faulted⟩ | ⟨opcode, ready, prepared, machine, -, stopped | again⟩
      · refine ⟨none, [.overrun walk.cursor.position view.length], nowhere, rfl, ?_, fun _ => rfl⟩
        rw [Machine.overflowAt?, Option.toList_none, List.append_nil]
        exact Array.toList_push
      · obtain ⟨opcode, argument, reason, -, -, -, raised⟩ := faulted.raised
        refine ⟨none, [.patchFault (view.start + argument.toUInt32) reason], nowhere,
          faulted.machine, ?_, fun _ => rfl⟩
        rw [Machine.overflowAt?, Option.toList_none, List.append_nil]
        exact raised
      · obtain ⟨raised?, turned, diagnostics⟩ := stopped
        refine ⟨_, raised?.toList, inside prepared, machine.trans prepared.machine, ?_, ?_⟩
        · rw [← prepared.diagnostics]
          exact diagnostics
        · -- of the diagnostics of a turn none is an overflow
          intro addr
          rcases Table.turn_stop turned with
            ⟨-, -, -, -, rfl⟩ | ⟨-, -, -, rfl⟩ | ⟨-, -, -, -, rfl⟩ | ⟨_, -, -, -, -, -, rfl⟩ <;> rfl
      · refine ⟨_, [], inside prepared, machine.trans prepared.machine, ?_, fun _ => rfl⟩
        rw [List.append_nil, ← prepared.diagnostics, ← again.2.2.2.2]
        rfl

theorem step_never_exhausts {reason : Halt} {final : Walk}
    (halted : simulator.step view walk = .halted reason final) : reason ≠ .stepBudget := by
  rcases step_halted halted with ⟨rfl, -⟩ | ⟨rfl, -⟩ | ⟨opcode, ready, -, -, -, stopped | anew⟩
  · simp
  · simp
  · obtain ⟨raised?, turned, -⟩ := stopped
    rcases Table.turn_stop turned with
      ⟨rfl, -⟩ | ⟨rfl, -⟩ | ⟨rfl, -⟩ | ⟨descriptor, rfl, -⟩ <;> simp
  · rw [anew.2.2.1]
    simp

theorem restarted_of_step (simulator : Simulator) (view : View) {walk : Walk}
    (restarted : walk.restarted = true) :
    (simulator.step view walk).walk.restarted = true := by
  cases stepped : simulator.step view walk with
  | resumed next =>
      obtain ⟨opcode, ready, -, -, -, ⟨-, kept⟩ | ⟨-, -, -, second⟩⟩ := step_resumed stepped
      · exact kept.trans restarted
      · exact second
  | halted reason final =>
      rcases step_halted stepped with
        ⟨-, rfl, -⟩ | ⟨-, faulted⟩ | ⟨opcode, ready, -, -, kept, -⟩
      · exact restarted
      · exact faulted.restarted.trans restarted
      · exact kept.trans restarted

def beginning (simulator : Simulator) (cursor : Cursor) (machine : Machine) : Walk :=
  (Walk.begin machine cursor).note simulator.trace .walkStarted

theorem run_of_walk_from {cursor : Cursor} {machine : Machine} {halt : Halt} {steps : Nat}
    {final : Walk}
    (walked : simulator.walkFrom view simulator.stepLimit 0 (simulator.beginning cursor machine) =
      (halt, steps, final)) :
    (simulator.run view cursor machine).simulation =
        ⟨final.cursor, halt, steps, final.diagnostics.toList⟩ ∧
      (simulator.run view cursor machine).machine = final.machine := by
  simp only [beginning] at walked
  simp only [run, walked, and_self]

end Simulator

end CameraScript
