import CameraScript.Cursor
import CameraScript.Log
import CameraScript.View

/-!
The walk over one script, from a cursor to the point where the interpreter hands
control back. One step is a function of the state alone, so a walk is the repeated
step under a budget. The state carries the image and the record of doubled
arguments, because the walk rewrites bytes that it is about to read.
-/

namespace CameraScript

inductive Halt where
  | yielded
  | terminal (opcode : UInt8)
  | restarted
  | unknownOpcode (opcode : UInt8)
  | overrun
  | fault
  | stepBudget
  deriving DecidableEq, Repr

namespace Halt

/-- The ways in which the game's own interpreter ends as well. -/
def isClean : Halt → Bool
  | yielded | terminal _ | restarted => true
  | unknownOpcode _ | overrun | fault | stepBudget => false

def text : Halt → String
  | yielded => "Yield"
  | terminal opcode => s!"Terminal({opcode})"
  | restarted => "Restart"
  | unknownOpcode opcode => s!"UnknownOpcode({opcode})"
  | overrun => "Overrun"
  | fault => "Fault"
  | stepBudget => "StepBudget"

end Halt

/-- The state of a walk. A restart is allowed once, so the walk remembers whether it
has taken one. -/
structure Walk where
  machine : Machine
  cursor : Cursor
  restarted : Bool
  diagnostics : Array Diagnostic
  log : Array Event

inductive Progress where
  | resumed (walk : Walk)
  | halted (reason : Halt) (walk : Walk)

def Progress.andThen (progress : Progress) (next : Walk → Progress) : Progress :=
  match progress with
  | .resumed walk => next walk
  | .halted reason walk => .halted reason walk

namespace Walk

def begin (machine : Machine) (cursor : Cursor) : Walk :=
  ⟨machine, cursor, false, #[], #[]⟩

def raise : Walk → Diagnostic → Walk
  | ⟨machine, cursor, restarted, diagnostics, log⟩, diagnostic =>
      ⟨machine, cursor, restarted, diagnostics.push diagnostic, log.push (.raised diagnostic)⟩

def note (flags : TraceFlags) (event : Event) : Walk → Walk
  | ⟨machine, cursor, restarted, diagnostics, log⟩ =>
      ⟨machine, cursor, restarted, diagnostics, flags.record log event⟩

def moveTo (position : UInt16) (walk : Walk) : Walk :=
  { walk with cursor := { walk.cursor with position } }

/-- Doubles the argument at a position. The address is formed even for a position
outside the script, because the refusal names it. -/
def patchArgument (view : View) (position : UInt16) : Walk → Progress
  | ⟨machine, cursor, restarted, diagnostics, log⟩ =>
      let addr := view.start + position.toUInt32
      if position.toNat < view.length then
        match machine.patch addr with
        | (.ok outcome, patched) =>
            let walk : Walk := ⟨patched, cursor, restarted, diagnostics, log⟩
            match outcome.diagnostic? addr with
            | some diagnostic => .resumed (walk.raise diagnostic)
            | none => .resumed walk
        | (.error fault, unpatched) =>
            .halted .fault (Walk.raise ⟨unpatched, cursor, restarted, diagnostics, log⟩
              (.patchFault addr (.outsideImage fault)))
      else
        .halted .fault (Walk.raise ⟨machine, cursor, restarted, diagnostics, log⟩
          (.patchFault addr (.outsideScript position)))

/-- Reads the byte at a position for the rest of the step, which ends here when the
script does not reach that far. -/
def readThen (view : View) (position : UInt16) (walk : Walk) (next : UInt8 → Walk → Progress) :
    Progress :=
  match view.byte? walk.machine.memory position with
  | some byte => next byte walk
  | none => .halted .overrun (walk.raise (.overrun position view.length))

end Walk

/-- The table to walk with, what to trace, and how many opcodes to walk at most. -/
structure Simulator where
  table : Table
  trace : TraceFlags
  stepLimit : Nat
  stepLimit_pos : 0 < stepLimit

namespace Simulator

def defaultStepLimit : Nat := 65536

/-- A limit of zero allows one step, like a limit of one. -/
def withLimit (table : Table) (trace : TraceFlags) (limit : Nat) : Simulator where
  table := table
  trace := trace
  stepLimit := max limit 1
  stepLimit_pos := by omega

def stepWait (origin : UInt16) (walk : Walk) : Progress :=
  if walk.cursor.wait = 0 then .resumed walk
  else .halted .yielded { walk with cursor := ⟨origin, walk.cursor.wait - 1⟩ }

/-- The argument is doubled before it is loaded. -/
def stepSetWait (view : View) (walk : Walk) : Progress :=
  let argument := walk.cursor.position
  (walk.patchArgument view argument).andThen fun patched =>
    patched.readThen view argument fun frames loaded =>
      .resumed { loaded with cursor := ⟨argument + 1, frames.toUInt16⟩ }

/-- The marker is looked at without being consumed. A second restart within one walk
would go on for ever and ends it. -/
def stepRestart (simulator : Simulator) (view : View) (walk : Walk) : Progress :=
  if walk.cursor.wait = 0 then
    walk.readThen view walk.cursor.position fun next peeking =>
      let peeked := peeking.note simulator.trace (.peeked next)
      if next = Opcode.restartMarker then
        if peeked.restarted then .halted .restarted { peeked with cursor := .start }
        else .resumed { peeked with cursor := .start, restarted := true }
      else .resumed peeked
  else .resumed walk

/-- Moves past the arguments, or back by the negative length of an opcode that parks
the position. -/
def skipArguments (opcode : UInt8) (descriptor : Descriptor) (walk : Walk) : Progress :=
  let moved := walk.moveTo (walk.cursor.position + descriptor.argLength.toInt16.toUInt16)
  if descriptor.terminal then .halted (.terminal opcode) moved else .resumed moved

def stepTable (simulator : Simulator) (view : View) (opcode : UInt8) (origin : UInt16)
    (walk : Walk) : Progress :=
  match simulator.table.get? opcode with
  | none => .halted (.unknownOpcode opcode) (walk.raise (.unknownOpcode opcode origin))
  | some descriptor =>
      match descriptor.doubled with
      | none => skipArguments opcode descriptor walk
      | some index =>
          (walk.patchArgument view (walk.cursor.position + index.toUInt16)).andThen
            (skipArguments opcode descriptor)

/-- One opcode. The position has already moved past it when its effect takes place,
and stays there if the effect fails. -/
def step (simulator : Simulator) (view : View) (walk : Walk) : Progress :=
  let origin := walk.cursor.position
  walk.readThen view origin fun opcode reading =>
    let entered := (reading.moveTo (origin + 1)).note simulator.trace (.fetched opcode)
    match Control.ofOpcode? opcode with
    | some .wait => stepWait origin entered
    | some .setWait => stepSetWait view entered
    | some .restart => simulator.stepRestart view entered
    | none => simulator.stepTable view opcode origin entered

def walkFrom (simulator : Simulator) (view : View) :
    (budget taken : Nat) → Walk → Halt × Nat × Walk
  | 0, taken, walk => (.stepBudget, taken, walk.raise (.budgetExhausted taken))
  | budget + 1, taken, walk =>
      match simulator.step view walk with
      | .resumed next => simulator.walkFrom view budget (taken + 1) next
      | .halted reason final => (reason, taken + 1, final)

end Simulator

structure Simulation where
  cursor : Cursor
  halt : Halt
  steps : Nat
  diagnostics : List Diagnostic
  deriving DecidableEq, Repr

structure Simulated where
  simulation : Simulation
  machine : Machine
  log : Array Event

def Simulator.run (simulator : Simulator) (view : View) (cursor : Cursor) (machine : Machine) :
    Simulated :=
  let begun := (Walk.begin machine cursor).note simulator.trace .walkStarted
  match simulator.walkFrom view simulator.stepLimit 0 begun with
  | (halt, steps, final) =>
      { simulation := ⟨final.cursor, halt, steps, final.diagnostics.toList⟩
        machine := final.machine
        log := simulator.trace.record final.log .walkEnded }

end CameraScript
