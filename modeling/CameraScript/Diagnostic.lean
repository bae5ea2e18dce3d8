import CameraScript.Dialect
import CameraScript.Patcher

/-!
What is noticed while a script is walked, or when a walk is compared with the
game. A diagnostic never stops the game; it is logged when it is raised and handed
back with the result.
-/

namespace CameraScript

inductive FaultReason where
  | outsideScript (position : UInt16)
  | outsideImage (fault : OutOfRange)
  deriving DecidableEq, Repr

inductive CursorField where
  | position
  | wait
  deriving DecidableEq, Repr

inductive Diagnostic where
  | argumentOverflow (addr : UInt32) (before after : UInt8)
  | unknownOpcode (opcode : UInt8) (position : UInt16)
  | overrun (position : UInt16) (length : Nat)
  | patchFault (addr : UInt32) (reason : FaultReason)
  | budgetExhausted (steps : Nat)
  | cursorMismatch (dialect : Dialect) (field : CursorField) (simulated actual : UInt16)
  deriving DecidableEq, Repr

def FaultReason.message : FaultReason → String
  | outsideScript position => s!"position {position} is outside the script"
  | outsideImage fault => fault.message

def CursorField.text : CursorField → String
  | position => "final position"
  | wait => "final frames to wait"

def Diagnostic.message : Diagnostic → String
  | argumentOverflow addr before after =>
      let place := Text.hexUpper 8 addr.toNat
      s!"script arg multiplication out of bound at 0x{place}: before is {before}, after is {after}"
  | unknownOpcode opcode position =>
      let code := Text.hexUpper 2 opcode.toNat
      s!"strange opcode 0x{code} in camera script at position {position}"
  | overrun position length =>
      s!"camera script overrun: position {position} is past the end of the script (len={length})"
  | patchFault addr reason =>
      let place := Text.hexUpper 8 addr.toNat
      s!"argument patch at 0x{place} failed: {reason.message}"
  | budgetExhausted steps => s!"camera script simulation gave up after {steps} steps"
  | cursorMismatch dialect field simulated actual =>
      let opening := s!"{dialect.name} - camera script pointer simulation wrong! "
      let middle := s!"battle camera {field.text} does not match "
      opening ++ middle ++ s!"(simulation: {simulated} != real: {actual})"

/-- Only an overflow is worth a diagnostic. -/
def PatchOutcome.diagnostic? (addr : UInt32) : PatchOutcome → Option Diagnostic
  | overflowed before after => some (.argumentOverflow addr before after)
  | doubled _ _ | alreadyPatched | disabled => none

end CameraScript
