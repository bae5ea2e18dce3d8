/-!
The opcodes that the interpreter itself understands. Every other opcode is known
only through the table of a dialect.
-/

namespace CameraScript

namespace Opcode

/-- Waits one frame while frames are left, and is skipped otherwise. -/
def wait : UInt8 := 0xF4

/-- Loads the number of frames to wait from its one argument. -/
def setWait : UInt8 := 0xF5

/-- Begins the script anew if the marker follows. -/
def restart : UInt8 := 0xFE

def finish : UInt8 := 0xFF

def restartMarker : UInt8 := 0xC0

end Opcode

/-- The opcodes whose effect is on the control flow and not in a table. -/
inductive Control where
  | wait
  | setWait
  | restart
  deriving DecidableEq, Repr

namespace Control

def opcode : Control → UInt8
  | wait => Opcode.wait
  | setWait => Opcode.setWait
  | restart => Opcode.restart

def ofOpcode? (opcode : UInt8) : Option Control :=
  if opcode = Opcode.wait then some wait
  else if opcode = Opcode.setWait then some setWait
  else if opcode = Opcode.restart then some restart
  else none

theorem of_opcode_opcode (control : Control) : ofOpcode? control.opcode = some control := by
  cases control <;> decide

theorem of_opcode_eq_some_iff {opcode : UInt8} {control : Control} :
    ofOpcode? opcode = some control ↔ opcode = control.opcode := by
  refine ⟨fun known => ?_, fun same => same ▸ of_opcode_opcode control⟩
  simp only [ofOpcode?] at known
  split at known
  · cases known; assumption
  · split at known
    · cases known; assumption
    · split at known
      · cases known; assumption
      · contradiction

end Control

def Opcode.mnemonic (opcode : UInt8) : String :=
  match Control.ofOpcode? opcode with
  | some .wait => "wait"
  | some .setWait => "setwait"
  | some .restart => "restart"
  | none => if opcode = Opcode.finish then "end" else "cam"

end CameraScript
