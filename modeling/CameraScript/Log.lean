import CameraScript.Diagnostic
import CameraScript.Trace

/-!
The log as typed events. The level and the wording of an event are functions of it,
so that what a piece of the library reports can be stated without its text.
-/

namespace CameraScript

inductive Level where
  | error
  | warn
  | info
  | debug
  | trace
  deriving DecidableEq, Repr

namespace Level

/-- Less severe levels count higher. -/
def rank : Level → Nat
  | error => 1
  | warn => 2
  | info => 3
  | debug => 4
  | trace => 5

def name : Level → String
  | error => "ERROR"
  | warn => "WARN"
  | info => "INFO"
  | debug => "DEBUG"
  | trace => "TRACE"

end Level

inductive LevelFilter where
  | off
  | upTo (level : Level)
  deriving DecidableEq, Repr

namespace LevelFilter

def admits (filter : LevelFilter) (level : Level) : Bool :=
  match filter with
  | off => false
  | upTo least => level.rank ≤ least.rank

def name : LevelFilter → String
  | off => "OFF"
  | upTo level => level.name

def all : List LevelFilter :=
  [off, upTo .error, upTo .warn, upTo .info, upTo .debug, upTo .trace]

def ofName? (name : String) : Option LevelFilter :=
  all.find? fun filter => filter.name == name.map Char.toUpper

end LevelFilter

/-- What the subsystem reports. A raised diagnostic is an error; everything else is
there only for tracing. -/
inductive Event where
  | raised (diagnostic : Diagnostic)
  | walkStarted
  | fetched (opcode : UInt8)
  | peeked (opcode : UInt8)
  | walkEnded
  | located (dialect : Dialect) (variation : Int8) (selector : Int16) (addr : UInt32)
  | called (dialect : Dialect) (variation : Int8) (param : UInt32) (selector : Int16)
  | functionStarted (function : UInt32)
  deriving DecidableEq, Repr

namespace Event

def level : Event → Level
  | raised _ => .error
  | _ => .trace

/-- An overflow is logged where the argument is doubled, with a wording of its own. -/
def text : Event → String
  | raised (.argumentOverflow addr before after) =>
      let place := Text.hex addr.toNat
      s!"Script arg multiplication out of bound at 0x{place}: before is {before}, after is {after}"
  | raised diagnostic => diagnostic.message
  | walkStarted => "simulate_camera_script - START LIST OF CAMERA SCRIPT OPCODE AND ARGS"
  | fetched opcode => s!"opcode: 0x{Text.hex opcode.toNat}"
  | peeked opcode => s!"0xFE case: opcode 0x{Text.hex opcode.toNat}"
  | walkEnded => "simulate_camera_script - END LIST OF CAMERA SCRIPT OPCODE AND ARGS"
  | located dialect variation selector addr =>
      let place := Text.hexLower 8 addr.toNat
      let script := s!"variation {variation.toInt}, selector {selector.toInt}"
      s!"{dialect.name} - camera script for {script} at 0x{place}"
  | called dialect variation param selector =>
      s!"{dialect.name} - Parameters: {variation.toInt}, {param}, {selector.toInt}"
  | functionStarted function =>
      s!"execute_camera_functions - function started 0x{Text.hex function.toNat}"

end Event

def TraceFlags.record (flags : TraceFlags) (log : Array Event) (event : Event) : Array Event :=
  if flags.enabled then log.push event else log

end CameraScript
