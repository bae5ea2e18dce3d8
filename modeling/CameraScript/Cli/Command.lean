import CameraScript.Cli.Arguments
import CameraScript.Config.Files
import CameraScript.Listing.Files

/-!
The commands. A command reads its dump, reports on standard output, logs what the
settings let through on standard error, and ends with a report when it fails.
-/

namespace CameraScript.Cli

/-- What a program run prints, line by line, and its exit code. -/
structure Outcome where
  exit : Nat
  stdout : List String
  stderr : List String
  deriving DecidableEq, Repr

/-- A failure with its reasons from the outermost to the innermost. -/
structure Failure where
  message : String
  causes : List String
  deriving DecidableEq, Repr

/-- The lines of a reason, set in. Reasons are numbered when there are several. -/
def causeLines (numbered : Bool) (cause : String × Nat) : List String :=
  let opening := if numbered then s!"{Text.alignRight 5 (toString cause.2)}: " else "    "
  let later := if numbered then "       " else "    "
  match cause.1.splitOn "\n" with
  | [] => [opening]
  | first :: rest => (opening ++ first) :: rest.map (later ++ ·)

def Failure.lines (failure : Failure) : List String :=
  s!"Error: {failure.message}".splitOn "\n" ++
    if failure.causes.isEmpty then []
    else
      "Caused by:" ::
        failure.causes.zipIdx.flatMap (causeLines (decide (1 < failure.causes.length)))

structure LogRecord where
  level : Level
  target : String
  text : String
  deriving DecidableEq, Repr

def LogRecord.line (record : LogRecord) : String :=
  let padded := record.level.name ++ "".pushn ' ' (5 - record.level.name.length)
  s!"[{padded} {record.target}] {record.text}"

def eventRecord (event : Event) : LogRecord :=
  ⟨event.level, "ffcam::battle_camera", event.text⟩

def warningRecord (text : String) : LogRecord :=
  ⟨.warn, "ffcam_disasm", text⟩

def shownLines (config : CameraConfig) (records : List LogRecord) : List String :=
  match config.logger with
  | none => []
  | some logger =>
      (records.filter fun record => logger.appLevelFilter.admits record.level).flatMap
        fun record => record.line.splitOn "\n"

structure Report where
  stdout : List String
  records : List LogRecord
  failure : Option Failure

def Report.outcome (config : CameraConfig) (report : Report) : Outcome where
  exit := if report.failure.isSome then 1 else 0
  stdout := report.stdout
  stderr := shownLines config report.records ++ (report.failure.map Failure.lines).getD []

def Report.failed (message : String) (causes : List String) : Report :=
  ⟨[], [], some ⟨message, causes⟩⟩

def dumpUnreadable (path : String) (fault : FileFault) : Report :=
  .failed s!"failed to read camera script dump {path}" [fault.message]

def frameLine (frame : Nat) (simulation : Simulation) : String :=
  let number := Text.alignRight 4 (toString frame)
  let position := Text.alignRight 4 (toString simulation.cursor.position)
  let wait := Text.alignRight 3 (toString simulation.cursor.wait)
  let opening := s!"frame {number}: position {position}, frames to wait {wait}, "
  opening ++ s!"{simulation.halt.text} after {simulation.steps} steps"

/-- Only a walk that the game would not end in the same way is warned about. -/
def frameWarning? (frame : Nat) (simulation : Simulation) : Option LogRecord :=
  if simulation.halt.isClean then none
  else some (warningRecord s!"frame {frame} stopped early: {simulation.halt.text}")

def playbackReport (playback : Playback) : Report :=
  let numbered := playback.runs.toList.zipIdx
  let patcher := playback.machine.patcher
  { stdout :=
      numbered.map (fun (simulation, frame) => frameLine frame simulation) ++
        (if patcher.enabled then [] else ["argument patching disabled"]) ++
        s!"{patcher.count} patched arguments" ::
          patcher.addresses.map fun addr => "  0x" ++ Text.hexLower 8 addr.toNat
    records :=
      playback.log.toList.map eventRecord ++
        numbered.filterMap fun (simulation, frame) => frameWarning? frame simulation
    failure := none }

/-- Walks a dump. The dump itself is never written. -/
def simulate (config : CameraConfig) (trace : TraceFlags) (dump : DumpArguments) (frames : Nat)
    (length? : Option Nat) (base : UInt32) (patch : Bool) (bytes : Array UInt8) : Report :=
  let simulator := Simulator.withLimit dump.dialect.table trace config.stepLimit.toNat
  let patcher := Patcher.ofEnabled (patch && config.patchScriptArgs)
  match simulateFrames simulator ⟨dump.offset, length?⟩ frames ⟨⟨base, ⟨bytes⟩⟩, patcher⟩ with
  | .ok playback => playbackReport playback
  | .error fault => .failed fault.message []

variable {m : Type → Type} [Monad m]

def writeListing (host : Host m) (output : String) (listing : Listing) (project : Project) :
    m (Except FileFault Unit) := do
  let ready ← (do
    if ← host.isPresent output then return .ok () else host.makeDirectories output)
  match ready with
  | .error fault => return .error fault
  | .ok () =>
      match ← host.write (joinPath output listingFile) listing.yaml.toUTF8.data with
      | .error fault => return .error fault
      | .ok () => host.write (joinPath output projectFile) project.toml.toUTF8.data

def runList (host : Host m) (dump : DumpArguments) (output : String) : m Report := do
  match ← host.read dump.input with
  | .error fault => return dumpUnreadable dump.input fault
  | .ok bytes =>
      match Listing.ofBytes dump.dialect dump.offset.toNat bytes with
      | .error fault => return .failed fault.message []
      | .ok listing =>
          let records := listing.warnings.map fun warning => warningRecord warning.message
          let project : Project := ⟨dump.input, dump.dialect, dump.offset.toNat⟩
          match ← writeListing host output listing project with
          | .ok () => return ⟨[], records, none⟩
          | .error fault => return ⟨[], records, some ⟨fault.message, []⟩⟩

def runSimulate (host : Host m) (config : CameraConfig) (trace : TraceFlags)
    (dump : DumpArguments) (frames : Nat) (length? : Option Nat) (base : UInt32) (patch : Bool) :
    m Report := do
  match ← host.read dump.input with
  | .error fault => return dumpUnreadable dump.input fault
  | .ok bytes => return simulate config trace dump frames length? base patch bytes

def runInvocation (host : Host m) (invocation : Invocation) : m Outcome := do
  let loaded ← match invocation.config with
    | none => pure (.ok .standard)
    | some path => CameraConfig.load host path
  match loaded with
  | .error fault =>
      let path := invocation.config.getD ""
      let report := Report.failed s!"failed to load config {path}" fault.causes
      return report.outcome .standard
  | .ok config =>
      let environment ← TraceFlags.fromHost host
      let switched := if invocation.trace then TraceFlags.camera else .off
      let trace := (config.effectiveTrace environment).merge switched
      let report ← match invocation.command with
        | .list dump output => runList host dump output
        | .simulate dump frames length? base patch =>
            runSimulate host config trace dump frames length? base patch
      return report.outcome config

def versionLine : String := "ffcam-disassembler 0.1.0"

def usageLines : List String :=
  ["Usage: ffcam-disasm [-c CONFIG] [--trace] COMMAND",
    "  list -i INPUT -o OUTPUT [-d DIALECT] [--offset OFFSET]",
    "  simulate -i INPUT [-d DIALECT] [--offset OFFSET] [-f FRAMES] [--len LEN]",
    "           [--base BASE] [--no-patch]"]

def usageExit : Nat := 2

def run (host : Host m) (arguments : List String) : m Outcome := do
  match readArguments arguments with
  | .error .usage => return ⟨usageExit, [], usageLines⟩
  | .error .version => return ⟨0, [versionLine], []⟩
  | .error .help => return ⟨0, usageLines, []⟩
  | .ok invocation => runInvocation host invocation

end CameraScript.Cli
