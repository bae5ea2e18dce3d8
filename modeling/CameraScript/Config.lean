import CameraScript.Camera

/-!
The settings of the subsystem as they are kept in a file. Every setting has a default,
so a file needs to name only the settings that differ.
-/

namespace CameraScript

/-- What reaches the log: records of the program itself, and records of all else. -/
structure LoggerConfig where
  appLevelFilter : LevelFilter
  levelFilter : LevelFilter
  deriving DecidableEq, Repr

def LoggerConfig.standard : LoggerConfig :=
  ⟨.upTo .info, .upTo .warn⟩

/-- Without a logger nothing is logged; without a layout the caller has to bring one. -/
structure CameraConfig where
  logger : Option LoggerConfig
  trace : TraceFlags
  patchScriptArgs : Bool
  crossCheck : Bool
  stepLimit : UInt64
  layout : Option Layout
  deriving DecidableEq, Repr

namespace CameraConfig

def standard : CameraConfig where
  logger := some .standard
  trace := .off
  patchScriptArgs := true
  crossCheck := true
  stepLimit := 65536
  layout := none

/-- Trace categories are switched on by the file or by the environment. -/
def effectiveTrace (config : CameraConfig) (environment : TraceFlags) : TraceFlags :=
  config.trace.merge environment

def cameraSettings (config : CameraConfig) (environment : TraceFlags) (layout : Layout) :
    CameraSettings where
  layout := config.layout.getD layout
  trace := config.effectiveTrace environment
  crossCheck := config.crossCheck
  stepLimit := config.stepLimit.toNat

def patcher (config : CameraConfig) : Patcher :=
  .ofEnabled config.patchScriptArgs

def session {Native : Type} (config : CameraConfig) (environment : TraceFlags) (layout : Layout)
    (memory : Region) (native : Native) : Session Native where
  settings := config.cameraSettings environment layout
  machine := ⟨memory, config.patcher⟩
  flags := .clear
  native := native

end CameraConfig

end CameraScript
