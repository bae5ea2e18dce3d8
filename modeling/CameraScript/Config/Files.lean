import CameraScript.Config.Form
import CameraScript.Files

/-!
Settings in files. A file that is not there is told apart from one that cannot be read
and from one that does not hold settings.
-/

namespace CameraScript

inductive ConfigError where
  | notFound (path : String)
  | unreadable (fault : FileFault)
  | malformed
  deriving DecidableEq, Repr

def ConfigError.causes : ConfigError → List String
  | notFound path => [s!"config file not found: {path}"]
  | unreadable fault => [s!"config I/O error: {fault.message}", fault.message]
  | malformed => ["config parse error: these are no settings", "these are no settings"]

def ConfigError.message (fault : ConfigError) : String :=
  fault.causes.headD ""

variable {m : Type → Type} [Monad m]

def CameraConfig.load (host : Host m) (path : String) : m (Except ConfigError CameraConfig) := do
  if !(← host.isPresent path) then return .error (.notFound path)
  match ← host.read path with
  | .error fault => return .error (.unreadable fault)
  | .ok bytes =>
      match CameraConfig.read bytes.toList with
      | some config => return .ok config
      | none => return .error .malformed

def CameraConfig.save (host : Host m) (path : String) (config : CameraConfig) :
    m (Except ConfigError Unit) := do
  return (← host.write path config.write.toArray).mapError .unreadable

def TraceFlags.fromHost (host : Host m) : m TraceFlags := do
  let list ← host.setting? "FFCAM_TRACE"
  let all ← host.setting? "FFCAM_TRACE_ALL"
  let camera ← host.setting? "FFCAM_TRACE_BATTLE_CAMERA"
  return TraceFlags.ofEnvironment fun name =>
    if name == "FFCAM_TRACE" then list
    else if name == "FFCAM_TRACE_ALL" then all
    else if name == "FFCAM_TRACE_BATTLE_CAMERA" then camera
    else none

end CameraScript
