import CameraScript.Cli.Command

/-!
The program on a real file system. Nothing is decided here: the commands are given the
operations of the system, and what they report is printed.
-/

namespace CameraScript

def faultNumber (code : UInt32) : Nat :=
  min code.toNat (-code).toNat

def FileFault.ofSystem : IO.Error → FileFault
  | .noFileOrDirectory .. => .notFound
  | .alreadyExists .. => .alreadyExists
  | .inappropriateType _ code _ =>
      if faultNumber code == 20 then .notDirectory else .isDirectory
  | .invalidArgument _ code details =>
      if faultNumber code == 36 then .nameTooLong
      else .other s!"{details} (os error {faultNumber code})"
  | .permissionDenied .. => .other "Permission denied (os error 13)"
  | fault => .other (toString fault)

def attempt {Result : Type} (action : IO Result) : IO (Except FileFault Result) := do
  return (← action.toBaseIO).mapError .ofSystem

/-- A path leads somewhere if the system can resolve it. Resolving takes a path apart, so
its length has to be checked before. -/
def resolves (path : String) : IO Bool := do
  match checkPath path with
  | .error _ => return false
  | .ok () => return (← attempt (IO.FS.realPath path)).isOk

def leadsToDirectory (path : String) : IO Bool := do
  match checkPath path with
  | .error _ => return false
  | .ok () => return (← attempt (IO.FS.realPath (path ++ "/."))).isOk

def systemHost : Host IO where
  read path := attempt do return (← IO.FS.readBinFile path).data
  write path bytes := attempt (IO.FS.writeBinFile path ⟨bytes⟩)
  makeDirectory path := attempt (IO.FS.createDir path)
  isPresent path := resolves path
  isDirectory path := leadsToDirectory path
  setting? name := IO.getEnv name

end CameraScript

def main (arguments : List String) : IO UInt32 := do
  let outcome ← CameraScript.Cli.run CameraScript.systemHost arguments
  for line in outcome.stdout do
    IO.println line
  for line in outcome.stderr do
    IO.eprintln line
  return UInt32.ofNat outcome.exit
