import CameraScript.Text.Hex

/-!
The files and the environment of a program run, as operations in any monad. The same
program runs on a real file system and on a tree of files in memory.
-/

namespace CameraScript

inductive FileFault where
  | notFound
  | alreadyExists
  | notDirectory
  | isDirectory
  | nameTooLong
  | nullInName
  | other (text : String)
  deriving DecidableEq, Repr

def FileFault.message : FileFault → String
  | notFound => "No such file or directory (os error 2)"
  | alreadyExists => "File exists (os error 17)"
  | notDirectory => "Not a directory (os error 20)"
  | isDirectory => "Is a directory (os error 21)"
  | nameTooLong => "File name too long (os error 36)"
  | nullInName => "file name contained an unexpected NUL byte"
  | other text => text

structure Host (m : Type → Type) where
  read : String → m (Except FileFault (Array UInt8))
  write : String → Array UInt8 → m (Except FileFault Unit)
  makeDirectory : String → m (Except FileFault Unit)
  /-- Something has this name. -/
  isPresent : String → m Bool
  isDirectory : String → m Bool
  setting? : String → m (Option String)

/-- The longest path that can be followed at all, in bytes. -/
def longestPath : Nat := 4095

/-- A path is refused as a whole before any of its names is looked at. -/
def checkPath (path : String) : Except FileFault Unit :=
  if path.toList.contains '\x00' then .error .nullInName
  else if path == "" then .error .notFound
  else if longestPath < path.utf8ByteSize then .error .nameTooLong
  else .ok ()

def pathNames (path : String) : List String :=
  (path.splitOn "/").filter fun name => name != "" && name != "."

def isAbsolute (path : String) : Bool :=
  path.startsWith "/"

def joinPath (directory file : String) : String :=
  if directory == "" || directory.endsWith "/" then directory ++ file
  else directory ++ "/" ++ file

def beginnings {Item : Type} (items : List Item) : List (List Item) :=
  (List.range (items.length + 1)).map items.take

def parentPaths (path : String) : List String :=
  let root := if isAbsolute path then "/" else ""
  (beginnings (pathNames path).dropLast).reverse.map fun names => root ++ "/".intercalate names

namespace Host

variable {m : Type → Type} [Monad m]

def settle (host : Host m) (path : String) (made : Except FileFault Unit) :
    m (Except FileFault Unit) := do
  match made with
  | .ok () => return .ok ()
  | .error fault => if ← host.isDirectory path then return .ok () else return .error fault

/-- Makes a directory after the directories that it lies in, as far as they are missing.
The working directory is never made. -/
def makeAll (host : Host m) : (path : String) → (parents : List String) → m (Except FileFault Unit)
  | path, [] => do host.settle path (← host.makeDirectory path)
  | path, parent :: rest => do
      match ← host.makeDirectory path with
      | .error .notFound =>
          match ← (if parent == "" then pure (.ok ()) else host.makeAll parent rest) with
          | .ok () => host.settle path (← host.makeDirectory path)
          | .error fault => return .error fault
      | made => host.settle path made

def makeDirectories (host : Host m) (path : String) : m (Except FileFault Unit) :=
  host.makeAll path (parentPaths path)

end Host

end CameraScript
