import CameraScript.Files

/-!
A tree of files in memory. It has no links, so a path can be followed name by name; the
errors are those of a real file system.
-/

namespace CameraScript

inductive FileNode where
  | file (bytes : Array UInt8)
  | directory
  deriving DecidableEq

/-- The nodes by their names from the root, and the working directory. The root itself
is always there. -/
structure FileTree where
  nodes : List (List String × FileNode)
  home : List String

namespace FileTree

def node? (tree : FileTree) (place : List String) : Option FileNode :=
  if place.isEmpty then some .directory else tree.nodes.lookup place

def longestName : Nat := 255

/-- Follows names from a place. The last name need not be there, but every place that is
left has to be a directory. -/
def follow (tree : FileTree) : List String → List String → Except FileFault (List String)
  | place, [] => .ok place
  | place, name :: rest =>
      match tree.node? place with
      | none => .error .notFound
      | some (.file _) => .error .notDirectory
      | some .directory =>
          if name == "" || name == "." then tree.follow place rest
          else if name == ".." then tree.follow place.dropLast rest
          else if longestName < name.utf8ByteSize then .error .nameTooLong
          else tree.follow (place ++ [name]) rest

def followPath (tree : FileTree) (path : String) : Except FileFault (List String) :=
  tree.follow (if isAbsolute path then [] else tree.home) (path.splitOn "/")

def locate (tree : FileTree) (path : String) : Except FileFault (List String) :=
  match checkPath path with
  | .ok () => tree.followPath path
  | .error fault => .error fault

def withoutSlash (path : String) : String :=
  let kept := (path.toList.reverse.dropWhile (· == '/')).reverse
  if kept.isEmpty then path else String.ofList kept

def locateNew (tree : FileTree) (path : String) : Except FileFault (List String) :=
  match checkPath path with
  | .ok () => tree.followPath (withoutSlash path)
  | .error fault => .error fault

def put (tree : FileTree) (place : List String) (node : FileNode) : FileTree :=
  { tree with nodes := (place, node) :: tree.nodes.filter fun entry => entry.1 != place }

def putBelow (tree : FileTree) (place : List String) (node : FileNode) : FileTree :=
  let above := (beginnings place.dropLast).filter fun parent => (tree.node? parent).isNone
  (above.foldl (fun tree parent => tree.put parent .directory) tree).put place node

def lookup (tree : FileTree) (path : String) : Except FileFault FileNode :=
  match tree.locate path with
  | .error fault => .error fault
  | .ok place =>
      match tree.node? place with
      | some node => .ok node
      | none => .error .notFound

def read (tree : FileTree) (path : String) : Except FileFault (Array UInt8) :=
  match tree.lookup path with
  | .ok (.file bytes) => .ok bytes
  | .ok .directory => .error .isDirectory
  | .error fault => .error fault

/-- A path with a slash at its end never names a file. -/
def write (tree : FileTree) (path : String) (bytes : Array UInt8) :
    Except FileFault Unit × FileTree :=
  match tree.locateNew path with
  | .error fault => (.error fault, tree)
  | .ok place =>
      if path.endsWith "/" || tree.node? place == some .directory then (.error .isDirectory, tree)
      else (.ok (), tree.put place (.file bytes))

def makeDirectory (tree : FileTree) (path : String) : Except FileFault Unit × FileTree :=
  match tree.locateNew path with
  | .error fault => (.error fault, tree)
  | .ok place =>
      if (tree.node? place).isSome then (.error .alreadyExists, tree)
      else (.ok (), tree.put place .directory)

def files (tree : FileTree) : List (String × Array UInt8) :=
  tree.nodes.filterMap fun (place, node) =>
    match node with
    | .file bytes =>
        if tree.home.isPrefixOf place then
          some ("/".intercalate (place.drop tree.home.length), bytes)
        else none
    | .directory => none

def changedSince (tree earlier : FileTree) : List (String × Array UInt8) :=
  tree.files.filter fun file => !earlier.files.contains file

def host (settings : String → Option String) : Host (StateM FileTree) where
  read path := return (← get).read path
  write path bytes := modifyGet fun tree => tree.write path bytes
  makeDirectory path := modifyGet fun tree => tree.makeDirectory path
  isPresent path := return ((← get).lookup path).toOption.isSome
  isDirectory path := return ((← get).lookup path).toOption == some .directory
  setting? name := return settings name

end FileTree

end CameraScript
