import CompiledScript.Files.Store

/-!
# Trees of files

A directory tree as a value, with the operations of `FileStore` on it. A path is followed name by
name: every name but the last has to be that of a directory, `.` stays and `..` goes to the
directory outside. New names have at most 255 bytes and paths at most 4095, and none has a zero
character.
-/

namespace CompiledScript

inductive Node where
  | file (content : ByteArray)
  | directory (entries : List (String × Node))

namespace Node

def find? : List String → Node → Option Node
  | [], node => some node
  | _ :: _, .file _ => none
  | name :: rest, .directory entries =>
    match entries.lookup name with
    | some child => find? rest child
    | none => none

/-- A list of entries with an entry replaced, or added at the end. -/
def putEntry (name : String) (node : Node) : List (String × Node) → List (String × Node)
  | [] => [(name, node)]
  | (other, child) :: rest =>
    if other = name then (name, node) :: rest else (other, child) :: putEntry name node rest

/-- A tree with another node where some names lead to. -/
def put (new : Node) : List String → Node → Node
  | [], _ => new
  | _ :: _, .file content => .file content
  | name :: rest, .directory entries =>
    .directory (putEntry name (put new rest ((entries.lookup name).getD (.directory []))) entries)

def isDirectory : Node → Bool
  | .file _ => false
  | .directory _ => true

def listed (entries : List (String × Node)) : List FileEntry :=
  entries.map fun entry ↦ ⟨entry.1, entry.2.isDirectory⟩

end Node

/-- A tree of files, and the names that lead from its root to the directory where relative paths
start. -/
structure Disk where
  root : Node
  home : List String

namespace Disk

/-- The greatest number of bytes of a name. -/
def maxName : Nat := 255

/-- The greatest number of bytes of a path. -/
def maxPath : Nat := 4095

/-- Where a path leads: to a node, or to a name that is free in a directory. -/
inductive Place where
  | taken (names : List String) (node : Node)
  | free (directory : List String) (name : String)

/-- Follows names from the directory that the names `here` lead to. -/
def follow (root : Node) (here : List String) : List String → Except FileCause Place
  | [] =>
    match root.find? here with
    | some node => .ok (.taken here node)
    | none => .error .notFound
  | name :: rest =>
    match root.find? here with
    | none => .error .notFound
    | some (.file _) => .error .notDirectory
    | some (.directory entries) =>
      if name = "." then follow root here rest
      else if name = ".." then follow root here.dropLast rest
      else if (entries.lookup name).isSome then follow root (here ++ [name]) rest
      else if maxName < name.utf8ByteSize then .error .nameTooLong
      else if rest.isEmpty then .ok (.free here name)
      else .error .notFound

def locate (disk : Disk) (path : String) : Except FileCause Place :=
  if '\x00' ∈ path.toList then .error .zeroInPath
  else if path.isEmpty then .error .notFound
  else if maxPath < path.utf8ByteSize then .error .nameTooLong
  else follow disk.root (if Path.isAbsolute path then [] else disk.home) (Path.steps path)

def isPresent (disk : Disk) (path : String) : Bool :=
  match disk.locate path with
  | .ok (.taken _ _) => true
  | _ => false

def isDirectory (disk : Disk) (path : String) : Bool :=
  match disk.locate path with
  | .ok (.taken _ (.directory _)) => true
  | _ => false

def read (disk : Disk) (path : String) : Except FileFault ByteArray :=
  match disk.locate path with
  | .ok (.taken _ (.file content)) => .ok content
  | .ok (.taken _ (.directory _)) => .error ⟨.isDirectory, path⟩
  | .ok (.free _ _) => .error ⟨.notFound, path⟩
  | .error cause => .error ⟨cause, path⟩

def put (disk : Disk) (names : List String) (node : Node) : Disk :=
  { disk with root := Node.put node names disk.root }

/-- Makes a file, or replaces its bytes. -/
def write (disk : Disk) (path : String) (content : ByteArray) : Except FileFault Disk :=
  match disk.locate path with
  | .ok (.taken names (.file _)) => .ok (disk.put names (.file content))
  | .ok (.taken _ (.directory _)) => .error ⟨.isDirectory, path⟩
  | .ok (.free directory name) => .ok (disk.put (directory ++ [name]) (.file content))
  | .error cause => .error ⟨cause, path⟩

/-- Makes a directory. Slashes at the end of its path do not matter. -/
def makeDirectory (disk : Disk) (path : String) : Except FileFault Disk :=
  match disk.locate (String.ofList (Path.dropSlashes path.toList)) with
  | .ok (.taken _ _) => .error ⟨.alreadyExists, path⟩
  | .ok (.free directory name) => .ok (disk.put (directory ++ [name]) (.directory []))
  | .error cause => .error ⟨cause, path⟩

def list (disk : Disk) (path : String) : Except FileFault (List FileEntry) :=
  match disk.locate path with
  | .ok (.taken _ (.directory entries)) => .ok (Node.listed entries)
  | .ok (.taken _ (.file _)) => .error ⟨.notDirectory, path⟩
  | .ok (.free _ _) => .error ⟨.notFound, path⟩
  | .error cause => .error ⟨cause, path⟩

/-- The absolute path of the directory where relative paths start. -/
def homePath (disk : Disk) : String :=
  disk.home.foldl Path.join "/"

/-- Applies a change that may fail, in which case nothing changes. -/
def attempt (change : Disk → Except FileFault Disk) : StateM Disk (Except FileFault Unit) :=
  fun disk ↦
    match change disk with
    | .ok changed => (.ok (), changed)
    | .error fault => (.error fault, disk)

end Disk

instance : FileStore (StateM Disk) where
  workingDirectory := fun disk ↦ (disk.homePath, disk)
  isPresent path := fun disk ↦ (disk.isPresent path, disk)
  isDirectory path := fun disk ↦ (disk.isDirectory path, disk)
  read path := fun disk ↦ (disk.read path, disk)
  write path content := Disk.attempt (·.write path content)
  makeDirectory path := Disk.attempt (·.makeDirectory path)
  list path := fun disk ↦ (disk.list path, disk)

end CompiledScript
