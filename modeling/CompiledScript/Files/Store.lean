import CompiledScript.Files.Fault
import CompiledScript.Files.Path

/-!
# Operations on files

What the tool asks of files, in any setting that can provide it: the files of the operating system,
or a tree of files that is a value.
-/

namespace CompiledScript

structure FileEntry where
  name : String
  isDirectory : Bool

/-- The operations on files that a setting provides. -/
class FileStore (m : Type → Type) where
  /-- The absolute path of the directory that relative paths start from. -/
  workingDirectory : m String
  /-- Whether there is a file or directory at a path. -/
  isPresent : String → m Bool
  /-- Whether there is a directory at a path. -/
  isDirectory : String → m Bool
  /-- The bytes of a file. -/
  read : String → m (Except FileFault ByteArray)
  /-- Makes a file with the given bytes, or replaces the bytes of one. -/
  write : String → ByteArray → m (Except FileFault Unit)
  /-- Makes a directory inside one that is there. -/
  makeDirectory : String → m (Except FileFault Unit)
  /-- The entries of a directory, in any order. -/
  list : String → m (Except FileFault (List FileEntry))

namespace FileStore

variable {m : Type → Type} [Monad m] [FileStore m]

def ensureDirectory (path : String) : m (Except FileFault Unit) := do
  match ← makeDirectory path with
  | .ok () => return .ok ()
  | .error fault => if ← isDirectory path then return .ok () else return .error fault

/-- Whether the directory outside could not be made, for another reason than that it is there. -/
def isStopped : Except FileFault Unit → Bool
  | .ok () => false
  | .error fault => fault.cause ≠ .alreadyExists

/-- Makes the first directory of a list, where each lies in the next one. What is missing outside
is made first. A directory `.` is there as soon as the one outside is. -/
def ensureChain : List (List Char) → m (Except FileFault Unit)
  | [] => return .ok ()
  | [path] => ensureDirectory (String.ofList path)
  | path :: outside :: rest => do
    if ← isPresent (String.ofList outside) then ensureDirectory (String.ofList path)
    else
      let made ← ensureChain (outside :: rest)
      if isStopped made then return made
      else if Path.lastName path = ['.'] then return .ok ()
      else ensureDirectory (String.ofList path)

def ensureDirectories (path : String) : m (Except FileFault Unit) :=
  ensureChain (Path.chain path.toList)

/-- Writes a file, and makes the directories it lies in as far as they are missing. -/
def writeBelow (path : String) (data : ByteArray) : m (Except FileFault Unit) := do
  let directory := Path.parent path
  match ← ensureDirectories (if directory.isEmpty then "." else directory) with
  | .error fault => return .error fault
  | .ok () => write path data

/-- The names of the directories among some entries or of the files, sorted. -/
def sortedNames (isDirectory : Bool) (entries : List FileEntry) : List String :=
  ((entries.filter (·.isDirectory = isDirectory)).map (·.name)).mergeSort

/-- The paths of the files below a directory, down to a number of levels: its own files by name,
then those below each of its directories by name. A directory that cannot be listed is passed
over. -/
def filesBelow : Nat → String → m (List String)
  | 0, _ => return []
  | levels + 1, path => do
    match ← list path with
    | .error _ => return []
    | .ok entries =>
      let below ← (sortedNames true entries).mapM fun name ↦ filesBelow levels (Path.join path name)
      return (sortedNames false entries).map (Path.join path) ++ below.flatten

/-- A number of levels that no path reaches, since paths have at most 4095 bytes. -/
def maxLevels : Nat := 4096

/-- The files that some paths stand for: the files below a directory, and any other path itself. -/
def collect : List String → m (List String)
  | [] => return []
  | path :: rest => do
    let found ← if ← isDirectory path then filesBelow maxLevels path else pure [path]
    return found ++ (← collect rest)

end FileStore
end CompiledScript
