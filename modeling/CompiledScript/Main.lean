import CompiledScript.Tool.Run

/-!
# The command line

Runs the tool on the files of the operating system. It reads and writes single files and makes
directories. It has no means to list a directory, so a directory among the inputs ends the run with
an error.
-/

namespace CompiledScript.Main

/-- The cause that an error of the operating system stands for. -/
def causeOf : IO.Error → FileCause
  | .noFileOrDirectory _ _ _ => .notFound
  | .alreadyExists _ _ _ => .alreadyExists
  | .inappropriateType _ 20 _ => .notDirectory
  | .inappropriateType _ 21 _ => .isDirectory
  | .invalidArgument _ 36 _ => .nameTooLong
  | .permissionDenied _ number text => .other number.toNat text
  | error => .other 5 (toString error)

def guarded {α : Type} (path : String) (action : IO α) : IO (Except FileFault α) := do
  try
    return .ok (← action)
  catch error =>
    return .error ⟨causeOf error, path⟩

def firstByte (path : String) : IO (Except FileFault ByteArray) :=
  guarded path do
    let handle ← IO.FS.Handle.mk path .read
    handle.read 1

/-- Whether a path is that of a directory: such a path opens, and refuses to be read. -/
def isFolder (path : String) : IO Bool := do
  match ← firstByte path with
  | .ok _ => return false
  | .error fault => return fault.cause = .isDirectory

def isTaken (path : String) : IO Bool := do
  match ← firstByte path with
  | .ok _ => return true
  | .error fault =>
    return fault.cause ≠ .notFound && fault.cause ≠ .notDirectory && fault.cause ≠ .nameTooLong

instance : FileStore IO where
  workingDirectory := return toString (← IO.currentDir)
  isPresent := isTaken
  isDirectory := isFolder
  read path := guarded path (IO.FS.readBinFile path)
  write path data := guarded path (IO.FS.writeBinFile path data)
  makeDirectory path := guarded path (IO.FS.createDir path)
  list path := throw (IO.userError ("cannot list the directory " ++ path))

end CompiledScript.Main

/-- Runs the tool, prints what it has to say, and ends with its exit status. -/
def main (arguments : List String) : IO UInt32 := do
  let environment : CompiledScript.Tool.Environment :=
    ⟨← IO.getEnv "GSC_HASH_DIR", ← IO.getEnv "GSC_OUTPUT_DIR"⟩
  let outcome ← CompiledScript.Tool.run environment arguments
  IO.print outcome.output
  for line in outcome.diagnostics do
    IO.eprintln line
  if let .aborted _ cause := outcome then IO.eprintln cause.message
  return outcome.status
