import CompiledScript.Text.Quoted

/-!
# Faults of files

Why an operation on files failed, with the path that it was given. The numbers and the words are
those of the operating system.
-/

namespace CompiledScript

/-- Why an operation on files failed. -/
inductive FileCause where
  | notFound
  | alreadyExists
  | notDirectory
  | isDirectory
  | nameTooLong
  /-- The path has a zero character, so that no file can have this path. -/
  | zeroInPath
  | other (number : Nat) (text : String)
  deriving DecidableEq

namespace FileCause

def number : FileCause → Nat
  | .notFound => 2
  | .alreadyExists => 17
  | .notDirectory => 20
  | .isDirectory => 21
  | .nameTooLong => 36
  | .zeroInPath => 22
  | .other number _ => number

def text : FileCause → String
  | .notFound => "No such file or directory"
  | .alreadyExists => "File exists"
  | .notDirectory => "Not a directory"
  | .isDirectory => "Is a directory"
  | .nameTooLong => "File name too long"
  | .zeroInPath => "Invalid argument"
  | .other _ text => text

end FileCause

structure FileFault where
  cause : FileCause
  path : String

def FileFault.message (fault : FileFault) : String :=
  s!"[Errno {fault.cause.number}] " ++ fault.cause.text ++ ": " ++ Text.Quoted.quote fault.path

/-- Whether the fault is one of the request and not of the files. Whoever goes on after other faults
stops at this one. -/
def FileFault.isFatal (fault : FileFault) : Bool :=
  fault.cause = .zeroInPath

end CompiledScript
