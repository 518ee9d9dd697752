import CompiledScript.Files.Store
import CompiledScript.Script.Load

/-!
# Many scripts

A batch loads script files one after another. A file that fails is noted by its name and does not
keep the others from being loaded. Only a fatal fault ends the batch: that of a path that no file
can have, or of a reader that is used where it must not be.
-/

namespace CompiledScript

/-- Why a script file could not be loaded. -/
inductive ScriptFault where
  | file (fault : FileFault)
  | data (fault : Fault)

def ScriptFault.message : ScriptFault → String
  | .file fault => fault.message
  | .data fault => fault.message

/-- Whether the fault lies neither with the files nor with their bytes. -/
def ScriptFault.isFatal : ScriptFault → Bool
  | .file fault => fault.isFatal
  | .data fault => fault.isFatal

structure LoadResult where
  path : String
  outcome : Except ScriptFault (Script String)

/-- The setting of a batch, and the files that have failed so far, by name. -/
structure Batch where
  context : NameContext
  tag : Option String
  failures : List (String × ScriptFault)

namespace Batch

variable {m : Type → Type} [Monad m] [FileStore m]

def loadScript (context : NameContext) (tag : Option String) (path : String) :
    m (Except ScriptFault (Script String)) := do
  match ← FileStore.read path with
  | .error fault => return .error (.file fault)
  | .ok data => return (Script.load context tag data).result.mapError .data

def note (batch : Batch) (result : LoadResult) : Batch :=
  match result.outcome with
  | .ok _ => batch
  | .error fault => { batch with failures := batch.failures ++ [(Path.base result.path, fault)] }

def fatal? : Except ScriptFault (Script String) → Option ScriptFault
  | .error fault => if fault.isFatal then some fault else none
  | .ok _ => none

/-- Loads a file of a batch, unless there is a fatal fault. -/
def loadFile (batch : Batch) (path : String) : m (Except ScriptFault (LoadResult × Batch)) := do
  let result : LoadResult := ⟨path, ← loadScript batch.context batch.tag path⟩
  match fatal? result.outcome with
  | some fault => return .error fault
  | none => return .ok (result, batch.note result)

/-- Loads the files of a batch in order, up to a fatal fault. -/
def loadFiles (batch : Batch) : List String → m (Except ScriptFault (List LoadResult × Batch))
  | [] => return .ok ([], batch)
  | path :: rest => do
    match ← batch.loadFile path with
    | .error fault => return .error fault
    | .ok (result, batch) =>
      let others ← batch.loadFiles rest
      return others.map fun (results, batch) ↦ (result :: results, batch)

end Batch
end CompiledScript
