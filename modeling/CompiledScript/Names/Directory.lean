import CompiledScript.Files.Store
import CompiledScript.Game
import CompiledScript.Names.Text

/-!
# Directories of name tables

The name tables of the games lie in one directory, each in a file named for the tag of its game.
The directory is the one that is asked for, else the one that the environment names, else the
working directory.
-/

namespace CompiledScript.Names

/-- Why a table in a file cannot be read. -/
inductive LoadFault where
  | file (fault : FileFault)
  | text (piece : Text.Utf8.Malformed)

def LoadFault.message : LoadFault → String
  | .file fault => fault.message
  | .text piece => piece.message

def tableFile (game : Game) : String :=
  game.tag ++ ".txt"

def directoryPath {m : Type → Type} [Monad m] [FileStore m] (asked environment : Option String) :
    m String :=
  match asked, environment with
  | some path, _ => return path
  | none, some path => return path
  | none, none => FileStore.workingDirectory

/-- Reads the tables of some games from a directory. A game without a file has no table. -/
def loadTables {m : Type → Type} [Monad m] [FileStore m] (directory : String) :
    List Game → m (List TableEvent × Except LoadFault (List (String × NameTable)))
  | [] => return ([], .ok [])
  | game :: rest => do
    let path := Path.join directory (tableFile game)
    if ← FileStore.isPresent path then
      match ← FileStore.read path with
      | .error fault => return ([], .error (.file fault))
      | .ok data =>
        match readTable path data with
        | .error piece => return ([], .error (.text piece))
        | .ok (events, table) =>
          let (others, tables) ← loadTables directory rest
          return (events ++ others, tables.map ((game.tag, table) :: ·))
    else
      let (others, tables) ← loadTables directory rest
      return (.missing game.tag path :: others, tables)

/-- Reads the tables of all games, with what happened on the way. -/
def loadContext {m : Type → Type} [Monad m] [FileStore m] (asked environment : Option String) :
    m (List TableEvent × Except LoadFault NameContext) := do
  let directory ← directoryPath asked environment
  let (events, tables) ← loadTables directory Game.all
  return (events, tables.map NameContext.mk)

end CompiledScript.Names
