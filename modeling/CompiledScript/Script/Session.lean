import CompiledScript.Script.Checksum
import CompiledScript.Script.Instructions
import CompiledScript.Log

/-!
# Decoding a script

A session is a script that is being decoded: a reader over its bytes, the names that its hashes get,
what has been decoded so far, and the index of its texts. The parts can be loaded one by one and
again; each step stores what it finds as it goes, so a step that fails leaves the entries in front
of the fault in place.
-/

namespace CompiledScript

/-- What happens while a script is decoded. -/
inductive ScriptEvent (ν : Type) where
  | decoded (module name : ν) (offset size : Int) (count : Nat)
  | loaded (path : String) (exports imports strings : Nat)

namespace ScriptEvent

def map {ν μ : Type} (f : ν → μ) : ScriptEvent ν → ScriptEvent μ
  | .decoded module name offset size count => .decoded (f module) (f name) offset size count
  | .loaded path exports imports strings => .loaded path exports imports strings

open Text

def record : ScriptEvent String → Record
  | .decoded module name offset size count =>
    ⟨.debug, "Decoded " ++ module ++ "::" ++ name ++ " at " ++ Hex.offset offset ++ ": "
      ++ Hex.offset size ++ " bytes, " ++ toString count ++ " instructions"⟩
  | .loaded path exports imports strings =>
    ⟨.debug, "Loaded " ++ path ++ s!": {exports} exports, {imports} imports, {strings} strings"⟩

end ScriptEvent

/-- A script that is being decoded. -/
structure Session (ν : Type) where
  names : Symbol → ν
  reader : Reader
  script : Script ν
  index : StringIndex := ∅
  events : Array (ScriptEvent ν) := #[]

namespace Session

variable {ν : Type}

abbrev Action (ν : Type) := EStateM Fault (Session ν)

/-- A session over the bytes of a script, with nothing decoded. -/
def ofBytes (names : Symbol → ν) (game : Game) (data : ByteArray) : Session ν where
  names := names
  reader := Reader.ofBytes .little data
  script := { game := game }

def close (session : Session ν) : Session ν :=
  { session with reader := session.reader.close }

/-- The entry that the string table gives to a place in the code. -/
def string? (session : Session ν) (reference : Int) : Option StringEntry :=
  session.index[reference]?

def reading {α : Type} (action : Reader.Action α) : Action ν α := fun session ↦
  match action session.reader with
  | .ok value reader => .ok value { session with reader := reader }
  | .error fault reader => .error fault { session with reader := reader }

def update (change : Script ν → Script ν) : Action ν Unit :=
  modify fun session ↦ { session with script := change session.script }

def report (event : ScriptEvent ν) : Action ν Unit :=
  modify fun session ↦ { session with events := session.events.push event }

def header : Action ν Header := do
  return (← get).script.header

def times : Nat → Action ν Unit → Action ν Unit
  | 0, _ => return ()
  | count + 1, step => do
    step
    times count step

/-- The size of a header, which starts with the signature. -/
def headerSize : Int := 0x48

def readHeader : Reader.Action Header := do
  Reader.seek 8
  let sourceChecksum ← Reader.u32
  let includeTable ← Reader.i32
  let animTreeTable ← Reader.i32
  let byteCode ← Reader.i32
  let stringTable ← Reader.i32
  let debugStringTable ← Reader.i32
  let exportTable ← Reader.i32
  let importTable ← Reader.i32
  let fixupTable ← Reader.i32
  let profileTable ← Reader.i32
  let byteCodeSize ← Reader.i32
  let nameOffset ← Reader.u16
  let stringCount ← Reader.u16
  let exportCount ← Reader.u16
  let importCount ← Reader.u16
  let fixupCount ← Reader.u16
  let profileCount ← Reader.u16
  let debugStringCount ← Reader.u16
  let includeCount ← Reader.u8
  let animTreeCount ← Reader.u8
  let flags ← Reader.u32
  return {
    sourceChecksum, includeTable, animTreeTable, byteCode, stringTable, debugStringTable,
    exportTable, importTable, fixupTable, profileTable, byteCodeSize, nameOffset, stringCount,
    exportCount, importCount, fixupCount, profileCount, debugStringCount, includeCount,
    animTreeCount, flags }

def loadHeader : Action ν Unit := do
  let header ← reading readHeader
  update ({ · with header := header })
  let path ← reading (Reader.peekText header.nameOffset)
  update ({ · with path := path })
  reading (Reader.seek headerSize)

/-- Loads the paths of the included scripts, sorted. -/
def loadIncludes : Action ν Unit := do
  let header ← header
  reading (Reader.seek header.includeTable)
  let paths ← reading <| Reader.repeated header.includeCount do Reader.peekText (← Reader.i32)
  update ({ · with includes := paths.mergeSort fun a b ↦ a ≤ b })

/-- Reads the places that cite a text, behind their number and a byte without a meaning here. -/
def readReferences : Reader.Action (List Int) := do
  let count ← Reader.u8
  Reader.skip 1
  Reader.repeated count Reader.i32

def readString : Reader.Action StringEntry := do
  let offset ← Reader.u16
  let references ← readReferences
  let text ← Reader.peekText offset
  return ⟨offset, text, references⟩

/-- The text in the place of a debug string, whose own text is not part of a script. -/
def debugText : String := "Dev Block strings are not supported"

def readDebugString : Reader.Action StringEntry := do
  let offset ← Reader.i16
  let references ← readReferences
  return ⟨offset, debugText, references⟩

/-- Reads an entry with the given action and stores it behind the others. -/
def loadString (action : Reader.Action StringEntry) : Action ν Unit := do
  let entry ← reading action
  update fun script ↦ { script with strings := script.strings.push entry }

/-- Loads the string table and, behind its entries, the debug string table. -/
def loadStrings : Action ν Unit := do
  update ({ · with strings := #[] })
  let header ← header
  reading (Reader.seek header.stringTable)
  times header.stringCount (loadString readString)
  reading (Reader.seek header.debugStringTable)
  times header.debugStringCount (loadString readDebugString)

/-- Gives an entry to each place that it cites, unless the place has one already. -/
def indexEntry (index : StringIndex) (entry : StringEntry) : StringIndex :=
  entry.references.foldl (fun index reference ↦ index.insertIfNew reference entry) index

/-- The index of a list of entries, in which earlier entries come first. -/
def indexOf (entries : Array StringEntry) : StringIndex :=
  entries.foldl indexEntry ∅

def indexStrings : Action ν Unit :=
  modify fun session ↦ { session with index := indexOf session.script.strings }

def readImport (names : Symbol → ν) : Reader.Action (Import ν) := do
  let name ← Reader.u32
  let module ← Reader.u32
  let count ← Reader.i16
  let parameterCount ← Reader.u8
  Reader.skip 1
  let references ← Reader.repeated count.toNat Reader.i32
  return ⟨names ⟨.function, name⟩, names ⟨.module, module⟩, parameterCount, references⟩

def loadImport : Action ν Unit := do
  let entry ← reading (readImport (← get).names)
  update fun script ↦ { script with imports := script.imports.push entry }

def loadImports : Action ν Unit := do
  update ({ · with imports := #[] })
  let header ← header
  reading (Reader.seek header.importTable)
  times header.importCount loadImport

/-- Reads an entry of the export table, without the code that it points to. -/
def readExport (names : Symbol → ν) : Reader.Action (Export ν) := do
  let checksum ← Reader.u32
  let offset ← Reader.i32
  let name ← Reader.u32
  let module ← Reader.u32
  let parameterCount ← Reader.u8
  let flags ← Reader.u8
  Reader.skip 2
  return {
    checksum, offset, parameterCount, flags
    name := names ⟨.function, name⟩
    module := names ⟨.module, module⟩
    size := -1
    instructions := #[] }

/-- The length of the code of a function, by its checksum. -/
def readCodeSize (function : Export ν) : Reader.Action Int := do
  match Script.codeSize (← Reader.buffer) function.offset function.checksum with
  | .ok size => return size
  | .error fault => throw fault

def readCode (names : Symbol → ν) (index : StringIndex) (function : String) (offset size : Int) :
    Reader.Action (Array (Instruction ν)) := fun r ↦
  match Script.functionCode names index function offset size r with
  | .ok instructions r => .ok instructions r
  | .error interrupted r => .error interrupted.fault r

/-- Loads an entry of the export table with its code, and goes back to the table. -/
def loadExport [ToString ν] : Action ν Unit := do
  let entry ← reading (readExport (← get).names)
  let next := (← get).reader.position
  let size ← reading (readCodeSize entry)
  let session ← get
  let instructions ←
    reading (readCode session.names session.index (toString entry.name) entry.offset size)
  report (.decoded entry.module entry.name entry.offset size instructions.size)
  reading (Reader.seek next)
  let function := { entry with size := size, instructions := instructions }
  update fun script ↦ { script with exports := script.exports.push function }

def loadExports [ToString ν] : Action ν Unit := do
  update ({ · with exports := #[] })
  let header ← header
  reading (Reader.seek header.exportTable)
  times header.exportCount loadExport

def load [ToString ν] : Action ν Unit := do
  loadHeader
  loadIncludes
  loadStrings
  indexStrings
  loadImports
  loadExports
  let script := (← get).script
  report (.loaded script.path script.exports.size script.imports.size script.strings.size)

end Session
end CompiledScript
