import CompiledScript.Proofs.Reader.Reads
import CompiledScript.Proofs.Script.CodeSize
import CompiledScript.Proofs.Text.Utf8Encoding
import CompiledScript.Script.Session

/-!
# The stored form of a script

The records of the tables of a script as they are written, with the bytes that no loader looks at,
and what a buffer has to hold so that it is the stored form of a script. The tables may stand in any
order, leave bytes between each other or share them: all that is said about a buffer is which runs
it holds at which offsets.

Beside each record stands its bytes and what is loaded from them. The ranges of the fields are those
of the machine integers, and the limits on the lengths of lists are part of the records.
-/

namespace CompiledScript.Stored

open Bytes Number

/-- A text that a zero byte can end. -/
structure Text where
  content : String
  unbroken : '\x00' ∉ content.toList

/-- The bytes of a text with the zero byte behind them. -/
def Text.code (text : Text) : List UInt8 :=
  Text.Utf8.encode text.content ++ [0]

/-- The path of an included script, by its offset. -/
structure Include where
  pointer : Int32
  path : Text

def Include.code (record : Include) : List UInt8 :=
  toLittleEndian 4 record.pointer.toInt

/-- Places in the code, one after another. -/
def places (references : List Int32) : List UInt8 :=
  references.flatMap fun reference ↦ toLittleEndian 4 reference.toInt

/-- The places that cite a text, with the byte that is passed over behind their number. -/
structure References where
  unread : UInt8
  list : List Int32
  short : list.length ≤ 255

def References.code (references : References) : List UInt8 :=
  [toLittleEndian 1 references.list.length, [references.unread], places references.list].flatten

def References.decoded (references : References) : List Int :=
  references.list.map Int32.toInt

/-- A text that the code uses. -/
structure LiveString where
  offset : UInt16
  text : Text
  references : References

def LiveString.code (record : LiveString) : List UInt8 :=
  [toLittleEndian 2 record.offset.toNat, record.references.code].flatten

def LiveString.decoded (record : LiveString) : StringEntry :=
  ⟨record.offset.toNat, record.text.content, record.references.decoded⟩

/-- A text of a development block, which is not stored itself. -/
structure DebugString where
  offset : Int16
  references : References

def DebugString.code (record : DebugString) : List UInt8 :=
  [toLittleEndian 2 record.offset.toInt, record.references.code].flatten

def DebugString.decoded (record : DebugString) : StringEntry :=
  ⟨record.offset.toInt, "Dev Block strings are not supported", record.references.decoded⟩

/-- A function of another script. The number of its references is a signed field. -/
structure Import where
  name : UInt32
  module : UInt32
  parameterCount : UInt8
  unread : UInt8
  references : List Int32
  short : references.length < 0x8000

def Import.code (record : Import) : List UInt8 :=
  [toLittleEndian 4 record.name.toNat, toLittleEndian 4 record.module.toNat,
    toLittleEndian 2 record.references.length, toLittleEndian 1 record.parameterCount.toNat,
    [record.unread], places record.references].flatten

def Import.decoded (record : Import) : CompiledScript.Import Symbol where
  name := ⟨.function, record.name.toNat⟩
  module := ⟨.module, record.module.toNat⟩
  parameterCount := record.parameterCount.toNat
  references := record.references.map Int32.toInt

/-- A function of the script, with the size of its code and what the code says. -/
structure Export where
  checksum : UInt32
  offset : Int32
  name : UInt32
  module : UInt32
  parameterCount : UInt8
  flags : UInt8
  unread : UInt8 × UInt8
  size : Nat
  instructions : Array (Instruction Symbol)

def Export.code (record : Export) : List UInt8 :=
  [toLittleEndian 4 record.checksum.toNat, toLittleEndian 4 record.offset.toInt,
    toLittleEndian 4 record.name.toNat, toLittleEndian 4 record.module.toNat,
    toLittleEndian 1 record.parameterCount.toNat, toLittleEndian 1 record.flags.toNat,
    [record.unread.1, record.unread.2]].flatten

def Export.decoded (record : Export) : CompiledScript.Export Symbol where
  checksum := record.checksum.toNat
  offset := record.offset.toInt
  name := ⟨.function, record.name.toNat⟩
  module := ⟨.module, record.module.toNat⟩
  parameterCount := record.parameterCount.toNat
  flags := record.flags.toNat
  size := record.size
  instructions := record.instructions

/-- The code of a function is the shortest run at its offset with its checksum, and is decoded into
its instructions when the texts are those of the index. -/
structure Export.HasCode (data : ByteArray) (index : StringIndex) (record : Export) : Prop where
  shortest : Script.IsShortestRun data record.offset.toInt.toNat record.checksum.toNat record.size
  decoded : ∃ position last,
    Script.functionCode id index (NameTable.nameOf ∅ ⟨.function, record.name.toNat⟩)
      record.offset.toInt record.size (Reader.readerAt data position) = .ok record.instructions last

/-- The fields of a header lie in their ranges. -/
structure HeaderFits (header : Header) : Prop where
  sourceChecksum : FitsUnsigned 4 header.sourceChecksum
  includeTable : FitsSigned 4 header.includeTable
  animTreeTable : FitsSigned 4 header.animTreeTable
  byteCode : FitsSigned 4 header.byteCode
  stringTable : FitsSigned 4 header.stringTable
  debugStringTable : FitsSigned 4 header.debugStringTable
  exportTable : FitsSigned 4 header.exportTable
  importTable : FitsSigned 4 header.importTable
  fixupTable : FitsSigned 4 header.fixupTable
  profileTable : FitsSigned 4 header.profileTable
  byteCodeSize : FitsSigned 4 header.byteCodeSize
  nameOffset : FitsUnsigned 2 header.nameOffset
  stringCount : FitsUnsigned 2 header.stringCount
  exportCount : FitsUnsigned 2 header.exportCount
  importCount : FitsUnsigned 2 header.importCount
  fixupCount : FitsUnsigned 2 header.fixupCount
  profileCount : FitsUnsigned 2 header.profileCount
  debugStringCount : FitsUnsigned 2 header.debugStringCount
  includeCount : FitsUnsigned 1 header.includeCount
  animTreeCount : FitsUnsigned 1 header.animTreeCount
  flags : FitsUnsigned 4 header.flags

def headerCode (header : Header) : List UInt8 :=
  [toLittleEndian 4 header.sourceChecksum, toLittleEndian 4 header.includeTable,
    toLittleEndian 4 header.animTreeTable, toLittleEndian 4 header.byteCode,
    toLittleEndian 4 header.stringTable, toLittleEndian 4 header.debugStringTable,
    toLittleEndian 4 header.exportTable, toLittleEndian 4 header.importTable,
    toLittleEndian 4 header.fixupTable, toLittleEndian 4 header.profileTable,
    toLittleEndian 4 header.byteCodeSize, toLittleEndian 2 header.nameOffset,
    toLittleEndian 2 header.stringCount, toLittleEndian 2 header.exportCount,
    toLittleEndian 2 header.importCount, toLittleEndian 2 header.fixupCount,
    toLittleEndian 2 header.profileCount, toLittleEndian 2 header.debugStringCount,
    toLittleEndian 1 header.includeCount, toLittleEndian 1 header.animTreeCount,
    toLittleEndian 4 header.flags].flatten

structure Tables where
  header : Header
  path : Text
  includes : List Include
  strings : List LiveString
  debugStrings : List DebugString
  imports : List Import
  exports : List Export

namespace Tables

/-- The entries for the texts, those of development blocks behind the others. -/
def entries (tables : Tables) : Array StringEntry :=
  (tables.strings.map LiveString.decoded ++ tables.debugStrings.map DebugString.decoded).toArray

/-- The script that is loaded, for a given order of the included paths. -/
def script (tables : Tables) (includes : List String) : Script Symbol where
  game := .blackOps3
  header := tables.header
  path := tables.path.content
  includes := includes
  strings := tables.entries
  imports := (tables.imports.map Import.decoded).toArray
  exports := (tables.exports.map Export.decoded).toArray

/-- The buffer starts with the signature and the header, holds the tables where the header says, and
the texts and the code where the tables say. -/
structure StoredIn (data : ByteArray) (tables : Tables) : Prop where
  signature : Holds data 0 [0x80, 0x47, 0x53, 0x43, 0x0D, 0x0A, 0x00, 0x03]
  headerFits : HeaderFits tables.header
  header : Holds data 8 (headerCode tables.header)
  path : Holds data tables.header.nameOffset tables.path.code
  includeCount : tables.header.includeCount = tables.includes.length
  includes : Holds data tables.header.includeTable (tables.includes.flatMap Include.code)
  includePaths : ∀ record ∈ tables.includes, Holds data record.pointer.toInt record.path.code
  stringCount : tables.header.stringCount = tables.strings.length
  strings : Holds data tables.header.stringTable (tables.strings.flatMap LiveString.code)
  texts : ∀ record ∈ tables.strings, Holds data record.offset.toNat record.text.code
  debugStringCount : tables.header.debugStringCount = tables.debugStrings.length
  debugStrings : Holds data tables.header.debugStringTable
    (tables.debugStrings.flatMap DebugString.code)
  importCount : tables.header.importCount = tables.imports.length
  imports : Holds data tables.header.importTable (tables.imports.flatMap Import.code)
  exportCount : tables.header.exportCount = tables.exports.length
  exports : Holds data tables.header.exportTable (tables.exports.flatMap Export.code)
  code : ∀ record ∈ tables.exports, record.HasCode data (Session.indexOf tables.entries)

end Tables
end CompiledScript.Stored
