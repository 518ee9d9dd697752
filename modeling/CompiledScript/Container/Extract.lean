import CompiledScript.Container.Signature
import CompiledScript.Container.Unpack
import CompiledScript.Game

/-!
# Scripts in a payload

Compiled scripts lie in the payload of a container one after another, among other data. They are
found by the signature with which they start; the header of a script says how long it is and where
its name stands.
-/

namespace CompiledScript.Container

/-- A compiled script inside a payload. -/
structure EmbeddedScript where
  /-- The path under which the script was compiled. -/
  path : String
  data : ByteArray
  /-- The position in the payload. -/
  offset : Nat

namespace EmbeddedScript

/-- The name of the file for the compiled script: its path with a letter for "compiled". -/
def name (script : EmbeddedScript) : String :=
  script.path ++ "c"

open Text

def record (script : EmbeddedScript) : Record :=
  ⟨.debug, "Found " ++ script.path ++ " at " ++ Hex.offset script.offset ++ " ("
    ++ Hex.offset script.data.size ++ " bytes)"⟩

end EmbeddedScript

/-- Where the header of a script has its length. -/
def scriptSizeField : Int := 0x28

/-- Where the header of a script has the position of its name. -/
def scriptNameField : Int := 0x34

def embeddedAt (offset : Nat) : Reader.Action EmbeddedScript := do
  Reader.seek (offset + scriptSizeField)
  let size ← Reader.u32
  Reader.seek (offset + scriptNameField)
  let namePosition ← Reader.u16
  let path ← Reader.peekText (offset + namePosition)
  Reader.seek offset
  let data ← Reader.bytes size
  return ⟨path, data, offset⟩

/-- The scripts that were cut out, and the fault that ended this early, if any. -/
structure Extraction where
  scripts : List EmbeddedScript
  fault : Option Fault

namespace Extraction

def result (extraction : Extraction) : Except Fault (List EmbeddedScript) :=
  match extraction.fault with
  | none => .ok extraction.scripts
  | some fault => .error fault

def records (extraction : Extraction) : List Record :=
  extraction.scripts.map EmbeddedScript.record

end Extraction

/-- Cuts out the scripts at some offsets, one after another, up to the first fault. -/
def extractAt (payload : ByteArray) : List Nat → Extraction
  | [] => ⟨[], none⟩
  | offset :: rest =>
    match embeddedAt offset (Reader.ofBytes .little payload) with
    | .error fault _ => ⟨[], some fault⟩
    | .ok script _ =>
      let others := extractAt payload rest
      ⟨script :: others.scripts, others.fault⟩

/-- Cuts all scripts of a game out of a payload. -/
def extract (tag : String) (payload : ByteArray) : Extraction :=
  match Game.ofTag? tag with
  | none => ⟨[], some (.noScriptSignature tag)⟩
  | some game => extractAt payload (occurrences payload game.signature)

/-- Unpacks a container and cuts out its scripts, with what happened on the way. -/
def scripts (tag : String) (data : ByteArray) :
    List Record × Except Fault (List EmbeddedScript) :=
  let (events, payload) := unpack data
  let records := events.toList.map UnpackEvent.record
  match payload with
  | .error fault => (records, .error fault)
  | .ok payload =>
    let extraction := extract tag payload
    (records ++ extraction.records, extraction.result)

end CompiledScript.Container
