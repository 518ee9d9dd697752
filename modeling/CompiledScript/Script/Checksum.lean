import CompiledScript.Bytes.Crc32
import CompiledScript.Bytes.Window
import CompiledScript.Fault

/-!
# The extent of a function

A script stores where the code of a function starts and the checksum of the code, but not its
length. The length is that of the shortest run of bytes from the start on that has the checksum.

The start is signed. A position below zero counts from the end of the data, as far as the data
reaches; the position `-1` and those before the data contribute no byte, but count for the length.
-/

namespace CompiledScript.Script

/-- The byte that a signed position contributes to a run. -/
def runByte? (data : ByteArray) (position : Int) : Option UInt8 :=
  (Bytes.window data position (position + 1))[0]?

def extendChecksum (data : ByteArray) (checksum : UInt32) (position : Int) : UInt32 :=
  match runByte? data position with
  | some byte => Bytes.Crc32.extend checksum byte
  | none => checksum

/-- The first position at or after `position` at which the running checksum becomes the wanted one. -/
def lastPosition? (data : ByteArray) (wanted : Int) (running : UInt32) (position : Int) :
    Option Int :=
  if position < data.size then
    let next := extendChecksum data running position
    if (next.toNat : Int) = wanted then some position
    else lastPosition? data wanted next (position + 1)
  else none
  termination_by (data.size - position).toNat

/-- The length of the shortest run of code from `start` on with the given checksum. Positions before
the data leave the checksum of the empty run, zero, as it is, so they are passed over at once unless
zero is the wanted one. -/
def codeSize (data : ByteArray) (start checksum : Int) : Except Fault Int :=
  let first := if start < -data.size ∧ checksum ≠ 0 then -(data.size : Int) else start
  match lastPosition? data checksum 0 first with
  | some last => .ok (last - start + 1)
  | none => .error (.checksumUnmatched checksum start)

end CompiledScript.Script
