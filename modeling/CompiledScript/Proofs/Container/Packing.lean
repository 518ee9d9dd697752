import CompiledScript.Container.Unpack
import CompiledScript.Proofs.Reader.Fragment

/-!
# Packing a container

The writer that unpacking is measured against. A payload is cut into chunks, each stored as some
stream that inflates to it, with any number of bytes left over in its block. Padding blocks stand
between the chunks as one likes. All bytes that unpacking does not check come from a filler.
-/

namespace CompiledScript.Container

open Number Reader Fragment

/-- A block as it is stored. The sizes in the header of a padding block say nothing. -/
inductive Part where
  | padding (compressed size : Int32) (nonneg : 0 ≤ compressed.toInt)
  | chunk (content stream : List UInt8) (slack : Nat) (nonempty : content ≠ [])
      (inflates : Deflate.inflate ⟨stream.toArray⟩ = .ok ⟨content.toArray⟩)

/-- A block header, which ends with its own position. -/
def headerCode (header : BlockHeader) : List UInt8 :=
  [toLittleEndian 4 header.compressed, toLittleEndian 4 header.decompressed,
    toLittleEndian 4 header.size, toLittleEndian 4 header.position].flatten

namespace Part

def header : Part → Int → BlockHeader
  | padding compressed size _, position => ⟨compressed.toInt, 0, size.toInt, position⟩
  | chunk content stream slack _ _, position =>
    ⟨stream.length, content.length, stream.length + slack, position⟩

/-- What stands behind the header of a block. -/
def body (filler : Int → UInt8) : Part → Fragment
  | padding _ _ _ => Fragment.padding filler 0x80000
  | chunk _ stream slack _ _ => followedBy (fun _ ↦ stream) (unread filler slack)

def code (filler : Int → UInt8) (part : Part) : Fragment :=
  followedBy (fun position ↦ headerCode (part.header position)) (part.body filler)

def content : Part → List UInt8
  | padding _ _ _ => []
  | chunk content _ _ _ _ => content

/-- The position and the sizes of a block are not too large for their fields. -/
def Fits (position : Int) (part : Part) : Prop :=
  (part.header position).position < 0x80000000 ∧ (part.header position).size < 0x80000000 ∧
    (part.header position).decompressed < 0x80000000

end Part

/-- The blocks fit where they stand, one after another from a position on. -/
def AllFit (filler : Int → UInt8) : List Part → Int → Prop
  | [], _ => True
  | part :: rest, position =>
    part.Fits position ∧ AllFit filler rest (position + (part.code filler position).length)

/-- The payload that the blocks make up. -/
def contents (parts : List Part) : List UInt8 :=
  parts.flatMap Part.content

/-- What stands in front of the blocks, up to `0x248`: the signature `TAff0000`, the version, the
flags, and at `0x90` the size of the payload. -/
def openingCode (filler : Int → UInt8) (size : Int) : List UInt8 :=
  [[0x54, 0x41, 0x66, 0x66, 0x30, 0x30, 0x30, 0x30], toLittleEndian 4 0x25E, [filler 12, 1, 4, 0],
    unread filler 128 0x10, toLittleEndian 8 size, unread filler 432 0x98].flatten

/-- A container of the given blocks, with anything behind them. -/
def packed (filler : Int → UInt8) (parts : List Part) (trailing : List UInt8) : ByteArray :=
  ⟨(openingCode filler (contents parts).length ++ joined (Part.code filler) parts 0x248
    ++ trailing).toArray⟩

end CompiledScript.Container
