import CompiledScript.Deflate.Inflate
import CompiledScript.Log
import CompiledScript.Reader.Forward

/-!
# Unpacking a container

A container starts with a signature, a version and four flag bytes, and states further on how many
bytes its payload has. The payload is cut into blocks, each deflated on its own. A block header gives
the compressed size, the size of what is inflated, the size of the block and the position of the
header itself. A block that inflates to nothing is padding, up to the next multiple of `0x80000`.

Blocks are read until the sizes that their headers announce make up the stated size. Every block is
read forward from its own header, so this comes to an end whatever the stated size is.
-/

namespace CompiledScript.Container

/-- What happens while a container is unpacked. -/
inductive UnpackEvent where
  | padding (position count : Int)
  | inflated (position compressed : Int) (size : Nat)
  | unpacked (size : Nat)

namespace UnpackEvent

open Text

def record : UnpackEvent → Record
  | .padding position count =>
    ⟨.debug, "Padding block at " ++ Hex.offset position ++ ", skipping " ++ Hex.offset count
      ++ " bytes"⟩
  | .inflated position compressed size =>
    ⟨.debug, "Inflated block at " ++ Hex.offset position ++ ": " ++ Hex.offset compressed ++ " -> "
      ++ Hex.offset size ++ " bytes"⟩
  | .unpacked size => ⟨.debug, "Decoded fast file: " ++ Hex.offset size ++ " bytes"⟩

end UnpackEvent

/-- The bytes with which a container starts, `TAff0000`. -/
def signature : ByteArray :=
  ⟨#[0x54, 0x41, 0x66, 0x66, 0x30, 0x30, 0x30, 0x30]⟩

def version : Nat := 0x25E

def sizePosition : Int := 0x90

def firstBlock : Int := 0x248

def headerSize : Int := 16

/-- Padding ends at multiples of this number. -/
def blockBoundary : Int := 0x80000

/-- Checks the flag bytes: the method of compression, the platform and the encryption. -/
def checkFlags (flags : ByteArray) : Reader.Action Unit :=
  if flags[1]? ≠ some 1 then throw .containerCompression
  else if flags[2]? ≠ some 4 then throw .containerPlatform
  else if flags[3]? ≠ some 0 then throw .containerEncrypted
  else return ()

/-- Reads what stands in front of the blocks, and yields the stated size of the payload. -/
def opening : Reader.Action Int := do
  let found ← Reader.bytes signature.size
  if found.data ≠ signature.data then throw .containerSignature
  else do
    let foundVersion ← Reader.u32
    if foundVersion ≠ version then throw (.containerVersion foundVersion)
    else do
      checkFlags (← Reader.bytes 4)
      Reader.seek sizePosition
      let size ← Reader.i64
      Reader.seek firstBlock
      return size

/-- The four numbers in front of a block. -/
structure BlockHeader where
  compressed : Int
  decompressed : Int
  size : Int
  position : Int

def blockHeader : Reader.Action BlockHeader := do
  let compressed ← Reader.i32
  let decompressed ← Reader.i32
  let size ← Reader.i32
  let position ← Reader.i32
  return ⟨compressed, decompressed, size, position⟩

/-- A block without what is left to pass over behind it. -/
inductive Block where
  | padding (position count : Int)
  | data (header : BlockHeader) (bytes : ByteArray)

namespace Block

/-- The size that a block announces for its part of the payload. -/
def announced : Block → Int
  | .padding _ _ => 0
  | .data header _ => header.decompressed

/-- The part of the payload that a block holds. -/
def payload : Block → ByteArray
  | .padding _ _ => ByteArray.empty
  | .data _ bytes => bytes

def event : Block → UnpackEvent
  | .padding position count => .padding position count
  | .data header bytes => .inflated header.position header.compressed bytes.size

def leave : Block → Reader.Action Unit
  | .padding _ count => Reader.skip count
  | .data header _ => Reader.seek (header.position + header.size + headerSize)

end Block

/-- Reads the compressed bytes of a block and inflates them. -/
def dataBlock (header : BlockHeader) : Reader.Action Block :=
  if header.size < header.compressed then
    throw (.blockTooSmall header.position header.size header.compressed)
  else do
    let stream ← Reader.bytes header.compressed
    match Deflate.inflate stream with
    | .ok bytes => return .data header bytes
    | .error cause => throw (.badStream cause)

def block : Reader.Action Block := do
  let header ← blockHeader
  let stop := (← get).position
  if header.position ≠ stop - headerSize then
    throw (.blockMisplaced header.position (stop - headerSize))
  else if header.compressed < 0 ∨ header.decompressed < 0 then
    throw (.blockNegative header.position)
  else if header.decompressed = 0 then
    return .padding header.position (paddingTo stop blockBoundary)
  else dataBlock header

def bytesLeft (r : Reader) : Nat :=
  match r.contents with
  | some data => (data.size - r.position).toNat
  | none => 0

theorem position_of_blockHeader_eq_ok {r r' : Reader} {header : BlockHeader}
    (h : blockHeader r = .ok header r') :
    ∃ data : ByteArray, r.contents = some data ∧ r.position + headerSize ≤ data.size ∧
      r' = { r with position := r.position + headerSize } := by
  obtain ⟨_, _, h₁, h⟩ := bind_eq_ok.1 h
  obtain ⟨_, _, h₂, h⟩ := bind_eq_ok.1 h
  obtain ⟨_, _, h₃, h⟩ := bind_eq_ok.1 h
  obtain ⟨_, _, h₄, h⟩ := bind_eq_ok.1 h
  cases h
  obtain ⟨_, _, _, _, rfl⟩ := Reader.position_of_signed_eq_ok h₁
  obtain ⟨_, _, _, _, rfl⟩ := Reader.position_of_signed_eq_ok h₂
  obtain ⟨_, _, _, _, rfl⟩ := Reader.position_of_signed_eq_ok h₃
  obtain ⟨data, hdata, _, hinside, rfl⟩ := Reader.position_of_signed_eq_ok h₄
  refine ⟨data, hdata, ?_, ?_⟩
  · show r.position + 16 ≤ _
    simp only at hinside
    omega
  · congr 1
    show _ = r.position + 16
    simp only
    omega

/-- A data block names its own position, and is not smaller than its compressed data. -/
theorem eq_of_dataBlock_eq_ok {header : BlockHeader} {r r' : Reader} {b : Block}
    (h : dataBlock header r = .ok b r') :
    header.compressed ≤ header.size ∧ r'.contents = r.contents ∧ ∃ bytes, b = .data header bytes := by
  unfold dataBlock at h
  split at h
  · cases h
  · rename_i hsize
    obtain ⟨stream, middle, hbytes, h⟩ := bind_eq_ok.1 h
    obtain ⟨_, _, _, _, _, rfl⟩ := Reader.bytes_eq_ok.1 hbytes
    cases hinflate : Deflate.inflate stream with
    | ok bytes =>
      rw [hinflate] at h
      cases h
      exact ⟨by omega, rfl, _, rfl⟩
    | error cause =>
      rw [hinflate] at h
      cases h

/-- Reading a block takes at least its header, and the next header lies behind it. -/
theorem bytesLeft_lt {r middle next : Reader} {b : Block} {value : Unit}
    (hblock : block r = .ok b middle) (hleave : b.leave middle = .ok value next) :
    bytesLeft next < bytesLeft r := by
  obtain ⟨header, behind, hheader, h⟩ := bind_eq_ok.1 hblock
  obtain ⟨data, hdata, hinside, rfl⟩ := position_of_blockHeader_eq_ok hheader
  obtain ⟨state, same, hget, h⟩ := bind_eq_ok.1 h
  cases hget
  have hheaderSize : headerSize = 16 := rfl
  have hleft : bytesLeft r = (data.size - r.position).toNat := by simp only [bytesLeft, hdata]
  split at h
  · cases h
  · rename_i hposition
    split at h
    · cases h
    · rename_i hsizes
      split at h
      · cases h
        obtain ⟨_, hcontents, _, hnext, rfl⟩ := Reader.skip_eq_ok.1 hleave
        have hcount : 0 ≤ paddingTo (r.position + headerSize) blockBoundary :=
          Reader.paddingTo_nonneg (by decide)
        simp only [hdata, Option.some.injEq] at hcontents hnext
        subst hcontents
        simp only [bytesLeft, hdata]
        omega
      · obtain ⟨hfits, hkept, bytes, rfl⟩ := eq_of_dataBlock_eq_ok h
        obtain ⟨_, hcontents, _, hnext, rfl⟩ := Reader.seek_eq_ok.1 hleave
        simp only [hkept, hdata, Option.some.injEq] at hcontents hposition
        subst hcontents
        simp only [bytesLeft, hkept, hdata]
        omega

/-- A container that is being unpacked: where the reader is, the size that the blocks so far have
announced, and what they hold. -/
structure Unpacking where
  reader : Reader
  announced : Int
  payload : ByteArray
  events : Array UnpackEvent

def Unpacking.add (state : Unpacking) (b : Block) (next : Reader) : Unpacking where
  reader := next
  announced := state.announced + b.announced
  payload := state.payload ++ b.payload
  events := state.events.push b.event

set_option linter.unusedVariables false in
/-- Reads blocks until they make up the stated size. -/
def unpackBlocks (stated : Int) (state : Unpacking) :
    Array UnpackEvent × Except Fault ByteArray :=
  if state.announced < stated then
    match hblock : block state.reader with
    | .error fault _ => (state.events, .error fault)
    | .ok b middle =>
      match hleave : b.leave middle with
      | .error fault _ => (state.events.push b.event, .error fault)
      | .ok _ next => unpackBlocks stated (state.add b next)
  else (state.events.push (.unpacked state.payload.size), .ok state.payload)
  termination_by bytesLeft state.reader
  decreasing_by exact bytesLeft_lt hblock hleave

/-- The payload of a container, with what happened while it was unpacked. -/
def unpack (data : ByteArray) : Array UnpackEvent × Except Fault ByteArray :=
  match opening (Reader.ofBytes .little data) with
  | .error fault _ => (#[], .error fault)
  | .ok stated reader => unpackBlocks stated ⟨reader, 0, ByteArray.empty, #[]⟩

end CompiledScript.Container
