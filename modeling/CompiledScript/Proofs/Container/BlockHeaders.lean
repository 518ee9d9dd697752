import CompiledScript.Container.Unpack
import CompiledScript.Proofs.Reader.Reads

/-!
# The blocks that a buffer holds

Every number that unpacking acts on stands somewhere in the buffer. Here the stated size, the block
headers and the compressed streams are described as parts of the buffer, and what the steps of
unpacking yield is expressed by them. `BlockRead` says all that is known about a block once it has
been read and left: its header names its own position, the next header is linked to it, and the
payload of a data block is what its stream inflates to.
-/

namespace CompiledScript.Container

open Bytes Number Reader

def statedSize (data : ByteArray) : Int :=
  signedAt data 8 sizePosition

def headerAt (data : ByteArray) (position : Int) : BlockHeader where
  compressed := signedAt data 4 position
  decompressed := signedAt data 4 (position + 4)
  size := signedAt data 4 (position + 8)
  position := signedAt data 4 (position + 12)

/-- The position behind the compressed stream of the block at a position. -/
def streamStop (data : ByteArray) (position : Int) : Int :=
  position + headerSize + (headerAt data position).compressed

def streamAt (data : ByteArray) (position : Int) : ByteArray :=
  data.extract (position + headerSize).toNat (streamStop data position).toNat

/-- The header that follows the one at a position. Behind a padding block it stands at the next
multiple of the boundary, behind a data block at the end of the block. -/
def Linked (data : ByteArray) (position next : Int) : Prop :=
  if (headerAt data position).decompressed = 0 then
    aligned? (position + headerSize) blockBoundary = some next
  else next = position + headerSize + (headerAt data position).size

/-- A block between its header and the next one, where the reader is left. -/
structure BlockRead (data : ByteArray) (position : Int) (b : Block) (next : Int) : Prop where
  nonneg : 0 ≤ position
  own_position : (headerAt data position).position = position
  linked : Linked data position next
  advances : position + headerSize ≤ next
  inside : next ≤ data.size
  announced_eq : b.announced = (headerAt data position).decompressed
  padding : (headerAt data position).decompressed = 0 → b.payload = ByteArray.empty
  stream : (headerAt data position).decompressed ≠ 0 →
    0 ≤ (headerAt data position).compressed ∧ streamStop data position ≤ next ∧
      Deflate.inflate (streamAt data position) = .ok b.payload

variable {data : ByteArray} {position : Int} {r middle next : Reader}

theorem blockHeader_readerAt_eq_ok {header : BlockHeader}
    (h : blockHeader (readerAt data position) = .ok header r) :
    header = headerAt data position ∧ 0 ≤ position ∧ position + headerSize ≤ data.size ∧
      r = readerAt data (position + headerSize) := by
  obtain ⟨compressed, _, hcompressed, h⟩ := bind_eq_ok.1 h
  obtain ⟨rfl, hnonneg, _, rfl⟩ := signed_readerAt_eq_ok hcompressed
  obtain ⟨decompressed, _, hdecompressed, h⟩ := bind_eq_ok.1 h
  obtain ⟨rfl, _, _, rfl⟩ := signed_readerAt_eq_ok hdecompressed
  obtain ⟨size, _, hsize, h⟩ := bind_eq_ok.1 h
  obtain ⟨rfl, _, _, rfl⟩ := signed_readerAt_eq_ok hsize
  obtain ⟨own, _, hown, h⟩ := bind_eq_ok.1 h
  obtain ⟨rfl, _, hinside, rfl⟩ := signed_readerAt_eq_ok hown
  cases h
  have hthird : position + (4 : Nat) + (4 : Nat) = position + 8 := by omega
  have hfourth : position + 8 + (4 : Nat) = position + 12 := by omega
  have hstop : position + 12 + (4 : Nat) = position + headerSize := by
    change _ = position + 16
    omega
  rw [hthird, hfourth] at hinside ⊢
  rw [hstop] at hinside ⊢
  exact ⟨rfl, hnonneg, hinside, rfl⟩

theorem bytes_readerAt_eq_ok {count : Int} {found : ByteArray} (hposition : 0 ≤ position)
    (h : bytes count (readerAt data position) = .ok found r) :
    found = data.extract position.toNat (position + count).toNat ∧ position + count ≤ data.size ∧
      r = readerAt data (position + count) := by
  obtain ⟨_, hsame, hcount, hinside, rfl, rfl⟩ := bytes_eq_ok.1 h
  cases hsame
  exact ⟨window_of_nonneg hposition (Int.add_nonneg hposition hcount), hinside, rfl⟩

/-- The payload of a data block is what the stream behind its header inflates to. -/
theorem dataBlock_readerAt_eq_ok {b : Block} (hnonneg : 0 ≤ position)
    (h : dataBlock (headerAt data position) (readerAt data (position + headerSize)) =
      .ok b middle) :
    (headerAt data position).compressed ≤ (headerAt data position).size ∧
      middle = readerAt data (streamStop data position) ∧
      ∃ bytes, Deflate.inflate (streamAt data position) = .ok bytes ∧
        b = .data (headerAt data position) bytes := by
  have hheader : (0 : Int) ≤ headerSize := by decide
  have hstart : 0 ≤ position + headerSize := by omega
  unfold dataBlock at h
  split at h
  · cases h
  · rename_i hsize
    obtain ⟨stream, behind, hbytes, h⟩ := bind_eq_ok.1 h
    obtain ⟨hstream, _, rfl⟩ := bytes_readerAt_eq_ok hstart hbytes
    replace hstream : stream = streamAt data position := hstream
    subst hstream
    cases hinflate : Deflate.inflate (streamAt data position) with
    | error cause =>
      rw [hinflate] at h
      cases h
    | ok bytes =>
      rw [hinflate] at h
      cases h
      exact ⟨by omega, rfl, bytes, rfl, rfl⟩

/-- A block that was read has passed the checks of its header, and is padding or data by the size
that the header announces. -/
theorem block_readerAt_eq_ok {b : Block} (h : block (readerAt data position) = .ok b middle) :
    0 ≤ position ∧ (headerAt data position).position = position ∧
      0 ≤ (headerAt data position).compressed ∧
      (if (headerAt data position).decompressed = 0 then
        pure (.padding position (paddingTo (position + headerSize) blockBoundary))
      else dataBlock (headerAt data position)) (readerAt data (position + headerSize)) =
        .ok b middle := by
  obtain ⟨header, behind, hheader, h⟩ := bind_eq_ok.1 h
  obtain ⟨rfl, hnonneg, _, rfl⟩ := blockHeader_readerAt_eq_ok hheader
  obtain ⟨state, same, hget, h⟩ := bind_eq_ok.1 h
  cases hget
  split at h
  · cases h
  · rename_i hposition
    change ¬ (headerAt data position).position ≠ position + headerSize - headerSize at hposition
    have hown : (headerAt data position).position = position := by omega
    split at h
    · cases h
    · rw [hown] at h
      exact ⟨hnonneg, hown, by omega, h⟩

/-- A block that the reader has taken and left is described by the header at the position where the
reader stood. -/
theorem blockRead_of_block_eq_ok {b : Block} {value : Unit}
    (hblock : block (readerAt data position) = .ok b middle)
    (hleave : b.leave middle = .ok value next) :
    ∃ stop, next = readerAt data stop ∧ BlockRead data position b stop := by
  have hheaderSize : headerSize = 16 := rfl
  obtain ⟨hnonneg, hown, hcompressed, h⟩ := block_readerAt_eq_ok hblock
  split at h
  · rename_i hzero
    cases h
    obtain ⟨_, hcontents, _, hstop, rfl⟩ := skip_eq_ok.1 hleave
    cases hcontents
    have hcount : 0 ≤ paddingTo (position + headerSize) blockBoundary :=
      paddingTo_nonneg (by decide)
    refine ⟨position + headerSize + paddingTo (position + headerSize) blockBoundary, rfl, {
      nonneg := hnonneg
      own_position := hown
      linked := ?_
      advances := by omega
      inside := hstop
      announced_eq := hzero.symm
      padding := fun _ ↦ rfl
      stream := fun hdata ↦ absurd hzero hdata }⟩
    unfold Linked
    rw [if_pos hzero]
    rfl
  · rename_i hdata
    obtain ⟨hfits, rfl, bytes, hinflate, rfl⟩ := dataBlock_readerAt_eq_ok hnonneg h
    obtain ⟨_, hcontents, _, hstop, rfl⟩ := seek_eq_ok.1 hleave
    cases hcontents
    rw [hown] at hstop
    refine ⟨position + (headerAt data position).size + headerSize, by rw [hown]; rfl, {
      nonneg := hnonneg
      own_position := hown
      linked := ?_
      advances := by omega
      inside := hstop
      announced_eq := rfl
      padding := fun hzero ↦ absurd hzero hdata
      stream := fun _ ↦ ⟨hcompressed, by unfold streamStop; omega, hinflate⟩ }⟩
    unfold Linked
    rw [if_neg hdata]
    omega

theorem checkFlags_eq_ok {flags : ByteArray} {value : Unit}
    (h : checkFlags flags r = .ok value next) : next = r := by
  unfold checkFlags at h
  split at h
  · cases h
  · split at h
    · cases h
    · split at h
      · cases h
      · cases h
        rfl

/-- What stands in front of the blocks leads to the stated size and to the first header. -/
theorem opening_readerAt_eq_ok {stated : Int} (h : opening (readerAt data 0) = .ok stated r) :
    stated = statedSize data ∧ r = readerAt data firstBlock := by
  obtain ⟨found, _, hfound, h⟩ := bind_eq_ok.1 h
  obtain ⟨_, _, _, _, _, rfl⟩ := bytes_eq_ok.1 hfound
  split at h
  · cases h
  · obtain ⟨foundVersion, _, hversion, h⟩ := bind_eq_ok.1 h
    obtain ⟨_, _, _, _, rfl⟩ := position_of_unsigned_eq_ok hversion
    split at h
    · cases h
    · obtain ⟨flags, _, hflags, h⟩ := bind_eq_ok.1 h
      obtain ⟨_, _, _, _, _, rfl⟩ := bytes_eq_ok.1 hflags
      obtain ⟨_, _, hchecked, h⟩ := bind_eq_ok.1 h
      obtain rfl := checkFlags_eq_ok hchecked
      obtain ⟨_, _, hseek, h⟩ := bind_eq_ok.1 h
      obtain ⟨_, hcontents, _, _, rfl⟩ := seek_eq_ok.1 hseek
      obtain ⟨size, behind, hsize, h⟩ := bind_eq_ok.1 h
      change signed 8 (readerAt data sizePosition) = .ok size behind at hsize
      obtain ⟨rfl, _, _, rfl⟩ := signed_readerAt_eq_ok hsize
      obtain ⟨_, _, hfirst, h⟩ := bind_eq_ok.1 h
      obtain ⟨_, _, _, _, rfl⟩ := seek_eq_ok.1 hfirst
      cases h
      exact ⟨rfl, rfl⟩

end CompiledScript.Container
