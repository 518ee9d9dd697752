import CompiledScript.Proofs.Container.Packing
import CompiledScript.Proofs.Deflate.StoredStream

/-!
# Unpacking what was packed

Unpacking yields the chunks of a container, one after another, and ends as soon as they make up the
stated size. A step takes one block, and leaves the reader at the header of the next one: behind a
padding block this is the next multiple of the boundary, and behind a chunk the end of its block,
which may have bytes left over.
-/

namespace CompiledScript.Container

open Bytes Number Reader Fragment

section Steps

variable {stated : Int} {state : Unpacking}

theorem unpackBlocks_of_le (h : stated ≤ state.announced) :
    (unpackBlocks stated state).2 = .ok state.payload := by
  rw [unpackBlocks, if_neg (by omega)]

theorem unpackBlocks_of_ok {b : Block} {middle next : Reader} (hless : state.announced < stated)
    (hblock : block state.reader = .ok b middle) (hleave : b.leave middle = .ok () next) :
    unpackBlocks stated state = unpackBlocks stated (state.add b next) := by
  rw [unpackBlocks, if_pos hless]
  split
  · rename_i hfault
    rw [hblock] at hfault
    cases hfault
  · rename_i hfound
    rw [hblock] at hfound
    cases hfound
    split
    · rename_i hfault
      rw [hleave] at hfault
      cases hfault
    · rename_i hfound
      rw [hleave] at hfound
      cases hfound
      rfl

end Steps

variable {data : ByteArray} {filler : Int → UInt8} {position : Int}

@[simp] theorem length_headerCode (header : BlockHeader) : (headerCode header).length = 16 := by
  simp [headerCode]

theorem reads_blockHeader {header : BlockHeader} (hcompressed : FitsSigned 4 header.compressed)
    (hdecompressed : FitsSigned 4 header.decompressed) (hsize : FitsSigned 4 header.size)
    (hposition : FitsSigned 4 header.position) :
    Reads data blockHeader position (headerCode header) header := by
  unfold headerCode
  simp only [List.flatten_cons, List.flatten_nil]
  apply (reads_signed hcompressed).bind
  apply (reads_signed hdecompressed).bind
  apply (reads_signed hsize).bind
  apply (reads_signed hposition).bind
  exact reads_pure header

/-- A block is taken for padding or data by its header, once the header has passed the checks. -/
theorem block_eq_ok {header : BlockHeader} {b : Block} {r behind middle : Reader}
    (hheader : blockHeader r = .ok header behind)
    (hposition : header.position = behind.position - headerSize)
    (hcompressed : 0 ≤ header.compressed) (hdecompressed : 0 ≤ header.decompressed)
    (h : (if header.decompressed = 0 then
        pure (.padding header.position (paddingTo behind.position blockBoundary))
      else dataBlock header) behind = .ok b middle) :
    block r = .ok b middle := by
  apply bind_eq_ok.2
  refine ⟨header, behind, hheader, ?_⟩
  apply bind_eq_ok.2
  refine ⟨behind, behind, rfl, ?_⟩
  rw [if_neg (by omega), if_neg (by omega)]
  exact h

theorem dataBlock_eq_ok {header : BlockHeader} {stream content : ByteArray} {r middle : Reader}
    (hsize : header.compressed ≤ header.size)
    (hstream : bytes header.compressed r = .ok stream middle)
    (hinflate : Deflate.inflate stream = .ok content) :
    dataBlock header r = .ok (.data header content) middle := by
  unfold dataBlock
  rw [if_neg (by omega)]
  apply bind_eq_ok.2
  refine ⟨stream, middle, hstream, ?_⟩
  rw [hinflate]
  rfl

theorem fitsSigned_of_lt {value : Int} (hnonneg : 0 ≤ value) (hvalue : value < 0x80000000) :
    FitsSigned 4 value := by
  change -4294967296 ≤ 2 * value ∧ 2 * value < 4294967296
  omega

namespace Part

def block : Part → Int → Block
  | padding _ _ _, position => .padding position (paddingTo (position + headerSize) blockBoundary)
  | chunk content stream slack nonempty inflates, position =>
    .data ((chunk content stream slack nonempty inflates).header position) ⟨content.toArray⟩

theorem announced_block (part : Part) (position : Int) :
    (part.block position).announced = part.content.length := by
  cases part <;> rfl

theorem payload_block (part : Part) (position : Int) :
    (part.block position).payload = ⟨part.content.toArray⟩ := by
  cases part <;> rfl

theorem blockHeader_of_holds {part : Part} (hfits : part.Fits position)
    (h : Holds data position (part.code filler position)) :
    blockHeader (readerAt data position) =
      .ok (part.header position) (readerAt data (position + headerSize)) := by
  obtain ⟨hposition, hsize, hdecompressed⟩ := hfits
  have hnonneg := h.offset_nonneg
  have hread : Reads data blockHeader position (headerCode (part.header position))
      (part.header position) := by
    cases part with
    | padding compressed size nonneg =>
      apply reads_blockHeader
      · exact fitsSigned_int32 compressed
      · exact fitsSigned_of_lt (Int.le_refl 0) hdecompressed
      · exact fitsSigned_int32 size
      · exact fitsSigned_of_lt hnonneg hposition
    | chunk content stream slack nonempty inflates =>
      have hstream : (stream.length : Int) ≤ stream.length + slack :=
        Int.le_add_of_nonneg_right (Int.natCast_nonneg slack)
      apply reads_blockHeader
      · exact fitsSigned_of_lt (Int.natCast_nonneg _) (Int.lt_of_le_of_lt hstream hsize)
      · exact fitsSigned_of_lt (Int.natCast_nonneg _) hdecompressed
      · apply fitsSigned_of_lt _ hsize
        change 0 ≤ (stream.length + slack : Int)
        omega
      · exact fitsSigned_of_lt hnonneg hposition
  have hheader := hread h.left
  rw [length_headerCode] at hheader
  exact hheader

theorem body_of_holds {part : Part} (h : Holds data position (part.code filler position)) :
    Holds data (position + headerSize) (part.body filler (position + headerSize)) := by
  have hbody := h.right
  rw [length_headerCode] at hbody
  exact hbody

theorem length_code (part : Part) :
    (part.code filler position).length =
      headerSize + (part.body filler (position + headerSize)).length := by
  rw [code, length_followedBy, length_headerCode]
  rfl

/-- A reader at the header of a block takes the block and is left at the next header. -/
theorem block_of_holds {part : Part} (hfits : part.Fits position)
    (h : Holds data position (part.code filler position)) :
    ∃ middle, Container.block (readerAt data position) = .ok (part.block position) middle ∧
      (part.block position).leave middle =
        .ok () (readerAt data (position + (part.code filler position).length)) := by
  have hheader := blockHeader_of_holds hfits h
  have hbody := body_of_holds h
  have hplace : position = position + headerSize - headerSize := by omega
  rw [length_code, ← Int.add_assoc]
  cases part with
  | padding compressed size nonneg =>
    have hlength := length_padding filler (position + headerSize) (by decide : 0 < blockBoundary)
    rw [← paddingTo_eq_gap (by decide)] at hlength
    refine ⟨readerAt data (position + headerSize), ?_, reads_skip hlength hbody⟩
    exact block_eq_ok hheader hplace nonneg (Int.le_refl 0) rfl
  | chunk content stream slack nonempty inflates =>
    have hlength :
        ((chunk content stream slack nonempty inflates).header position).decompressed ≠ 0 := by
      intro hzero
      exact nonempty (List.length_eq_zero_iff.1 (Int.ofNat.inj hzero))
    have hstream := reads_bytes rfl hbody.left
    have hbodyLength : (position + headerSize + ((chunk content stream slack nonempty inflates).body
        filler (position + headerSize)).length : Int) =
        position + (stream.length + slack) + headerSize := by
      simp only [body, length_followedBy, length_unread]
      push_cast
      omega
    refine ⟨readerAt data (position + headerSize + stream.length), ?_, ?_⟩
    · apply block_eq_ok hheader hplace (Int.natCast_nonneg _) (Int.natCast_nonneg _)
      rw [if_neg hlength]
      apply dataBlock_eq_ok _ hstream inflates
      exact Int.le_add_of_nonneg_right (Int.natCast_nonneg slack)
    · have hstop := hbody.stop
      rw [hbodyLength] at hstop ⊢
      exact seek_of_holds hstop

end Part

/-- From a header on, all blocks up to the stated size are taken. Blocks behind the last chunk are
not looked at, and only padding can stand there. -/
theorem unpackBlocks_of_holds {parts : List Part} {stated : Int} {state : Unpacking}
    (hfits : AllFit filler parts position)
    (h : Holds data position (joined (Part.code filler) parts position))
    (hreader : state.reader = readerAt data position)
    (hstated : stated = state.announced + (contents parts).length) :
    (unpackBlocks stated state).2 = .ok (state.payload ++ ⟨(contents parts).toArray⟩) := by
  induction parts generalizing position state with
  | nil =>
    have hnone : contents [] = [] := rfl
    rw [unpackBlocks_of_le (by simp [hstated, hnone]), hnone, append_toArray_nil]
  | cons part rest ih =>
    have hcontents : contents (part :: rest) = part.content ++ contents rest := rfl
    by_cases hless : state.announced < stated
    · obtain ⟨middle, hblock, hleave⟩ := Part.block_of_holds hfits.1 h.left
      rw [← hreader] at hblock
      have hannounced : stated = (state.add (part.block position)
          (readerAt data (position + (part.code filler position).length))).announced +
          (contents rest).length := by
        change _ = state.announced + (part.block position).announced + _
        rw [hstated, Part.announced_block, hcontents, List.length_append]
        push_cast
        omega
      calc (unpackBlocks stated state).2
          = (unpackBlocks stated (state.add (part.block position)
              (readerAt data (position + (part.code filler position).length)))).2 := by
            rw [unpackBlocks_of_ok hless hblock hleave]
        _ = .ok (state.payload ++ (part.block position).payload ++ ⟨(contents rest).toArray⟩) :=
            ih hfits.2 h.right rfl hannounced
        _ = .ok (state.payload ++ ⟨(contents (part :: rest)).toArray⟩) := by
            rw [Part.payload_block, append_toArray_append, hcontents]
    · have hnone : contents (part :: rest) = [] := by
        apply List.length_eq_zero_iff.1
        omega
      rw [unpackBlocks_of_le (by omega), hnone, append_toArray_nil]

/-- A chunk is shorter than `0x80000000` bytes, and no more than one block starts at a position, so
the size of the payload fits its field. -/
theorem length_contents_le {parts : List Part} (hfits : AllFit filler parts position) :
    ((contents parts).length : Int) ≤ 0x80000000 * max 0 (0x80000000 - position) := by
  induction parts generalizing position with
  | nil =>
    change (0 : Int) ≤ _
    omega
  | cons part rest ih =>
    obtain ⟨⟨hposition, _, hcontent⟩, hrest⟩ := hfits
    have hcontents : contents (part :: rest) = part.content ++ contents rest := rfl
    have hlength : (part.header position).decompressed = part.content.length := by
      cases part <;> rfl
    have hplace : (part.header position).position = position := by
      cases part <;> rfl
    have hstep : 16 ≤ ((part.code filler position).length : Int) := by
      rw [Part.length_code]
      change 16 ≤ (16 : Int) + _
      omega
    have hbound := ih hrest
    rw [hcontents, List.length_append]
    push_cast
    omega

theorem fitsSigned_length_contents {parts : List Part} (hfits : AllFit filler parts 0x248) :
    FitsSigned 8 (contents parts).length := by
  have hbound := length_contents_le hfits
  change -18446744073709551616 ≤ 2 * ((contents parts).length : Int) ∧
    2 * ((contents parts).length : Int) < 18446744073709551616
  omega

theorem length_openingCode (size : Int) :
    (openingCode filler size).length = 0x248 := by
  simp [openingCode]

theorem opening_of_holds {size : Int} (hsize : FitsSigned 8 size)
    (h : Holds data 0 (openingCode filler size)) :
    opening (readerAt data 0) = .ok size (readerAt data firstBlock) := by
  unfold openingCode at h
  simp only [List.flatten_cons, List.flatten_nil, List.append_nil] at h
  have hafterSignature : Holds data 8 _ := h.right
  have hafterVersion : Holds data 12 _ := hafterSignature.right
  have hafterFlags : Holds data 16 _ := hafterVersion.right
  have hstated := hafterFlags.right
  have hfirst := hstated.right.stop
  simp only [length_unread, length_toLittleEndian] at hstated hfirst
  have hsignature : bytes signature.size (readerAt data 0) = .ok signature (readerAt data 8) :=
    reads_bytes rfl h.left
  have hversion : u32 (readerAt data 8) = .ok version (readerAt data 12) :=
    reads_unsigned (by decide : FitsUnsigned 4 version) hafterSignature.left
  have hflags : bytes 4 (readerAt data 12) =
      .ok ⟨#[filler 12, 1, 4, 0]⟩ (readerAt data 16) := reads_bytes rfl hafterVersion.left
  have hsame : ¬ signature.data ≠ signature.data := not_not_intro rfl
  have hsupported : ¬ version ≠ version := not_not_intro rfl
  apply bind_eq_ok.2
  refine ⟨signature, _, hsignature, ?_⟩
  rw [if_neg hsame]
  apply bind_eq_ok.2
  refine ⟨version, _, hversion, ?_⟩
  rw [if_neg hsupported]
  apply bind_eq_ok.2
  refine ⟨_, _, hflags, ?_⟩
  apply bind_eq_ok.2
  refine ⟨(), _, rfl, ?_⟩
  apply bind_eq_ok.2
  refine ⟨(), readerAt data sizePosition, seek_of_holds hstated, ?_⟩
  apply bind_eq_ok.2
  refine ⟨size, _, reads_signed hsize hstated.left, ?_⟩
  apply bind_eq_ok.2
  exact ⟨(), _, seek_of_holds hfirst, rfl⟩

/-- Unpacking inverts packing. The payload of a container is what its chunks make up, whatever
streams they are stored as, however many bytes are left over in their blocks, wherever padding
blocks stand between them, and whatever the unchecked bytes and those behind the blocks are. -/
theorem unpack_packed (filler : Int → UInt8) (parts : List Part) (trailing : List UInt8)
    (hfits : AllFit filler parts 0x248) :
    (unpack (packed filler parts trailing)).2 = .ok ⟨(contents parts).toArray⟩ := by
  have hsize : FitsSigned 8 (contents parts).length := fitsSigned_length_contents hfits
  have hheld : Holds (packed filler parts trailing) 0
      (openingCode filler (contents parts).length ++ joined (Part.code filler) parts 0x248) :=
    ⟨[], trailing, by simp [packed], rfl⟩
  have hblocks := hheld.right
  rw [length_openingCode, Int.zero_add] at hblocks
  have hopening : opening (Reader.ofBytes .little (packed filler parts trailing)) = _ :=
    opening_of_holds hsize hheld.left
  unfold unpack
  rw [hopening]
  dsimp only
  rw [unpackBlocks_of_holds hfits hblocks rfl (Int.zero_add _).symm, ByteArray.empty_append]

/-- Two padding blocks, and two chunks stored as they are, the first with bytes left over. -/
def sample : List Part :=
  [.padding 0 0 (by decide), .padding 5 (-1) (by decide),
    .chunk [0x61, 0x62] (Deflate.storedStream [0x61, 0x62]) 3 (by decide)
      (Deflate.inflate_storedStream [0x61, 0x62]),
    .chunk [0x63] (Deflate.storedStream [0x63]) 0 (by decide) (Deflate.inflate_storedStream [0x63])]

theorem allFit_sample (filler : Int → UInt8) : AllFit filler sample 0x248 := by
  have hstream : (Deflate.storedStream [0x61, 0x62]).length = 7 := by
    rw [Deflate.storedStream]
    rfl
  have hshort : (Deflate.storedStream [0x63]).length = 6 := by
    rw [Deflate.storedStream]
    rfl
  have hboundary : (0 : Int) < 0x80000 := by decide
  simp only [sample, AllFit, Part.Fits, Part.header, Part.length_code, Part.body, length_followedBy,
    length_unread, length_padding _ _ hboundary, hstream, hshort]
  decide

/-- The sample is unpacked into its two chunks. -/
theorem unpack_packed_sample :
    (unpack (packed (fun _ ↦ 0xEE) sample [0xFF])).2 = .ok ⟨#[0x61, 0x62, 0x63]⟩ :=
  unpack_packed (fun _ ↦ 0xEE) sample [0xFF] (allFit_sample _)

end CompiledScript.Container
