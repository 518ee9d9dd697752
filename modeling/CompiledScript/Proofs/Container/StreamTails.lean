import CompiledScript.Proofs.Container.BlockChain
import CompiledScript.Proofs.Deflate.StreamEnd

/-!
# Blocks with bytes behind their stream

The header of a block counts the compressed bytes, and these may go on behind the end of the stream
that they start with. The stream is inflated up to its own end, so such a block holds the same part
of the payload as one whose header counts just the stream.
-/

namespace CompiledScript.Container

open Reader

/-- A stream is inflated to the same bytes with others behind it, and only a number of its first
bytes matters. So a block whose header passes the checks holds what its stream is inflated to, if the
compressed bytes are this stream with any others behind it. -/
theorem inflate_and_block_of_stream_append (stream content : ByteArray)
    (h : Deflate.inflate stream = .ok content) :
    (∀ tail, Deflate.inflate (stream ++ tail) = .ok content) ∧
    (∃ used ≤ stream.size, ∀ tail,
      Deflate.inflate (stream.extract 0 used ++ tail) = .ok content) ∧
    ∀ (tail : ByteArray) (header : BlockHeader) (r behind after : Reader),
      blockHeader r = .ok header behind → header.position = behind.position - headerSize →
      0 < header.decompressed → header.compressed ≤ header.size →
      bytes header.compressed behind = .ok (stream ++ tail) after →
      block r = .ok (.data header content) after := by
  refine ⟨Deflate.inflate_append h, Deflate.exists_end_of_inflate_eq_ok h, ?_⟩
  intro tail header r behind after hheader hposition hdecompressed hsize hbytes
  obtain ⟨_, _, hcompressed, _⟩ := bytes_eq_ok.1 hbytes
  apply block_eq_ok hheader hposition hcompressed (by omega)
  rw [if_neg (by omega)]
  exact dataBlock_eq_ok hsize hbytes (Deflate.inflate_append h tail)

/-- A stream of a stored block, a block with the fixed codes, an empty stored block, and a block with
codes of its own that ends inside the last byte. -/
def mixedStream : ByteArray :=
  ⟨#[0x00, 0x02, 0x00, 0xFD, 0xFF, 0x61, 0x62,
    0x4A, 0x4E, 0x06, 0x02, 0x00, 0x00, 0x00, 0x00, 0xFF, 0xFF,
    0x05, 0xC1, 0x81, 0x00, 0x00, 0x00, 0x00, 0x00, 0x90, 0x56, 0xFF, 0x13, 0x00, 0x00, 0x02]⟩

def mixedContent : ByteArray :=
  ⟨#[0x61, 0x62, 0x63, 0x63, 0x63, 0x63, 0x63, 0x61, 0x61, 0x61, 0x61, 0x61, 0x61, 0x61, 0x61, 0x61,
    0x61, 0x61, 0x61, 0x61, 0x61]⟩

/-- The stream with three bytes behind it. -/
def tailedStream : ByteArray :=
  mixedStream ++ ⟨#[0x07, 0xFF, 0x00]⟩

/-- A block whose header counts these bytes too. -/
def tailedBlock : ByteArray :=
  ⟨(headerCode ⟨35, 21, 35, 0⟩ ++ tailedStream.data.toList).toArray⟩

theorem run_mixedStream :
    (Deflate.inflate mixedStream).toOption = some mixedContent := by
  decide +kernel

theorem blockHeader_tailedBlock :
    blockHeader (readerAt tailedBlock 0) = .ok ⟨35, 21, 35, 0⟩ (readerAt tailedBlock 16) := by
  have hheld : Bytes.Holds tailedBlock 0 (headerCode ⟨35, 21, 35, 0⟩) :=
    Bytes.holds_of_append [] _ _
  exact reads_blockHeader (by decide) (by decide) (by decide) (by decide) hheld

theorem bytes_tailedBlock :
    bytes 35 (readerAt tailedBlock 16) = .ok tailedStream (readerAt tailedBlock 51) := by
  have hheld : Bytes.Holds tailedBlock 16 tailedStream.data.toList :=
    ⟨headerCode ⟨35, 21, 35, 0⟩, [], by simp [tailedBlock], rfl⟩
  exact reads_bytes (by decide) hheld

theorem inflate_and_block_tailedBlock :
    Deflate.inflate mixedStream = .ok mixedContent ∧
    Deflate.inflate tailedStream = .ok mixedContent ∧
    block (readerAt tailedBlock 0) =
      .ok (.data ⟨35, 21, 35, 0⟩ mixedContent) (readerAt tailedBlock 51) := by
  have hinflate := toOption_eq_some_iff.1 run_mixedStream
  obtain ⟨hlonger, _, hblock⟩ := inflate_and_block_of_stream_append _ _ hinflate
  exact ⟨hinflate, hlonger _, hblock _ _ _ _ _ blockHeader_tailedBlock rfl (by decide) (by decide)
    bytes_tailedBlock⟩

end CompiledScript.Container
