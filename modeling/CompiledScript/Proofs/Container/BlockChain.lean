import CompiledScript.Proofs.Container.BlockHeaders
import CompiledScript.Proofs.Container.Unpacking
import CompiledScript.Proofs.Outcomes
import Mathlib.Algebra.BigOperators.Group.List.Basic
import Mathlib.Algebra.Order.Group.Int
import Mathlib.Data.List.Chain

/-!
# The chain of blocks

Unpacking follows the blocks of a container from one header to the next. All four numbers of a
header are under the control of whoever made the container, but every block that passes the checks
leads forward, behind its own header. So the number of headers that are read is bounded by the
length of the buffer, whatever size the container states. When unpacking succeeds, the headers form
a chain: they are linked to each other, the streams of the data blocks do not overlap, the payload
is what they inflate to, and the last block is the one that makes up the stated size.

The headers are noted by `tracedBlocks`, which does what `unpackBlocks` does.
-/

namespace CompiledScript.Container

open Bytes Number Reader

/-! ## The headers that are read -/

/-- The position of the header that is read next, if the buffer has all of it. -/
def Unpacking.header? (state : Unpacking) : Option Int :=
  match blockHeader state.reader with
  | .ok _ _ => some state.reader.position
  | .error _ _ => none

set_option linter.unusedVariables false in
/-- Reads blocks until they make up the stated size, and notes the positions of the headers. A
header is noted as soon as it is read, whatever comes of it. -/
def tracedBlocks (stated : Int) (state : Unpacking) :
    List Int × Array UnpackEvent × Except Fault ByteArray :=
  if state.announced < stated then
    match hblock : block state.reader with
    | .error fault _ => (state.header?.toList, state.events, .error fault)
    | .ok b middle =>
      match hleave : b.leave middle with
      | .error fault _ => (state.header?.toList, state.events.push b.event, .error fault)
      | .ok _ next =>
        let later := tracedBlocks stated (state.add b next)
        (state.header?.toList ++ later.1, later.2)
  else ([], state.events.push (.unpacked state.payload.size), .ok state.payload)
  termination_by bytesLeft state.reader
  decreasing_by exact bytesLeft_lt hblock hleave

/-- Unpacks a container, and notes the positions of the block headers. -/
def traced (data : ByteArray) : List Int × Array UnpackEvent × Except Fault ByteArray :=
  match opening (Reader.ofBytes .little data) with
  | .error fault _ => ([], #[], .error fault)
  | .ok stated reader => tracedBlocks stated ⟨reader, 0, ByteArray.empty, #[]⟩

/-- The positions of all block headers that are read while a container is unpacked. -/
def headersRead (data : ByteArray) : List Int :=
  (traced data).1

/-- Taking note of the headers changes nothing. -/
theorem tracedBlocks_snd (stated : Int) (state : Unpacking) :
    (tracedBlocks stated state).2 = unpackBlocks stated state := by
  fun_induction tracedBlocks stated state with
  | case1 state hless fault r hblock =>
    rw [unpackBlocks, if_pos hless]
    split <;> simp_all
  | case2 state hless b middle hblock fault r hleave =>
    rw [unpackBlocks, if_pos hless]
    split
    · simp_all
    · split <;> simp_all
  | case3 state hless b middle hblock value next hleave later ih =>
    rw [unpackBlocks_of_ok hless hblock hleave]
    exact ih
  | case4 state hmade => rw [unpackBlocks, if_neg hmade]

theorem traced_snd (data : ByteArray) : (traced data).2 = unpack data := by
  unfold traced unpack
  cases opening (Reader.ofBytes .little data) with
  | error fault r => rfl
  | ok stated reader => exact tracedBlocks_snd stated _

section Run

variable {data : ByteArray} {state : Unpacking}

/-- The unpacking reads the given buffer. -/
def Unpacking.Over (data : ByteArray) (state : Unpacking) : Prop :=
  state.reader = readerAt data state.reader.position

theorem length_header?_le (hover : state.Over data) :
    16 * state.header?.toList.length ≤ (data.size - state.reader.position).toNat := by
  unfold Unpacking.header?
  cases hheader : blockHeader state.reader with
  | error fault r => simp
  | ok header r =>
    rw [hover] at hheader
    obtain ⟨_, _, hinside, _⟩ := blockHeader_readerAt_eq_ok hheader
    change state.reader.position + 16 ≤ data.size at hinside
    simp only [Option.toList_some, List.length_singleton]
    omega

/-- A block is read behind its header. -/
theorem header?_of_block_eq_ok {b : Block} {middle : Reader}
    (hblock : block state.reader = .ok b middle) : state.header? = some state.reader.position := by
  obtain ⟨header, behind, hheader, _⟩ := bind_eq_ok.1 hblock
  unfold Unpacking.header?
  rw [hheader]

/-- A step of unpacking reads one block, and goes on at the header that is linked to it. -/
theorem blockRead_of_step {b : Block} {middle next : Reader} {value : Unit}
    (hover : state.Over data) (hblock : block state.reader = .ok b middle)
    (hleave : b.leave middle = .ok value next) :
    (state.add b next).Over data ∧ BlockRead data state.reader.position b next.position := by
  rw [hover] at hblock
  obtain ⟨stop, rfl, hread⟩ := blockRead_of_block_eq_ok hblock hleave
  exact ⟨rfl, hread⟩

/-- Every header that is read takes sixteen bytes of the buffer for itself. -/
theorem length_tracedBlocks_le (stated : Int) (hover : state.Over data) :
    16 * (tracedBlocks stated state).1.length ≤ (data.size - state.reader.position).toNat := by
  fun_induction tracedBlocks stated state with
  | case1 state hless fault r hblock => exact length_header?_le hover
  | case2 state hless b middle hblock fault r hleave => exact length_header?_le hover
  | case3 state hless b middle hblock value next hleave later ih =>
    obtain ⟨hnext, hread⟩ := blockRead_of_step hover hblock hleave
    have hlater : 16 * later.1.length ≤ (data.size - next.position).toNat := ih hnext
    have hadvances : state.reader.position + 16 ≤ next.position := hread.advances
    have hinside := hread.inside
    rw [header?_of_block_eq_ok hblock]
    simp only [Option.toList_some, List.singleton_append, List.length_cons]
    omega
  | case4 state hmade => simp

end Run

/-! ## Chains of blocks -/

/-- The data blocks among the blocks at some positions. -/
def dataBlocks (data : ByteArray) (positions : List Int) : List Int :=
  positions.filter fun position ↦ (headerAt data position).decompressed ≠ 0

/-- The size that the data blocks among the blocks at some positions announce together. -/
def announcedBy (data : ByteArray) (positions : List Int) : Int :=
  ((dataBlocks data positions).map fun position ↦ (headerAt data position).decompressed).sum

/-- The stream of the block at a position takes a place of the buffer. -/
def InStream (data : ByteArray) (position place : Int) : Prop :=
  position + headerSize ≤ place ∧ place < streamStop data position

/-- Blocks whose headers are linked to each other from a start on, which hold the payload, and of
which the last one makes up the stated size. -/
structure BlockChain (data : ByteArray) (start stated : Int) (positions : List Int)
    (payload : ByteArray) : Prop where
  first : ∀ position ∈ positions.head?, position = start
  increasing : positions.Pairwise (· < ·)
  own_position : ∀ position ∈ positions, (headerAt data position).position = position
  linked : positions.IsChain (Linked data)
  streams_inside : ∀ position ∈ dataBlocks data positions,
    0 ≤ position + headerSize ∧ position + headerSize ≤ streamStop data position ∧
      streamStop data position ≤ data.size
  streams_disjoint : (dataBlocks data positions).Pairwise fun position other ↦
    ∀ place, ¬ (InStream data position place ∧ InStream data other place)
  payload_eq : ∃ parts : List ByteArray,
    List.Forall₂ (fun position part ↦ Deflate.inflate (streamAt data position) = .ok part)
      (dataBlocks data positions) parts ∧ payload = parts.foldr (· ++ ·) ByteArray.empty
  reached : stated ≤ announcedBy data positions
  needed : positions ≠ [] → announcedBy data positions.dropLast < stated

section Chain

variable {data : ByteArray} {start stated position next : Int} {positions : List Int}
  {payload : ByteArray} {b : Block}

theorem dataBlocks_cons_of_padding (h : (headerAt data position).decompressed = 0) :
    dataBlocks data (position :: positions) = dataBlocks data positions := by
  simp [dataBlocks, h]

theorem dataBlocks_cons_of_data (h : (headerAt data position).decompressed ≠ 0) :
    dataBlocks data (position :: positions) = position :: dataBlocks data positions := by
  simp [dataBlocks, h]

theorem announcedBy_cons :
    announcedBy data (position :: positions) =
      (headerAt data position).decompressed + announcedBy data positions := by
  unfold announcedBy
  by_cases h : (headerAt data position).decompressed = 0
  · rw [dataBlocks_cons_of_padding h, h, Int.zero_add]
  · rw [dataBlocks_cons_of_data h, List.map_cons, List.sum_cons]

namespace BlockChain

theorem nil (hstated : stated ≤ 0) : BlockChain data start stated [] ByteArray.empty where
  first := by simp
  increasing := List.Pairwise.nil
  own_position := by simp
  linked := List.isChain_nil
  streams_inside := by simp [dataBlocks]
  streams_disjoint := List.Pairwise.nil
  payload_eq := ⟨[], List.Forall₂.nil, rfl⟩
  reached := hstated
  needed := fun hnone ↦ absurd rfl hnone

theorem start_le (h : BlockChain data start stated positions payload) :
    ∀ position ∈ positions, start ≤ position := by
  cases positions with
  | nil => simp
  | cons head rest =>
    obtain rfl := h.first head rfl
    intro position hmember
    rcases List.mem_cons.1 hmember with rfl | hrest
    · exact Int.le_refl _
    · exact Int.le_of_lt (List.rel_of_pairwise_cons h.increasing hrest)

theorem start_le_of_mem_dataBlocks (h : BlockChain data start stated positions payload) :
    ∀ position ∈ dataBlocks data positions, start ≤ position :=
  fun position hmember ↦ h.start_le position (List.mem_of_mem_filter hmember)

/-- A block in front of a chain that starts where the block leads to. -/
theorem cons (hread : BlockRead data position b next) (hstated : 0 < stated)
    (hrest : BlockChain data next (stated - b.announced) positions payload) :
    BlockChain data position stated (position :: positions) (b.payload ++ payload) where
  first := by simp
  increasing := by
    have hadvances : position + 16 ≤ next := hread.advances
    refine List.pairwise_cons.2 ⟨fun other hother ↦ ?_, hrest.increasing⟩
    have hlater := hrest.start_le other hother
    omega
  own_position := List.forall_mem_cons.2 ⟨hread.own_position, hrest.own_position⟩
  linked := by
    refine List.isChain_cons.2 ⟨fun other hother ↦ ?_, hrest.linked⟩
    rw [hrest.first other hother]
    exact hread.linked
  streams_inside := by
    by_cases h : (headerAt data position).decompressed = 0
    · rw [dataBlocks_cons_of_padding h]
      exact hrest.streams_inside
    · obtain ⟨hcompressed, hstop, _⟩ := hread.stream h
      have hnonneg := hread.nonneg
      have hinside := hread.inside
      have hheader : (0 : Int) ≤ headerSize := by decide
      rw [dataBlocks_cons_of_data h]
      refine List.forall_mem_cons.2 ⟨⟨by omega, ?_, by omega⟩, hrest.streams_inside⟩
      unfold streamStop
      omega
  streams_disjoint := by
    by_cases h : (headerAt data position).decompressed = 0
    · rw [dataBlocks_cons_of_padding h]
      exact hrest.streams_disjoint
    · obtain ⟨_, hstop, _⟩ := hread.stream h
      have hheader : (0 : Int) ≤ headerSize := by decide
      rw [dataBlocks_cons_of_data h]
      refine List.pairwise_cons.2 ⟨fun other hother ↦ ?_, hrest.streams_disjoint⟩
      -- The stream ends in front of the next header, and all later streams start behind it.
      have hlater := hrest.start_le_of_mem_dataBlocks other hother
      rintro place ⟨⟨_, hbefore⟩, hbehind, _⟩
      omega
  payload_eq := by
    obtain ⟨parts, hparts, rfl⟩ := hrest.payload_eq
    by_cases h : (headerAt data position).decompressed = 0
    · rw [dataBlocks_cons_of_padding h, hread.padding h]
      exact ⟨parts, hparts, ByteArray.empty_append⟩
    · obtain ⟨_, _, hinflate⟩ := hread.stream h
      rw [dataBlocks_cons_of_data h]
      exact ⟨b.payload :: parts, List.Forall₂.cons hinflate hparts, rfl⟩
  reached := by
    have hreached := hrest.reached
    rw [hread.announced_eq] at hreached
    rw [announcedBy_cons]
    omega
  needed := by
    intro _
    by_cases hlast : positions = []
    · rw [hlast]
      exact hstated
    · have hneeded := hrest.needed hlast
      rw [hread.announced_eq] at hneeded
      rw [List.dropLast_cons_of_ne_nil hlast, announcedBy_cons]
      omega

end BlockChain

/-- The headers that a successful run of unpacking reads form a chain. -/
theorem blockChain_of_tracedBlocks {state : Unpacking} {all : ByteArray} (hover : state.Over data)
    (h : (tracedBlocks stated state).2.2 = .ok all) :
    ∃ payload, all = state.payload ++ payload ∧
      BlockChain data state.reader.position (stated - state.announced)
        (tracedBlocks stated state).1 payload := by
  fun_induction tracedBlocks stated state with
  | case1 state hless fault r hblock => cases h
  | case2 state hless b middle hblock fault r hleave => cases h
  | case3 state hless b middle hblock value next hleave later ih =>
    obtain ⟨hnext, hread⟩ := blockRead_of_step hover hblock hleave
    obtain ⟨payload, rfl, hchain⟩ := ih hnext h
    refine ⟨b.payload ++ payload, ByteArray.append_assoc, ?_⟩
    rw [header?_of_block_eq_ok hblock]
    apply BlockChain.cons hread (by omega)
    rw [Int.sub_sub]
    exact hchain
  | case4 state hmade =>
    cases h
    exact ⟨ByteArray.empty, ByteArray.append_empty.symm, BlockChain.nil (by omega)⟩

end Chain

section Container

variable {data : ByteArray}

/-- The unpacking that starts at the first block of a container. -/
def Unpacking.atFirstBlock (data : ByteArray) : Unpacking :=
  ⟨readerAt data firstBlock, 0, ByteArray.empty, #[]⟩

/-- Unpacking fails before any block is read, or reads blocks up to the size that stands in the
buffer. -/
theorem traced_cases (data : ByteArray) :
    (∃ fault, traced data = ([], #[], .error fault)) ∨
      traced data = tracedBlocks (statedSize data) (.atFirstBlock data) := by
  unfold traced
  cases hopening : opening (Reader.ofBytes .little data) with
  | error fault r => exact Or.inl ⟨fault, rfl⟩
  | ok stated r =>
    obtain ⟨hstated, hreader⟩ := opening_readerAt_eq_ok hopening
    right
    rw [hstated, hreader]
    rfl

theorem length_headersRead_le (data : ByteArray) :
    (headersRead data).length ≤ (data.size - 0x248) / 16 := by
  unfold headersRead
  rcases traced_cases data with ⟨fault, htraced⟩ | htraced
  · simp [htraced]
  · rw [htraced]
    have hover : (Unpacking.atFirstBlock data).Over data := rfl
    have hlength : 16 * _ ≤ ((data.size : Int) - 0x248).toNat :=
      length_tracedBlocks_le (statedSize data) hover
    omega

theorem headersRead_eq_nil (hstated : statedSize data ≤ 0) : headersRead data = [] := by
  unfold headersRead
  rcases traced_cases data with ⟨fault, htraced⟩ | htraced
  · rw [htraced]
  · rw [htraced, tracedBlocks, if_neg]
    exact Int.not_lt.2 hstated

theorem blockChain_of_unpack_eq_ok {payload : ByteArray} (h : (unpack data).2 = .ok payload) :
    BlockChain data firstBlock (statedSize data) (headersRead data) payload := by
  rw [← traced_snd] at h
  unfold headersRead
  rcases traced_cases data with ⟨fault, htraced⟩ | htraced
  · rw [htraced] at h
    cases h
  · rw [htraced] at h ⊢
    have hover : (Unpacking.atFirstBlock data).Over data := rfl
    obtain ⟨rest, hrest, hchain⟩ := blockChain_of_tracedBlocks hover h
    rw [hrest]
    have hzero : statedSize data - (Unpacking.atFirstBlock data).announced = statedSize data :=
      Int.sub_zero _
    rw [hzero] at hchain
    have hempty : (Unpacking.atFirstBlock data).payload ++ rest = rest := ByteArray.empty_append
    rw [hempty]
    exact hchain

end Container

/-- Unpacking reads no more headers than the buffer has room for behind its opening part, and none
if the stated size is not positive; and if it succeeds, the headers form a chain from the first
block on that holds the payload and makes up the stated size. -/
theorem headersRead_bounded_and_chained (data : ByteArray) :
    (traced data).2 = unpack data ∧
      (headersRead data).length ≤ (data.size - 0x248) / 16 ∧
      (statedSize data ≤ 0 → headersRead data = []) ∧
      ∀ payload, (unpack data).2 = .ok payload →
        BlockChain data firstBlock (statedSize data) (headersRead data) payload := by
  exact ⟨traced_snd data, length_headersRead_le data, headersRead_eq_nil,
    fun payload h ↦ blockChain_of_unpack_eq_ok h⟩

/-- A container of two data blocks, with bytes left over in the first one and behind the last. -/
def twoBlockSample : ByteArray :=
  ⟨(openingCode (fun _ ↦ 0) 3 ++
    headerCode ⟨7, 2, 10, 0x248⟩ ++ Deflate.storedStream [0x61, 0x62] ++ [0, 0, 0] ++
    headerCode ⟨6, 1, 6, 0x262⟩ ++ Deflate.storedStream [0x63] ++ [0xFF]).toArray⟩

theorem run_twoBlockSample :
    headersRead twoBlockSample = [0x248, 0x262] ∧
      (unpack twoBlockSample).2 = .ok ⟨#[0x61, 0x62, 0x63]⟩ := by
  have hrun : (traced twoBlockSample).1 = [0x248, 0x262] ∧
      (traced twoBlockSample).2.2.toOption = some ⟨#[0x61, 0x62, 0x63]⟩ := by decide +kernel
  obtain ⟨hheaders, hpayload⟩ := hrun
  rw [traced_snd] at hpayload
  exact ⟨hheaders, toOption_eq_some_iff.1 hpayload⟩

/-- The sample is unpacked along a chain of two headers. -/
theorem headersRead_twoBlockSample :
    headersRead twoBlockSample = [0x248, 0x262] ∧
      (unpack twoBlockSample).2 = .ok ⟨#[0x61, 0x62, 0x63]⟩ ∧
      BlockChain twoBlockSample firstBlock (statedSize twoBlockSample) [0x248, 0x262]
        ⟨#[0x61, 0x62, 0x63]⟩ := by
  obtain ⟨hheaders, hunpack⟩ := run_twoBlockSample
  obtain ⟨_, _, _, hchain⟩ := headersRead_bounded_and_chained twoBlockSample
  have hsample := hchain _ hunpack
  rw [hheaders] at hsample
  exact ⟨hheaders, hunpack, hsample⟩

end CompiledScript.Container
