import CompiledScript.Proofs.Container.BlockChain

/-!
# The sizes that blocks announce

Unpacking counts a block by the size that its header announces, and appends what the stream of the
block inflates to. Nothing compares the two. So even if the announced sizes make up the stated size
exactly, the payload is longer or shorter than stated by what the blocks inflate to beyond their
announcements, and has the stated length when every header tells the truth.
-/

namespace CompiledScript.Container

/-- The number of bytes that the stream of the block at a position inflates to. -/
def inflatedSize (data : ByteArray) (position : Int) : Int :=
  match Deflate.inflate (streamAt data position) with
  | .ok bytes => bytes.size
  | .error _ => 0

/-- The number of bytes that the block at a position inflates to beyond its announcement. -/
def surplus (data : ByteArray) (position : Int) : Int :=
  inflatedSize data position - (headerAt data position).decompressed

variable {data : ByteArray} {start stated : Int} {positions : List Int} {payload : ByteArray}

theorem inflatedSize_of_eq_ok {position : Int} {bytes : ByteArray}
    (h : Deflate.inflate (streamAt data position) = .ok bytes) :
    inflatedSize data position = bytes.size := by
  rw [inflatedSize, h]

theorem size_foldr_append {parts : List ByteArray}
    (h : List.Forall₂ (fun position part ↦ Deflate.inflate (streamAt data position) = .ok part)
      positions parts) :
    ((parts.foldr (· ++ ·) ByteArray.empty).size : Int) =
      (positions.map (inflatedSize data)).sum := by
  induction h with
  | nil => rfl
  | cons hinflate _ ih =>
    rw [List.foldr_cons, ByteArray.size_append, Int.natCast_add, ih, List.map_cons, List.sum_cons,
      inflatedSize_of_eq_ok hinflate]

/-- The payload of a chain has the size that its blocks announce together with what they inflate to
beyond that. -/
theorem BlockChain.payload_size (h : BlockChain data start stated positions payload) :
    (payload.size : Int) =
      announcedBy data positions + ((dataBlocks data positions).map (surplus data)).sum := by
  obtain ⟨parts, hparts, rfl⟩ := h.payload_eq
  calc
    _ = ((dataBlocks data positions).map (inflatedSize data)).sum := size_foldr_append hparts
    _ = ((dataBlocks data positions).map fun position ↦
        (headerAt data position).decompressed + surplus data position).sum := by
      simp only [surplus, add_sub_cancel]
    _ = _ := List.sum_map_add

/-- Where the blocks announce exactly the stated size, the length of the payload differs from it by
what the blocks inflate to beyond their announcements, and by nothing if each block inflates to as
many bytes as it announces. -/
theorem payload_size_sub_statedSize (data payload : ByteArray)
    (h : (unpack data).2 = .ok payload)
    (hexact : announcedBy data (headersRead data) = statedSize data) :
    (payload.size : Int) - statedSize data =
        ((dataBlocks data (headersRead data)).map (surplus data)).sum ∧
      ((∀ position ∈ dataBlocks data (headersRead data),
          inflatedSize data position = (headerAt data position).decompressed) →
        (payload.size : Int) = statedSize data) := by
  have hsize := (blockChain_of_unpack_eq_ok h).payload_size
  rw [hexact] at hsize
  refine ⟨by omega, fun hhonest ↦ ?_⟩
  have hzero : ((dataBlocks data (headersRead data)).map (surplus data)).sum = 0 := by
    apply List.sum_eq_zero
    intro value hvalue
    obtain ⟨position, hmember, rfl⟩ := List.mem_map.1 hvalue
    rw [surplus, hhonest position hmember, Int.sub_self]
  omega

/-- A container that states five bytes, with one block that announces five and inflates to two. -/
def overstatedSample : ByteArray :=
  ⟨(openingCode (fun _ ↦ 0) 5 ++ headerCode ⟨7, 5, 7, 0x248⟩ ++
    Deflate.storedStream [0x61, 0x62]).toArray⟩

theorem run_overstatedSample :
    headersRead overstatedSample = [0x248] ∧
      (unpack overstatedSample).2 = .ok ⟨#[0x61, 0x62]⟩ := by
  have hrun : (traced overstatedSample).1 = [0x248] ∧
      (traced overstatedSample).2.2.toOption = some ⟨#[0x61, 0x62]⟩ := by decide +kernel
  obtain ⟨hheaders, hpayload⟩ := hrun
  rw [traced_snd] at hpayload
  exact ⟨hheaders, toOption_eq_some_iff.1 hpayload⟩

theorem sizes_overstatedSample :
    statedSize overstatedSample = 5 ∧
      announcedBy overstatedSample (headersRead overstatedSample) = 5 := by
  rw [run_overstatedSample.1]
  decide +kernel

theorem sizes_twoBlockSample :
    announcedBy twoBlockSample [0x248, 0x262] = statedSize twoBlockSample ∧
      ∀ position ∈ dataBlocks twoBlockSample [0x248, 0x262],
        inflatedSize twoBlockSample position =
          (headerAt twoBlockSample position).decompressed := by
  decide +kernel

/-- A payload that differs from the stated size by the surplus of its block, and one that has the
stated size because its blocks tell the truth. -/
theorem payload_size_samples :
    ((unpack overstatedSample).2 = .ok ⟨#[0x61, 0x62]⟩ ∧
      announcedBy overstatedSample (headersRead overstatedSample) = statedSize overstatedSample ∧
      (2 : Int) - statedSize overstatedSample =
        ((dataBlocks overstatedSample (headersRead overstatedSample)).map
          (surplus overstatedSample)).sum) ∧
    (unpack twoBlockSample).2 = .ok ⟨#[0x61, 0x62, 0x63]⟩ ∧
      announcedBy twoBlockSample (headersRead twoBlockSample) = statedSize twoBlockSample ∧
      (3 : Int) = statedSize twoBlockSample := by
  obtain ⟨_, hoverstated⟩ := run_overstatedSample
  obtain ⟨hstated, hannounced⟩ := sizes_overstatedSample
  have hequal := hannounced.trans hstated.symm
  obtain ⟨hheaders, hunpack⟩ := run_twoBlockSample
  obtain ⟨hexact, hhonest⟩ := sizes_twoBlockSample
  rw [← hheaders] at hexact hhonest
  exact ⟨⟨hoverstated, hequal, (payload_size_sub_statedSize _ _ hoverstated hequal).1⟩,
    hunpack, hexact, (payload_size_sub_statedSize _ _ hunpack hexact).2 hhonest⟩

/-- The blocks of a container can announce exactly the stated size, and the payload yet be of
another length. -/
theorem exists_unpack_size_ne_statedSize :
    ∃ data payload : ByteArray, (unpack data).2 = .ok payload ∧ 0 ≤ statedSize data ∧
      announcedBy data (headersRead data) = statedSize data ∧
      (payload.size : Int) ≠ statedSize data := by
  obtain ⟨_, hunpack⟩ := run_overstatedSample
  obtain ⟨hstated, hannounced⟩ := sizes_overstatedSample
  refine ⟨overstatedSample, _, hunpack, ?_, hannounced.trans hstated.symm, ?_⟩
  · rw [hstated]
    decide
  · rw [hstated]
    decide

end CompiledScript.Container
