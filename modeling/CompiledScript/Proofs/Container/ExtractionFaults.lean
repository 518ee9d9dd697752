import CompiledScript.Container.Extract
import CompiledScript.Proofs.Container.BlockHeaders
import CompiledScript.Proofs.Reader.Composed

/-!
# How extracting scripts fails

Unpacking a container and cutting out its scripts fails over what stands in front of the blocks,
over a block that contradicts itself, where the bytes end too early, or because no scripts are known
for the game. `ExtractionFault` lists the ways. A complaint about a flag is backed by the flag byte:
the flags are only looked at once all four of them have been read.
-/

namespace CompiledScript.Container

open Bytes Reader

/-- A way in which extracting the scripts of a game from a container can fail. -/
inductive ExtractionFault (tag : String) (data : ByteArray) : Fault → Prop where
  | signature (hstart : ¬ Container.signature.data.toList <+: data.data.toList) :
      ExtractionFault tag data .containerSignature
  | version {found : Nat} (hfound : found = unsignedAt data 4 8)
      (hother : found ≠ Container.version) : ExtractionFault tag data (.containerVersion found)
  | compression {flag : UInt8} (hflag : data[13]? = some flag) (hother : flag ≠ 1) :
      ExtractionFault tag data .containerCompression
  | platform {flag : UInt8} (hflag : data[14]? = some flag) (hother : flag ≠ 4) :
      ExtractionFault tag data .containerPlatform
  | encryption {flag : UInt8} (hflag : data[15]? = some flag) (hother : flag ≠ 0) :
      ExtractionFault tag data .containerEncrypted
  | corruption {fault : Fault} (hkind : fault.kind = .corruption) : ExtractionFault tag data fault
  | truncation {fault : Fault} (hkind : fault.kind = .truncation) : ExtractionFault tag data fault
  | game (hgame : ∀ game ∈ Game.all, game.tag ≠ tag) :
      ExtractionFault tag data (.noScriptSignature tag)

variable {tag : String} {data : ByteArray} {r r' : Reader} {fault : Fault}

/-! ## In front of the blocks -/

/-- A flag that is not the wanted one is some other byte. -/
theorem flag_of_ne {place : Nat} {wanted : UInt8} (hsize : 16 ≤ data.size) (hplace : place < 4)
    (h : (data.extract 12 16)[place]? ≠ some wanted) :
    ∃ flag, data[12 + place]? = some flag ∧ flag ≠ wanted := by
  have hinside : place < (data.extract 12 16).size := by
    rw [ByteArray.size_extract]
    omega
  rw [getElem?_pos (data.extract 12 16) place hinside, ByteArray.getElem_extract] at h
  refine ⟨_, getElem?_pos data (12 + place) (by omega), ?_⟩
  exact fun heq ↦ h (congrArg some heq)

theorem extractionFault_of_checkFlags_eq_error (hsize : 16 ≤ data.size)
    (h : checkFlags (data.extract 12 16) r = .error fault r') : ExtractionFault tag data fault := by
  unfold checkFlags at h
  split at h
  · rename_i hcompression
    cases h
    obtain ⟨flag, hflag, hother⟩ := flag_of_ne hsize (by decide) hcompression
    exact .compression hflag hother
  · split at h
    · rename_i hplatform
      cases h
      obtain ⟨flag, hflag, hother⟩ := flag_of_ne hsize (by decide) hplatform
      exact .platform hflag hother
    · split at h
      · rename_i hencryption
        cases h
        obtain ⟨flag, hflag, hother⟩ := flag_of_ne hsize (by decide) hencryption
        exact .encryption hflag hother
      · cases h

theorem extractionFault_of_opening_eq_error (h : opening (readerAt data 0) = .error fault r) :
    ExtractionFault tag data fault := by
  have hopen (position : Int) : (readerAt data position).Open data := rfl
  rcases bind_eq_error.1 h with hfound | ⟨found, _, hfound, h⟩
  · exact .truncation ((confined_bytes _).fault _ _ _ (hopen 0) hfound)
  obtain ⟨hfirst, _, rfl⟩ := bytes_readerAt_eq_ok (by decide) hfound
  rw [Int.zero_add, Int.toNat_natCast, Int.toNat_zero] at hfirst
  rw [show (0 : Int) + signature.size = 8 from rfl] at h
  split at h
  · rename_i hsignature
    cases h
    refine .signature fun hstart ↦ hsignature ?_
    rw [hfirst]
    exact extract_zero_eq_iff_startsWith.2 hstart
  rcases bind_eq_error.1 h with hversion | ⟨version, _, hversion, h⟩
  · exact .truncation ((confined_unsigned 4).fault _ _ _ (hopen 8) hversion)
  obtain ⟨hnumber, _, _, rfl⟩ := unsigned_readerAt_eq_ok hversion
  rw [show (8 : Int) + (4 : Nat) = 12 from rfl] at h
  split at h
  · rename_i hother
    cases h
    exact .version hnumber hother
  rcases bind_eq_error.1 h with hflags | ⟨flags, _, hflags, h⟩
  · exact .truncation ((confined_bytes 4).fault _ _ _ (hopen 12) hflags)
  obtain ⟨hfour, hsize, rfl⟩ := bytes_readerAt_eq_ok (by decide) hflags
  replace hfour : flags = data.extract 12 16 := hfour
  rcases bind_eq_error.1 h with hchecked | ⟨_, _, hchecked, h⟩
  · rw [hfour] at hchecked
    exact extractionFault_of_checkFlags_eq_error (by omega) hchecked
  obtain rfl := checkFlags_eq_ok hchecked
  -- Behind the flags there are only moves and the stated size.
  have hrest : Composed (seek sizePosition >>= fun _ ↦ i64 >>= fun size ↦
      seek firstBlock >>= fun _ ↦ pure size) :=
    (Composed.seek _).bind fun _ ↦ (composed_signed 8).bind fun _ ↦ (Composed.seek _).map _
  exact .truncation (hrest.confined.fault _ _ _ (hopen _) h)

/-! ## Blocks -/

/-- The container contradicts itself, or ends too early. -/
def IsBlockFault (fault : Fault) : Prop :=
  fault.kind = .corruption ∨ fault.kind = .truncation

theorem composed_blockHeader : Composed blockHeader :=
  (composed_signed 4).bind fun _ ↦ (composed_signed 4).bind fun _ ↦
    (composed_signed 4).bind fun _ ↦ (composed_signed 4).map _

theorem confined_dataBlock (header : BlockHeader) :
    Confined (Open data) IsBlockFault (dataBlock header) := by
  unfold dataBlock
  split
  · exact confined_throw (Or.inl rfl)
  · refine ((confined_bytes _).mono fun _ ↦ Or.inr).bind fun stream ↦ ?_
    split
    · exact confined_pure _
    · exact confined_throw (Or.inl rfl)

theorem confined_block : Confined (Open data) IsBlockFault block := by
  refine (composed_blockHeader.confined.mono fun _ ↦ Or.inr).bind fun header ↦
    confined_get.bind fun r ↦ ?_
  dsimp only
  split
  · exact confined_throw (Or.inl rfl)
  · split
    · exact confined_throw (Or.inl rfl)
    · split
      · exact confined_pure _
      · exact confined_dataBlock header

theorem composed_leave (b : Block) : Composed b.leave := by
  cases b with
  | padding position count => exact composed_skip count
  | data header bytes => exact .seek _

theorem isBlockFault_of_unpackBlocks {stated : Int} {state : Unpacking}
    (hopen : state.reader.Open data) (h : (unpackBlocks stated state).2 = .error fault) :
    IsBlockFault fault := by
  fun_induction unpackBlocks stated state with
  | case1 state hless cause after hblock =>
    cases h
    exact confined_block.fault _ _ _ hopen hblock
  | case2 state hless b middle hblock cause after hleave =>
    cases h
    have hmiddle := confined_block.keeps _ _ _ hopen hblock
    exact Or.inr ((composed_leave b).confined.fault _ _ _ hmiddle hleave)
  | case3 state hless b middle hblock value next hleave ih =>
    have hmiddle := confined_block.keeps _ _ _ hopen hblock
    exact ih ((composed_leave b).confined.keeps _ _ _ hmiddle hleave) h
  | case4 state hmade => cases h

theorem extractionFault_of_unpack (h : (unpack data).2 = .error fault) :
    ExtractionFault tag data fault := by
  unfold unpack at h
  split at h
  · rename_i cause after hopening
    cases h
    exact extractionFault_of_opening_eq_error hopening
  · rename_i stated after hopening
    obtain ⟨_, rfl⟩ := opening_readerAt_eq_ok hopening
    have hopen : (readerAt data firstBlock).Open data := rfl
    rcases isBlockFault_of_unpackBlocks hopen h with hkind | hkind
    · exact .corruption hkind
    · exact .truncation hkind

/-! ## Scripts in the payload -/

theorem confined_embeddedAt (offset : Nat) :
    Confined (Open data) Truncates (embeddedAt offset) :=
  (confined_seek _).bind fun _ ↦ (confined_unsigned 4).bind fun _ ↦ (confined_seek _).bind fun _ ↦
    (confined_unsigned 2).bind fun _ ↦ (composed_peekText _).confined.bind fun _ ↦
      (confined_seek _).bind fun _ ↦ (confined_bytes _).bind fun _ ↦ confined_pure _

theorem truncates_of_extractAt {payload : ByteArray} {offsets : List Nat}
    (h : (extractAt payload offsets).fault = some fault) : Truncates fault := by
  induction offsets with
  | nil => cases h
  | cons offset rest ih =>
    unfold extractAt at h
    split at h
    · rename_i cause after hembedded
      cases h
      have hopen : (Reader.ofBytes .little payload).Open payload := rfl
      exact (confined_embeddedAt offset).fault _ _ _ hopen hembedded
    · exact ih h

theorem extractionFault_of_extract {payload : ByteArray}
    (h : (extract tag payload).fault = some fault) : ExtractionFault tag data fault := by
  unfold extract at h
  split at h
  · rename_i hfind
    cases h
    refine .game fun game hgame ↦ ?_
    simpa using List.find?_eq_none.1 hfind game hgame
  · exact .truncation (truncates_of_extractAt h)

/-- Extracting the scripts of a container fails in one of the ways that are listed. -/
theorem extractionFault_of_scripts (h : (scripts tag data).2 = .error fault) :
    ExtractionFault tag data fault := by
  unfold scripts at h
  cases hunpack : (unpack data).2 with
  | error cause =>
    simp only [hunpack] at h
    cases h
    exact extractionFault_of_unpack hunpack
  | ok payload =>
    simp only [hunpack] at h
    unfold Extraction.result at h
    split at h
    · cases h
    · rename_i cause hfault
      cases h
      exact extractionFault_of_extract hfault

end CompiledScript.Container
