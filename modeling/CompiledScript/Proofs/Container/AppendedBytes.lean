import CompiledScript.Proofs.Container.ExtractionFaults
import CompiledScript.Proofs.Container.Unpacking
import CompiledScript.Proofs.Reader.Appended

/-!
# Unpacking a container with bytes behind it

A container that was unpacked is unpacked in the same way when there are further bytes behind it:
the blocks make up the stated size before the reader gets there, and a stream is inflated from the
bytes that its header counts, wherever the buffer ends.
-/

namespace CompiledScript.Container

open Reader

variable (tail : ByteArray)

theorem extends_checkFlags (flags : ByteArray) : Extends tail (checkFlags flags) := by
  unfold checkFlags
  split
  · exact unaffected_throw _
  · split
    · exact unaffected_throw _
    · split
      · exact unaffected_throw _
      · exact unaffected_pure _

theorem extends_opening : Extends tail opening := by
  refine (extends_bytes tail _).bind fun found ↦ ?_
  split
  · exact unaffected_throw _
  · refine (extends_unsigned tail 4).bind fun foundVersion ↦ ?_
    split
    · exact unaffected_throw _
    · exact (extends_bytes tail 4).bind fun flags ↦ (extends_checkFlags tail flags).bind fun _ ↦
        (extends_seek tail _).bind fun _ ↦ ((composed_signed 8).extends tail).bind fun _ ↦
          (extends_seek tail _).map _

theorem extends_dataBlock (header : BlockHeader) : Extends tail (dataBlock header) := by
  unfold dataBlock
  split
  · exact unaffected_throw _
  · refine (extends_bytes tail _).bind fun stream ↦ ?_
    split
    · exact unaffected_pure _
    · exact unaffected_throw _

theorem extends_block : Extends tail block := by
  refine (composed_blockHeader.extends tail).bind fun header ↦
    unaffected_get_bind (fun _ ↦ rfl) fun r ↦ ?_
  dsimp only
  split
  · exact unaffected_throw _
  · split
    · exact unaffected_throw _
    · split
      · exact unaffected_pure _
      · exact extends_dataBlock tail header

/-- The unpacking with bytes appended to the container. -/
def Unpacking.appended (state : Unpacking) : Unpacking :=
  { state with reader := state.reader.appended tail }

/-- Blocks that make up the stated size do so whatever is behind them. -/
theorem unpackBlocks_append {stated : Int} {state : Unpacking} {payload : ByteArray}
    (hreader : state.reader.NotBefore) (h : (unpackBlocks stated state).2 = .ok payload) :
    (unpackBlocks stated (state.appended tail)).2 = .ok payload := by
  fun_induction unpackBlocks stated state with
  | case1 state hless fault after hblock => cases h
  | case2 state hless b middle hblock fault after hleave => cases h
  | case3 state hless b middle hblock value next hleave ih =>
    obtain ⟨hmiddle, hblock'⟩ := extends_block tail _ _ _ hreader hblock
    obtain ⟨hnext, hleave'⟩ := (composed_leave b).extends tail _ _ _ hmiddle hleave
    have hless' : (state.appended tail).announced < stated := hless
    rw [unpackBlocks_of_ok hless' hblock' hleave']
    exact ih hnext h
  | case4 state hmade =>
    have hmade' : stated ≤ (state.appended tail).announced := Int.not_lt.1 hmade
    rw [unpackBlocks_of_le hmade']
    exact h

/-- A container is unpacked in the same way with bytes behind it. -/
theorem unpack_append {data payload : ByteArray} (h : (unpack data).2 = .ok payload) :
    (unpack (data ++ tail)).2 = .ok payload := by
  unfold unpack at h ⊢
  cases hopening : opening (Reader.ofBytes .little data) with
  | error fault r =>
    rw [hopening] at h
    cases h
  | ok stated r =>
    rw [hopening] at h
    have hstart : (Reader.ofBytes .little data).NotBefore := Int.le_refl 0
    obtain ⟨hreader, hlonger⟩ := extends_opening tail _ _ _ hstart hopening
    have hopening' : opening (Reader.ofBytes .little (data ++ tail)) =
        .ok stated (r.appended tail) := hlonger
    rw [hopening']
    exact unpackBlocks_append tail hreader h

end CompiledScript.Container
