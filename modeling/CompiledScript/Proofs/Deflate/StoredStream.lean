import CompiledScript.Deflate.Inflate
import CompiledScript.Proofs.Bytes.Held
import CompiledScript.Proofs.Number.LittleEndian

/-!
# Streams of stored bytes

The simplest stream for a list of bytes stores them as they are, in pieces of at most `0xFFFF`
bytes. Each block of such a stream ends at a byte boundary, so the next one starts at its own byte,
and the decoder of bits is followed byte by byte.
-/

namespace CompiledScript.Deflate

open Bytes Number

/-- The longest piece that a block can store. -/
def storedLimit : Nat := 0xFFFF

/-- A block that stores a piece, from a byte boundary on. -/
def storedPiece (isLast : Bool) (piece : List UInt8) : List UInt8 :=
  [[if isLast then 1 else 0], toLittleEndian 2 piece.length,
    toLittleEndian 2 (storedLimit - piece.length : Nat), piece].flatten

def storedStream (content : List UInt8) : List UInt8 :=
  if content.length ≤ storedLimit then storedPiece true content
  else storedPiece false (content.take storedLimit) ++ storedStream (content.drop storedLimit)
  termination_by content.length
  decreasing_by
    rw [List.length_drop]
    unfold storedLimit at *
    omega

section Bits

variable {data : ByteArray} {start index count high next : Nat} {byte : UInt8}
  {run rest : List UInt8}

theorem bit_of_holds (h : Holds data start (byte :: rest)) (hindex : index < 8) :
    bit data (8 * start + index) = .ok (byte.toNat.testBit index, 8 * start + index + 1) := by
  obtain ⟨hinside, hbyte⟩ := h.head_eq
  have hplace : (8 * start + index) / 8 = start := by omega
  have hshift : (8 * start + index) % 8 = index := by omega
  have hat : bitAt? data (8 * start + index) = some (byte.toNat.testBit index) := by
    unfold bitAt?
    rw [hplace, hshift, getElem?_pos data start hinside]
    rw [← hbyte]
    rfl
  unfold bit
  rw [hat]

theorem bits_succ_of_holds (h : Holds data start (byte :: rest)) (hindex : index < 8)
    (hrest : bits count data (8 * start + (index + 1)) = .ok (high, next)) :
    bits (count + 1) data (8 * start + index) =
      .ok ((byte.toNat.testBit index).toNat + 2 * high, next) := by
  apply bind_eq_ok.2
  refine ⟨_, _, bit_of_holds h hindex, ?_⟩
  apply bind_eq_ok.2
  exact ⟨high, next, hrest, rfl⟩

private theorem sum_testBit_eq : ∀ n < 256,
    (n.testBit 0).toNat + 2 * ((n.testBit 1).toNat + 2 * ((n.testBit 2).toNat +
      2 * ((n.testBit 3).toNat + 2 * ((n.testBit 4).toNat + 2 * ((n.testBit 5).toNat +
        2 * ((n.testBit 6).toNat + 2 * (n.testBit 7).toNat)))))) = n := by
  decide +kernel

/-- Eight bits from a byte boundary on are the byte that stands there. -/
theorem bits_byte_of_holds (h : Holds data start (byte :: rest))
    (hrest : bits count data (8 * (start + 1)) = .ok (high, next)) :
    bits (count + 8) data (8 * start) = .ok (byte.toNat + 256 * high, next) := by
  have h₇ := bits_succ_of_holds h (by decide : 7 < 8) hrest
  have h₆ := bits_succ_of_holds h (by decide : 6 < 8) h₇
  have h₅ := bits_succ_of_holds h (by decide : 5 < 8) h₆
  have h₄ := bits_succ_of_holds h (by decide : 4 < 8) h₅
  have h₃ := bits_succ_of_holds h (by decide : 3 < 8) h₄
  have h₂ := bits_succ_of_holds h (by decide : 2 < 8) h₃
  have h₁ := bits_succ_of_holds h (by decide : 1 < 8) h₂
  have h₀ := bits_succ_of_holds h (by decide : 0 < 8) h₁
  have hbyte := sum_testBit_eq byte.toNat byte.toNat_lt
  refine h₀.trans (congrArg (fun value ↦ Except.ok (value, next)) ?_)
  conv_rhs => rw [← hbyte]
  ring

/-- Whole bytes are read as the number that they stand for. -/
theorem bits_of_holds (h : Holds data start run) :
    bits (8 * run.length) data (8 * start) =
      .ok (ofLittleEndian run, 8 * (start + run.length)) := by
  induction run generalizing start with
  | nil => rfl
  | cons byte rest ih =>
    have hrest : bits (8 * rest.length) data (8 * (start + 1)) = _ := ih h.tail
    rw [Nat.add_assoc, Nat.add_comm 1] at hrest
    exact bits_byte_of_holds h hrest

theorem bits_toLittleEndian {value : Nat} (hvalue : FitsUnsigned 2 value)
    (h : Holds data start (toLittleEndian 2 value)) :
    bits 16 data (8 * start) = .ok (value, 8 * (start + 2)) := by
  have hbits := bits_of_holds h
  rwa [length_toLittleEndian, ofLittleEndian_toLittleEndian_unsigned hvalue] at hbits

theorem wholeBytes_of_holds (h : Holds data start run) :
    wholeBytes run.length data (8 * start) = .ok (⟨run.toArray⟩, 8 * (start + run.length)) := by
  have hstop := h.stop_le_size
  have hplace : 8 * start / 8 = start := by omega
  have hrun : data.extract start (start + run.length) = ⟨run.toArray⟩ := h.extract_eq_toArray
  unfold wholeBytes
  rw [hplace, if_pos (by omega), hrun, Nat.mul_add]

end Bits

section Blocks

variable {data output whole : ByteArray} {start position next : Nat} {piece : List UInt8}

variable (output) in
theorem storedBlock_of_holds (hpiece : piece.length ≤ storedLimit)
    (hstart : (position + 7) / 8 = start)
    (h : Holds data start [toLittleEndian 2 piece.length,
      toLittleEndian 2 (storedLimit - piece.length : Nat), piece].flatten) :
    storedBlock output data position =
      .ok (output ++ ⟨piece.toArray⟩, 8 * (start + (4 + piece.length))) := by
  simp only [List.flatten_cons, List.flatten_nil, List.append_nil] at h
  have hfits (length : Nat) (hlength : length ≤ storedLimit) : FitsUnsigned 2 length := by
    change length < 65536
    unfold storedLimit at hlength
    omega
  have hsecond := h.right
  rw [length_toLittleEndian] at hsecond
  have hthird := hsecond.right
  rw [length_toLittleEndian] at hthird
  have halign : alignToByte data position = .ok ((), 8 * start) := by
    unfold alignToByte
    rw [hstart, Nat.mul_comm]
  apply bind_eq_ok.2
  refine ⟨(), 8 * start, halign, ?_⟩
  apply bind_eq_ok.2
  refine ⟨piece.length, _, bits_toLittleEndian (hfits _ hpiece) h.left, ?_⟩
  apply bind_eq_ok.2
  refine ⟨storedLimit - piece.length, _, bits_toLittleEndian (hfits _ (by omega)) hsecond.left, ?_⟩
  rw [if_pos (by unfold storedLimit at *; omega)]
  apply bind_eq_ok.2
  refine ⟨_, _, wholeBytes_of_holds hthird, ?_⟩
  rw [Nat.add_assoc, Nat.add_assoc, ← Nat.add_assoc 2]
  rfl

/-- A block that stores a piece is read up to the next byte boundary. -/
theorem nextBlock_of_holds {isLast : Bool} (hpiece : piece.length ≤ storedLimit)
    (h : Holds data start (storedPiece isLast piece)) :
    nextBlock output data (8 * start) =
      .ok ((isLast, output ++ ⟨piece.toArray⟩),
        8 * (start + (storedPiece isLast piece).length)) := by
  have hlength : (storedPiece isLast piece).length = 1 + (4 + piece.length) := by
    unfold storedPiece
    simp only [List.flatten_cons, List.flatten_nil, List.append_nil, List.length_append,
      List.length_singleton, length_toLittleEndian]
    omega
  rw [hlength, ← Nat.add_assoc]
  unfold storedPiece at h
  rw [List.flatten_cons] at h
  have hflag : bit data (8 * start) = .ok (isLast, 8 * start + 1) := by
    refine (bit_of_holds h (by decide : 0 < 8)).trans ?_
    cases isLast <;> rfl
  have hkind : bits 2 data (8 * start + 1) = .ok (0, 8 * start + 3) := by
    refine (bits_succ_of_holds h (by decide : 1 < 8)
      (bits_succ_of_holds h (by decide : 2 < 8) rfl)).trans ?_
    cases isLast <;> rfl
  have hstored := storedBlock_of_holds output hpiece
    (by omega : (8 * start + 3 + 7) / 8 = start + 1) h.right
  apply bind_eq_ok.2
  refine ⟨isLast, _, hflag, ?_⟩
  apply bind_eq_ok.2
  refine ⟨0, _, hkind, ?_⟩
  apply bind_eq_ok.2
  exact ⟨_, _, hstored, rfl⟩

theorem blocks_of_last (h : nextBlock output data position = .ok ((true, whole), next)) :
    blocks data position output = .ok whole := by
  rw [blocks]
  split
  · rename_i hfault
    rw [h] at hfault
    cases hfault
  · rename_i hfound
    rw [h] at hfound
    cases hfound
    rfl
  · rename_i hfound
    rw [h] at hfound
    cases hfound

theorem blocks_of_more (h : nextBlock output data position = .ok ((false, whole), next)) :
    blocks data position output = blocks data next whole := by
  rw [blocks]
  split
  · rename_i hfault
    rw [h] at hfault
    cases hfault
  · rename_i hfound
    rw [h] at hfound
    cases hfound
  · rename_i hfound
    rw [h] at hfound
    cases hfound
    rfl

variable (output) in
theorem blocks_storedStream {content : List UInt8} (h : Holds data start (storedStream content)) :
    blocks data (8 * start) output = .ok (output ++ ⟨content.toArray⟩) := by
  fun_induction storedStream content generalizing start output with
  | case1 content hshort => exact blocks_of_last (nextBlock_of_holds hshort h)
  | case2 content hlong ih =>
    have hpiece : (content.take storedLimit).length ≤ storedLimit := List.length_take_le _ _
    rw [blocks_of_more (nextBlock_of_holds hpiece h.left), ih _ h.right, append_toArray_append,
      List.take_append_drop]

end Blocks

/-- Inflating the stream that stores a list of bytes gives back the bytes. -/
theorem inflate_storedStream (content : List UInt8) :
    inflate ⟨(storedStream content).toArray⟩ = .ok ⟨content.toArray⟩ := by
  have hheld : Holds ⟨(storedStream content).toArray⟩ (0 : Nat) (storedStream content) :=
    ⟨[], [], by simp, rfl⟩
  have hblocks := blocks_storedStream ByteArray.empty hheld
  rwa [ByteArray.empty_append] at hblocks

end CompiledScript.Deflate
