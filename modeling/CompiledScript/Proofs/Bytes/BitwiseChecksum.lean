import CompiledScript.Proofs.Script.CodeSize

/-!
# The checksum of a whole message, bit by bit

The checksum is a division over the field of two elements. The message is the byte string as one
stream of bits, in which every byte starts with its lowest bit, and `oneShot` divides the stream by
the reflected polynomial `0xEDB88320`, from a remainder with all bits set, and complements the
remainder that is left.

The register of the running checksum takes in a whole byte before it makes eight steps. This comes
to the same, because a step is linear: bits that are put into the register early travel down
unchanged until it is their turn.
-/

namespace CompiledScript.Bytes.Crc32

/-- The lowest bits of a number, from the lowest one on. -/
def lowBits (count number : Nat) : List Bool :=
  (List.range count).map number.testBit

/-- A byte string as a stream of bits. -/
def message (data : ByteArray) : List Bool :=
  data.data.toList.flatMap fun byte ↦ lowBits 8 byte.toNat

/-- One step of the division: the remainder moves down by one place, and the polynomial is taken off
where the bit that leaves it differs from the next bit of the message. -/
def divide (remainder : BitVec 32) (bit : Bool) : BitVec 32 :=
  if remainder.getLsbD 0 = bit then remainder >>> 1 else (remainder >>> 1) ^^^ 0xEDB88320#32

/-- The checksum of a byte string as a whole. -/
def oneShot (data : ByteArray) : BitVec 32 :=
  ~~~ (message data).foldl divide (BitVec.allOnes 32)

theorem lowBits_succ (count number : Nat) :
    lowBits (count + 1) number = number.testBit 0 :: lowBits count (number >>> 1) := by
  unfold lowBits
  rw [List.range_succ_eq_map, List.map_cons, List.map_map]
  refine congrArg _ (List.map_congr_left fun place _ ↦ ?_)
  rw [Nat.testBit_shiftRight, Nat.add_comm]
  rfl

/-- The lowest bit of a word that was added to the remainder decides the next step, and its other
bits move down with the remainder. -/
theorem divide_xor (remainder word : BitVec 32) :
    divide (remainder ^^^ word) false = divide remainder (word.getLsbD 0) ^^^ word >>> 1 := by
  have hswap (first second third : BitVec 32) :
      first ^^^ second ^^^ third = first ^^^ third ^^^ second := by
    rw [BitVec.xor_assoc, BitVec.xor_comm second, ← BitVec.xor_assoc]
  unfold divide
  rw [BitVec.getLsbD_xor, BitVec.ushiftRight_xor_distrib]
  cases remainder.getLsbD 0 <;> cases word.getLsbD 0
  · rfl
  · exact hswap _ _ _
  · exact hswap _ _ _
  · rfl

/-- Dividing by the bits of a word is the same as adding the word to the remainder first, up to the
bits of the word that have not been reached. -/
theorem foldl_divide_xor (count : Nat) (remainder word : BitVec 32) :
    (List.replicate count false).foldl divide (remainder ^^^ word) =
      (lowBits count word.toNat).foldl divide remainder ^^^ word >>> count := by
  induction count generalizing remainder word with
  | zero => simp [lowBits]
  | succ count ih =>
    rw [List.replicate_succ, List.foldl_cons, divide_xor, ih, lowBits_succ, List.foldl_cons,
      BitVec.toNat_ushiftRight, ← BitVec.shiftRight_add, Nat.add_comm 1 count]
    rfl

theorem toBitVec_shift (register : UInt32) :
    (shift register).toBitVec = divide register.toBitVec false := by
  have hlow : register &&& 1 = 1 ↔ register.toBitVec.getLsbD 0 = true := by
    rw [← UInt32.toBitVec_inj, UInt32.toBitVec_and]
    change register.toBitVec &&& 1#32 = 1#32 ↔ _
    rw [BitVec.and_one_eq_setWidth_ofBool_getLsbD]
    cases register.toBitVec.getLsbD 0 <;> decide
  unfold shift divide
  simp only [hlow]
  cases register.toBitVec.getLsbD 0 <;> rfl

/-- The register takes in a byte as the division does, bit by bit. -/
theorem toBitVec_absorb (register : UInt32) (byte : UInt8) :
    (absorb register byte).toBitVec = (lowBits 8 byte.toNat).foldl divide register.toBitVec := by
  have hshifts (start : UInt32) :
      (shift (shift (shift (shift (shift (shift (shift (shift start)))))))).toBitVec =
        (List.replicate 8 false).foldl divide start.toBitVec := by
    simp only [toBitVec_shift]
    rfl
  have hpassed : byte.toUInt32.toBitVec >>> 8 = 0#32 := by
    apply BitVec.eq_of_toNat_eq
    have hbyte := byte.toNat_lt
    rw [BitVec.toNat_ushiftRight, UInt32.toNat_toBitVec, UInt8.toNat_toUInt32,
      Nat.shiftRight_eq_div_pow]
    exact Nat.div_eq_of_lt hbyte
  have hword : byte.toUInt32.toBitVec.toNat = byte.toNat := UInt8.toNat_toUInt32 byte
  unfold absorb
  rw [hshifts, UInt32.toBitVec_xor, foldl_divide_xor, hpassed, hword, BitVec.xor_zero]

theorem toBitVec_foldl_absorb (register : UInt32) (bytes : List UInt8) :
    (bytes.foldl absorb register).toBitVec =
      (bytes.flatMap fun byte ↦ lowBits 8 byte.toNat).foldl divide register.toBitVec := by
  induction bytes generalizing register with
  | nil => rfl
  | cons byte rest ih =>
    rw [List.foldl_cons, ih, toBitVec_absorb, List.flatMap_cons, List.foldl_append]

/-- The checksum that is made byte by byte is that of the message as a whole. -/
theorem toBitVec_checksum (data : ByteArray) : (checksum data).toBitVec = oneShot data := by
  rw [checksum_eq_foldl, UInt32.toBitVec_not, toBitVec_foldl_absorb]
  rfl

example : oneShot ⟨#[0x31, 0x32, 0x33, 0x34, 0x35, 0x36, 0x37, 0x38, 0x39]⟩ = 0xCBF43926#32 := by
  decide +kernel

end CompiledScript.Bytes.Crc32
