import CompiledScript.Number.ByteOrder
import Mathlib.Tactic.Ring

/-!
# Writing fixed-width integers

The `width` bytes of an integer are the base 256 digits of its residue modulo `256 ^ width`, least
significant first. This is two's complement for a negative integer, so one writer serves the signed
and the unsigned fields, and a field is read back exactly if the integer lies in its range.
-/

namespace CompiledScript.Number

/-- The `width` bytes of an integer in two's complement, least significant first. -/
def toLittleEndian : Nat → Int → List UInt8
  | 0, _ => []
  | width + 1, value => UInt8.ofNat (value % 256).toNat :: toLittleEndian width (value / 256)

def FitsUnsigned (width value : Nat) : Prop :=
  value < Nat.pow 256 width

def FitsSigned (width : Nat) (value : Int) : Prop :=
  -(Nat.pow 256 width : Int) ≤ 2 * value ∧ 2 * value < Nat.pow 256 width

instance (width value : Nat) : Decidable (FitsUnsigned width value) :=
  inferInstanceAs (Decidable (_ < _))

instance (width : Nat) (value : Int) : Decidable (FitsSigned width value) :=
  inferInstanceAs (Decidable (_ ∧ _))

@[simp] theorem length_toLittleEndian (width : Nat) (value : Int) :
    (toLittleEndian width value).length = width := by
  induction width generalizing value with
  | zero => rfl
  | succ width ih => simp [toLittleEndian, ih]

private theorem emod_mul_eq (value modulus : Int) (hmodulus : 0 < modulus) :
    value % (256 * modulus) = value % 256 + 256 * (value / 256 % modulus) := by
  have hlow := Int.emod_nonneg value (by decide : (256 : Int) ≠ 0)
  have hhigh := Int.emod_lt_of_pos value (by decide : (0 : Int) < 256)
  have hquotient := Int.emod_nonneg (value / 256) (by omega : modulus ≠ 0)
  have hquotient' := Int.emod_lt_of_pos (value / 256) hmodulus
  have hsplit : value = value % 256 + 256 * (value / 256 % modulus) +
      256 * modulus * (value / 256 / modulus) := by
    calc
      value = value % 256 + 256 * (value / 256) := (Int.emod_add_mul_ediv value 256).symm
      _ = value % 256 + 256 * (value / 256 % modulus + modulus * (value / 256 / modulus)) := by
        rw [Int.emod_add_mul_ediv (value / 256) modulus]
      _ = _ := by ring
  conv_lhs => rw [hsplit]
  rw [Int.add_mul_emod_self_left]
  apply Int.emod_eq_of_lt
  · omega
  · calc
      value % 256 + 256 * (value / 256 % modulus) < 256 + 256 * (value / 256 % modulus) := by omega
      _ = 256 * (value / 256 % modulus + 1) := by ring
      _ ≤ 256 * modulus := by omega

/-- Reading the bytes of an integer gives its residue. -/
theorem ofLittleEndian_toLittleEndian (width : Nat) (value : Int) :
    (ofLittleEndian (toLittleEndian width value) : Int) = value % (Nat.pow 256 width : Int) := by
  induction width generalizing value with
  | zero => simp [toLittleEndian, ofLittleEndian, Nat.pow]
  | succ width ih =>
    have hlow := Int.emod_nonneg value (by decide : (256 : Int) ≠ 0)
    have hhigh := Int.emod_lt_of_pos value (by decide : (0 : Int) < 256)
    have hbyte : ((UInt8.ofNat (value % 256).toNat).toNat : Int) = value % 256 := by
      rw [UInt8.toNat_ofNat_of_lt' (by change (value % 256).toNat < 256; omega)]
      omega
    have hpower : (Nat.pow 256 (width + 1) : Int) = 256 * (Nat.pow 256 width : Int) := by
      change ((Nat.pow 256 width * 256 : Nat) : Int) = _
      push_cast
      ring
    have hpositive : 0 < (Nat.pow 256 width : Int) := by
      exact_mod_cast Nat.pow_pos (by decide : 0 < 256)
    simp only [toLittleEndian, ofLittleEndian]
    push_cast
    rw [hbyte, ih, hpower, emod_mul_eq value _ hpositive]

theorem ofLittleEndian_toLittleEndian_unsigned {width value : Nat} (h : FitsUnsigned width value) :
    ofLittleEndian (toLittleEndian width value) = value := by
  have hresidue := ofLittleEndian_toLittleEndian width value
  rw [Int.emod_eq_of_lt (by omega) (by exact_mod_cast h)] at hresidue
  exact_mod_cast hresidue

theorem toSigned_ofLittleEndian_toLittleEndian {width : Nat} {value : Int}
    (h : FitsSigned width value) :
    toSigned width (ofLittleEndian (toLittleEndian width value)) = value := by
  obtain ⟨hlow, hhigh⟩ := h
  have hresidue := ofLittleEndian_toLittleEndian width value
  unfold toSigned
  by_cases hsign : 0 ≤ value
  · rw [Int.emod_eq_of_lt hsign (by omega)] at hresidue
    rw [if_pos (by omega), hresidue]
  · -- A negative integer stands in the upper half of the unsigned range.
    have hwrapped : value % (Nat.pow 256 width : Int) = value + Nat.pow 256 width := by
      rw [← Int.add_emod_right]
      exact Int.emod_eq_of_lt (by omega) (by omega)
    rw [hwrapped] at hresidue
    rw [if_neg (by omega), hresidue]
    omega

/-! ## The ranges of machine integers -/

theorem fitsUnsigned_uint8 (value : UInt8) : FitsUnsigned 1 value.toNat :=
  value.toNat_lt

theorem fitsUnsigned_uint16 (value : UInt16) : FitsUnsigned 2 value.toNat :=
  value.toNat_lt

theorem fitsUnsigned_uint32 (value : UInt32) : FitsUnsigned 4 value.toNat :=
  value.toNat_lt

theorem fitsSigned_int8 (value : Int8) : FitsSigned 1 value.toInt := by
  have hlow := value.le_toInt
  have hhigh := value.toInt_lt
  change -256 ≤ 2 * value.toInt ∧ 2 * value.toInt < 256
  omega

theorem fitsSigned_int16 (value : Int16) : FitsSigned 2 value.toInt := by
  have hlow := value.le_toInt
  have hhigh := value.toInt_lt
  change -65536 ≤ 2 * value.toInt ∧ 2 * value.toInt < 65536
  omega

theorem fitsSigned_int32 (value : Int32) : FitsSigned 4 value.toInt := by
  have hlow := value.le_toInt
  have hhigh := value.toInt_lt
  change -4294967296 ≤ 2 * value.toInt ∧ 2 * value.toInt < 4294967296
  omega

end CompiledScript.Number
