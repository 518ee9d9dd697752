import CompiledScript.Names.Line
import CompiledScript.Text.Hex

/-!
# Digits of numerals

What holds of the digits of a base holds of the characters of every numeral in that base. The digits
of a hexadecimal numeral are read back as its value, of which a hash keeps the low 32 bits.
-/

namespace CompiledScript.Text

theorem forall_mem_toDigits {base : Nat} {property : Char → Prop} (hbase : 1 < base)
    (h : ∀ digit < base, property digit.digitChar) (value : Nat) :
    ∀ c ∈ Nat.toDigits base value, property c := by
  induction value using Nat.base_induction base hbase with
  | single value hvalue =>
    rw [Nat.toDigits_of_lt_base hvalue]
    simpa using h value hvalue
  | digit value digit hdigit hvalue ih =>
    rw [← Nat.toDigits_append_toDigits hbase hvalue hdigit, Nat.toDigits_of_lt_base hdigit]
    intro c hc
    rcases List.mem_append.1 hc with hfirst | hlast
    · exact ih c hfirst
    · rw [List.mem_singleton.1 hlast]
      exact h digit hdigit

theorem isHexDigit_of_mem_digits (letters : Hex.Letters) (value : Nat) :
    ∀ c ∈ Hex.digits letters value, Names.isHexDigit c = true := by
  cases letters with
  | lower => exact forall_mem_toDigits (by decide) (by decide) value
  | upper =>
    have hdigits : ∀ c ∈ Nat.toDigits 16 value, Names.isHexDigit c.toUpper = true :=
      forall_mem_toDigits (by decide) (by decide) value
    exact List.forall_mem_map.2 hdigits

theorem hexDigitValue_digitChar : ∀ digit < 16, Names.hexDigitValue digit.digitChar = digit := by
  decide

/-- The digits of a number stand for the low 32 bits of the number. -/
theorem hashValue_toDigits (value : Nat) :
    Names.hashValue (Nat.toDigits 16 value) = value % Nat.pow 2 32 := by
  have hpower : Nat.pow 2 32 = 4294967296 := rfl
  induction value using Nat.base_induction 16 (by decide) with
  | single value hvalue =>
    rw [Nat.toDigits_of_lt_base hvalue]
    simp [Names.hashValue, hexDigitValue_digitChar value hvalue]
  | digit value digit hdigit hvalue ih =>
    rw [← Nat.toDigits_append_toDigits (by decide) hvalue hdigit, Nat.toDigits_of_lt_base hdigit]
    calc
      _ = (16 * Names.hashValue (Nat.toDigits 16 value) + digit) % Nat.pow 2 32 := by
        simp [Names.hashValue, List.foldl_append, hexDigitValue_digitChar digit hdigit]
      _ = (16 * value + digit) % Nat.pow 2 32 := by
        rw [ih, hpower]
        omega

end CompiledScript.Text
