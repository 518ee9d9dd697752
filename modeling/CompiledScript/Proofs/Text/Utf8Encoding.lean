import CompiledScript.Text.Utf8
import Mathlib.Tactic.IntervalCases

/-!
# Decoding what UTF-8 encodes

The encoding of a scalar value is taken as one piece, whatever follows it, so lenient decoding gives
back every text from its encoding. Only the scalar zero is encoded with a zero byte; a text without
it can therefore be ended by one.
-/

namespace CompiledScript.Text.Utf8

def encode (text : String) : List UInt8 :=
  text.toList.flatMap String.utf8EncodeChar

theorem toUTF8_data_toList (text : String) : text.toUTF8.data.toList = encode text := by
  have hbytes : text.toByteArray = text.toList.utf8Encode := by
    conv_lhs => rw [← String.ofList_toList (s := text)]
    exact String.toByteArray_ofList
  rw [String.toUTF8_eq_toByteArray, hbytes, List.utf8Encode, List.data_toByteArray]
  rfl

theorem length_encode (text : String) : (encode text).length = text.utf8ByteSize := by
  rw [← toUTF8_data_toList, Array.length_toList, ByteArray.size_data, String.toUTF8_eq_toByteArray,
    String.size_toByteArray]

section Pieces

variable {a b c d : UInt8} {lead : Lead} {rest : List UInt8}

theorem pieces_one (ha : a < 0x80) :
    pieces (a :: rest) = .scalar (Char.ofNat a.toNat) :: pieces rest := by
  rw [pieces, if_pos ha]

theorem pieces_two (ha : ¬ a < 0x80) (hlead : lead? a = some lead)
    (hb : (lead.low ≤ b && b ≤ lead.high) = true) (htails : lead.tails = 1) :
    pieces (a :: b :: rest) = .scalar (Char.ofNat (extend lead.payload b)) :: pieces rest := by
  rw [pieces, if_neg ha, hlead]
  simp only [hb, htails, if_true]

theorem pieces_three (ha : ¬ a < 0x80) (hlead : lead? a = some lead)
    (hb : (lead.low ≤ b && b ≤ lead.high) = true) (hc : isTail c = true) (htails : lead.tails = 2) :
    pieces (a :: b :: c :: rest) =
      .scalar (Char.ofNat (extend (extend lead.payload b) c)) :: pieces rest := by
  rw [pieces, if_neg ha, hlead]
  simp [hb, hc, htails]

theorem pieces_four (ha : ¬ a < 0x80) (hlead : lead? a = some lead)
    (hb : (lead.low ≤ b && b ≤ lead.high) = true) (hc : isTail c = true) (hd : isTail d = true)
    (htails : lead.tails = 3) :
    pieces (a :: b :: c :: d :: rest) =
      .scalar (Char.ofNat (extend (extend (extend lead.payload b) c) d)) :: pieces rest := by
  rw [pieces, if_neg ha, hlead]
  simp [hb, hc, hd, htails]

end Pieces

section Leads

variable {n : Nat}

theorem toNat_ofNat (h : n < 256) : (UInt8.ofNat n).toNat = n :=
  UInt8.toNat_ofNat_of_lt' h

theorem not_ofNat_lt_ascii (hlow : 0x80 ≤ n) (hhigh : n < 256) : ¬ UInt8.ofNat n < 0x80 := by
  rw [UInt8.lt_iff_toNat_lt, toNat_ofNat hhigh]
  change ¬ n < 128
  omega

theorem within_iff {low high : UInt8} (h : n < 256) :
    (low ≤ UInt8.ofNat n && UInt8.ofNat n ≤ high) = true ↔ low.toNat ≤ n ∧ n ≤ high.toNat := by
  rw [Bool.and_eq_true, decide_eq_true_iff, decide_eq_true_iff, UInt8.le_iff_toNat_le,
    UInt8.le_iff_toNat_le, toNat_ofNat h]

theorem isTail_ofNat (h : n < 64) : isTail (UInt8.ofNat (n + 0x80)) = true := by
  apply (within_iff (by omega)).2
  change 128 ≤ n + 128 ∧ n + 128 ≤ 191
  omega

theorem extend_ofNat (value : Nat) (h : n < 64) :
    extend value (UInt8.ofNat (n + 0x80)) = 64 * value + n := by
  have hbyte : (UInt8.ofNat (n + 0x80)).toNat = n + 0x80 := toNat_ofNat (by omega)
  unfold extend
  rw [hbyte]
  omega

theorem lead?_two (hlow : 2 ≤ n) (hhigh : n < 0x20) :
    lead? (UInt8.ofNat (n + 0xC0)) = some ⟨0x80, 0xBF, 1, n⟩ := by
  interval_cases n <;> rfl

/-- A leading byte of three bytes excludes overlong forms and surrogates by its second byte. -/
theorem lead?_three (h : n < 0x10) :
    lead? (UInt8.ofNat (n + 0xE0)) =
      some ⟨if n = 0 then 0xA0 else 0x80, if n = 0xD then 0x9F else 0xBF, 2, n⟩ := by
  interval_cases n <;> rfl

/-- A leading byte of four bytes excludes overlong forms and values above the last scalar. -/
theorem lead?_four (h : n < 5) :
    lead? (UInt8.ofNat (n + 0xF0)) =
      some ⟨if n = 0 then 0x90 else 0x80, if n = 4 then 0x8F else 0xBF, 3, n⟩ := by
  interval_cases n <;> rfl

end Leads

/-- The encoding of a scalar value is one piece, whatever follows it. -/
theorem pieces_utf8EncodeChar_append (char : Char) (rest : List UInt8) :
    pieces (String.utf8EncodeChar char ++ rest) = .scalar char :: pieces rest := by
  have hvalid : char.toNat < 0xD800 ∨ 0xDFFF < char.toNat ∧ char.toNat < 0x110000 := char.valid
  have hchar : Char.ofNat char.toNat = char := Char.ofNat_toNat char
  have hdefn : char.val.toNat = char.toNat := rfl
  unfold String.utf8EncodeChar
  simp only [hdefn]
  generalize char.toNat = value at hvalid hchar
  -- One case for each length of the encoding.
  split
  · rw [List.singleton_append, pieces_one, toNat_ofNat (by omega), hchar]
    rw [UInt8.lt_iff_toNat_lt, toNat_ofNat (by omega)]
    change value < 128
    omega
  · split
    · have hlast : value % 64 < 64 := by omega
      have hascii := not_ofNat_lt_ascii (n := value / 64 % 32 + 0xC0) (by omega) (by omega)
      have hlead := lead?_two (n := value / 64 % 32) (by omega) (by omega)
      simp only [List.cons_append, List.nil_append]
      refine (pieces_two hascii hlead (isTail_ofNat hlast) rfl).trans ?_
      rw [extend_ofNat _ hlast, show 64 * (value / 64 % 32) + value % 64 = value by omega, hchar]
    · split
      · have hsecond : value / 64 % 64 < 64 := by omega
        have hlast : value % 64 < 64 := by omega
        have hascii := not_ofNat_lt_ascii (n := value / 4096 % 16 + 0xE0) (by omega) (by omega)
        have hlead := lead?_three (n := value / 4096 % 16) (by omega)
        simp only [List.cons_append, List.nil_append]
        refine (pieces_three hascii hlead ?_ (isTail_ofNat hlast) rfl).trans ?_
        · rw [within_iff (by omega), apply_ite UInt8.toNat, apply_ite UInt8.toNat]
          change (if _ then 0xA0 else 0x80) ≤ _ ∧ _ ≤ (if _ then 0x9F else 0xBF)
          constructor <;> split <;> omega
        · rw [extend_ofNat _ hsecond, extend_ofNat _ hlast,
            show 64 * (64 * (value / 4096 % 16) + value / 64 % 64) + value % 64 = value by omega,
            hchar]
      · have hsecond : value / 4096 % 64 < 64 := by omega
        have hthird : value / 64 % 64 < 64 := by omega
        have hlast : value % 64 < 64 := by omega
        have hascii := not_ofNat_lt_ascii (n := value / 262144 % 8 + 0xF0) (by omega) (by omega)
        have hlead := lead?_four (n := value / 262144 % 8) (by omega)
        simp only [List.cons_append, List.nil_append]
        refine (pieces_four hascii hlead ?_ (isTail_ofNat hthird) (isTail_ofNat hlast) rfl).trans ?_
        · rw [within_iff (by omega), apply_ite UInt8.toNat, apply_ite UInt8.toNat]
          change (if _ then 0x90 else 0x80) ≤ _ ∧ _ ≤ (if _ then 0x8F else 0xBF)
          constructor <;> split <;> omega
        · rw [extend_ofNat _ hsecond, extend_ofNat _ hthird, extend_ofNat _ hlast,
            show 64 * (64 * (64 * (value / 262144 % 8) + value / 4096 % 64) + value / 64 % 64)
              + value % 64 = value by omega,
            hchar]

/-- Every text is the lenient decoding of its encoding. -/
theorem decodeLenient_encode (text : String) : decodeLenient (encode text) = text := by
  have hpieces (chars : List Char) :
      pieces (chars.flatMap String.utf8EncodeChar) = chars.map Piece.scalar := by
    induction chars with
    | nil => rfl
    | cons char chars ih =>
      rw [List.flatMap_cons, pieces_utf8EncodeChar_append, ih, List.map_cons]
  have hlenient : Piece.lenient ∘ Piece.scalar = id := rfl
  rw [decodeLenient, encode, hpieces, List.map_map, hlenient, List.map_id, String.ofList_toList]

theorem zero_not_mem_utf8EncodeChar {char : Char} (hchar : char ≠ '\x00') :
    0 ∉ String.utf8EncodeChar char := by
  have hvalue : char.toNat ≠ 0 := fun h ↦ hchar (Char.toNat_inj.1 h)
  have hbyte (n : Nat) (hlow : 0 < n) (hhigh : n < 256) : 0 ≠ UInt8.ofNat n := by
    intro h
    have := congrArg UInt8.toNat h
    rw [toNat_ofNat hhigh] at this
    exact hlow.ne this
  have hdefn : char.val.toNat = char.toNat := rfl
  unfold String.utf8EncodeChar
  simp only [hdefn]
  generalize char.toNat = value at hvalue
  intro hmem
  split at hmem
  · rw [List.mem_singleton] at hmem
    exact hbyte value (by omega) (by omega) hmem
  -- Past the first case every byte is an offset added to a marker of 0x80 or more.
  · split at hmem
    · simp only [List.mem_cons, List.not_mem_nil, or_false] at hmem
      rcases hmem with h | h <;> exact hbyte _ (by omega) (by omega) h
    · split at hmem
      · simp only [List.mem_cons, List.not_mem_nil, or_false] at hmem
        rcases hmem with h | h | h <;> exact hbyte _ (by omega) (by omega) h
      · simp only [List.mem_cons, List.not_mem_nil, or_false] at hmem
        rcases hmem with h | h | h | h <;> exact hbyte _ (by omega) (by omega) h

theorem zero_not_mem_encode {text : String} (htext : '\x00' ∉ text.toList) : 0 ∉ encode text := by
  intro hmem
  obtain ⟨char, hchar, hzero⟩ := List.mem_flatMap.1 hmem
  exact zero_not_mem_utf8EncodeChar (fun h ↦ htext (h ▸ hchar)) hzero

end CompiledScript.Text.Utf8
