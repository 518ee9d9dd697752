import CompiledScript.Proofs.Reader.Slices

/-!
# Texts that a zero byte ends

A text in a buffer goes up to the next zero byte. Decoding makes no zero character out of other
bytes: a sequence of several bytes is only taken for a scalar value if it is a proper one, and a
malformed piece is replaced. So a stored text has no zero character, whatever the buffer holds.
-/

namespace CompiledScript

namespace Text.Utf8

variable {a b c d : UInt8} {lead : Lead} {value : Nat}

theorem ofNat_ne_zero (hvalue : 0 < value) (hvalid : value.isValidChar) :
    Char.ofNat value ≠ '\x00' := by
  intro h
  have hzero : (Char.ofNat value).toNat = 0 := congrArg Char.toNat h
  rw [Char.ofNat, dif_pos hvalid] at hzero
  exact hvalue.ne' hzero

/-- Whether a value can be that of the first two bytes of a sequence, by the number of bytes behind
the first one. What would make an overlong form, a surrogate or too great a value is left out. -/
def IsBegun (value : Nat) : Nat → Prop
  | 1 => 0x80 ≤ value ∧ value < 0x800
  | 2 => 0x20 ≤ value ∧ value < 0x360 ∨ 0x380 ≤ value ∧ value < 0x400
  | 3 => 0x10 ≤ value ∧ value < 0x110
  | _ => False

theorem isBegun_extend (hlead : lead? a = some lead) (hb : (lead.low ≤ b && b ≤ lead.high) = true) :
    IsBegun (extend lead.payload b) lead.tails := by
  have hbounds : lead.low.toNat ≤ b.toNat ∧ b.toNat ≤ lead.high.toNat := by
    simpa [UInt8.le_iff_toNat_le] using hb
  unfold lead? at hlead
  unfold extend
  split_ifs at hlead with h1 h2 h3 h4 h5 h6 h7 h8
  all_goals
    cases hlead
    simp only [UInt8.lt_iff_toNat_lt, ← UInt8.toNat_inj, UInt8.reduceToNat, IsBegun] at *
    omega

theorem IsBegun.tails_eq_three {tails : Nat} (h : IsBegun value tails) (hone : tails ≠ 1)
    (htwo : tails ≠ 2) : tails = 3 := by
  unfold IsBegun at h
  split at h
  · exact absurd rfl hone
  · exact absurd rfl htwo
  · rfl
  · cases h

theorem toNat_sub_lt_of_isTail (h : isTail c = true) : c.toNat - 0x80 < 64 := by
  simp only [isTail, Bool.and_eq_true, decide_eq_true_eq, UInt8.le_iff_toNat_le,
    UInt8.reduceToNat] at h
  omega

/-- A sequence of two bytes is no zero character. -/
theorem ofNat_two_ne_zero (h : IsBegun value 1) : Char.ofNat value ≠ '\x00' := by
  obtain ⟨hlow, hhigh⟩ := h
  exact ofNat_ne_zero (by omega) (Or.inl (by omega))

theorem ofNat_three_ne_zero (h : IsBegun value 2) (hc : isTail c = true) :
    Char.ofNat (extend value c) ≠ '\x00' := by
  have hc := toNat_sub_lt_of_isTail hc
  unfold extend
  rcases h with ⟨hlow, hhigh⟩ | ⟨hlow, hhigh⟩
  · exact ofNat_ne_zero (by omega) (Or.inl (by omega))
  · exact ofNat_ne_zero (by omega) (Or.inr ⟨by omega, by omega⟩)

theorem ofNat_four_ne_zero (h : IsBegun value 3) (hc : isTail c = true) (hd : isTail d = true) :
    Char.ofNat (extend (extend value c) d) ≠ '\x00' := by
  have hc := toNat_sub_lt_of_isTail hc
  have hd := toNat_sub_lt_of_isTail hd
  unfold extend
  obtain ⟨hlow, hhigh⟩ := h
  exact ofNat_ne_zero (by omega) (Or.inr ⟨by omega, by omega⟩)

/-- Decoding makes zero characters only out of zero bytes. -/
theorem lenient_ne_zero {bytes : List UInt8} (hbytes : 0 ∉ bytes) :
    ∀ piece ∈ pieces bytes, piece.lenient ≠ '\x00' := by
  have hreplaced (reason : Reason) (bytes : List UInt8) :
      (Piece.malformed reason bytes).lenient ≠ '\x00' := by
    rw [Piece.lenient]
    decide
  fun_induction pieces bytes with
  | case1 => exact nofun
  | case2 a rest ha ih =>
    have hzero : 0 ≠ a := List.ne_of_not_mem_cons hbytes
    have hpositive : 0 < a.toNat := Nat.pos_of_ne_zero fun h ↦ hzero (UInt8.toNat_inj.1 h).symm
    refine List.forall_mem_cons.2 ⟨ofNat_ne_zero hpositive (Or.inl ?_),
      ih (List.not_mem_of_not_mem_cons hbytes)⟩
    exact Nat.lt_of_lt_of_le (UInt8.toNat_lt a) (by decide)
  | case3 a rest ha hlead ih =>
    exact List.forall_mem_cons.2 ⟨hreplaced _ _, ih (List.not_mem_of_not_mem_cons hbytes)⟩
  | case4 | case6 | case8 => exact List.forall_mem_singleton.2 (hreplaced _ _)
  | case5 a ha lead hlead b rest hb two htails ih =>
    have hbegun := isBegun_extend hlead hb
    rw [htails] at hbegun
    exact List.forall_mem_cons.2 ⟨ofNat_two_ne_zero hbegun, ih fun h ↦ hbytes (by simp [h])⟩
  | case7 a ha lead hlead b hb two hone c rest hc three htails ih =>
    have hbegun := isBegun_extend hlead hb
    rw [htails] at hbegun
    exact List.forall_mem_cons.2 ⟨ofNat_three_ne_zero hbegun hc, ih fun h ↦ hbytes (by simp [h])⟩
  | case9 a ha lead hlead b hb two hone c hc three htwo d rest hd ih =>
    have hbegun := isBegun_extend hlead hb
    rw [hbegun.tails_eq_three hone htwo] at hbegun
    exact List.forall_mem_cons.2 ⟨ofNat_four_ne_zero hbegun hc hd, ih fun h ↦ hbytes (by simp [h])⟩
  | case10 a ha lead hlead b hb hone c hc htwo d rest hd ih =>
    exact List.forall_mem_cons.2 ⟨hreplaced _ _, ih fun h ↦ hbytes (by simp [List.mem_cons.1 h])⟩
  | case11 a ha lead hlead b hb hone c rest hc ih =>
    exact List.forall_mem_cons.2 ⟨hreplaced _ _, ih fun h ↦ hbytes (by simp [List.mem_cons.1 h])⟩
  | case12 a ha lead hlead b rest hb ih =>
    exact List.forall_mem_cons.2 ⟨hreplaced _ _, ih (List.not_mem_of_not_mem_cons hbytes)⟩

theorem zero_not_mem_decodeLenient {bytes : List UInt8} (hbytes : 0 ∉ bytes) :
    '\x00' ∉ (decodeLenient bytes).toList := by
  rw [decodeLenient, String.toList_ofList]
  intro h
  obtain ⟨piece, hpiece, hzero⟩ := List.mem_map.1 h
  exact lenient_ne_zero hbytes piece hpiece hzero

end Text.Utf8

/-- There is no occurrence in front of the first one. -/
theorem Bytes.not_mem_of_findFrom?_eq_some {data : ByteArray} {byte : UInt8} {start stop : Nat}
    (h : findFrom? data byte start = some stop) : byte ∉ (data.extract start stop).data.toList := by
  have hlist (first : Nat) : (data.extract first stop).data.toList =
      (data.data.toList.take stop).drop first := by
    simp [ByteArray.data_extract, Array.toList_extract, List.drop_take]
  rw [hlist]
  fun_induction findFrom? data byte start with
  | case1 start hstart hbyte =>
    cases h
    simp
  | case2 start hstart hbyte ih =>
    have hbounds := bounds_of_findFrom?_eq_some h
    have hlength : start < (data.data.toList.take stop).length := by
      rw [List.length_take, Array.length_toList]
      exact Nat.lt_min.2 ⟨hbounds.1, hstart⟩
    rw [List.drop_eq_getElem_cons hlength, List.getElem_take]
    exact List.not_mem_cons_of_ne_of_not_mem (Ne.symm hbyte) (ih h)
  | case3 => cases h

/-- A stored text has no zero character. -/
theorem Reader.zero_not_mem_of_storedText? {data : ByteArray} {offset : Int} {text : String}
    (h : storedText? data offset = some text) : '\x00' ∉ text.toList := by
  unfold storedText? at h
  split at h
  · obtain ⟨stop, hfind, rfl⟩ := Option.map_eq_some_iff.1 h
    exact Text.Utf8.zero_not_mem_decodeLenient (Bytes.not_mem_of_findFrom?_eq_some hfind)
  · cases h

end CompiledScript
