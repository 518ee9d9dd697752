import CompiledScript.Proofs.Reader.StoredTexts
import CompiledScript.Proofs.Text.Utf8Encoding

/-!
# What lenient decoding makes of bytes

Wherever a scalar value is encoded, lenient decoding yields it and goes on behind its encoding.
Elsewhere it replaces the longest run of bytes that begins an encoding, or a single byte that begins
none. These two rules decide every byte string: no byte is left out, none is used twice, and a
malformed piece takes nothing of what stands next to it.
-/

namespace CompiledScript.Text.Utf8

/-- The bytes begin the encoding of a scalar value. -/
def Begins (bytes : List UInt8) : Prop :=
  ∃ char, bytes <+: String.utf8EncodeChar char

/-- A malformed piece in front of the rest of a byte string: no scalar value is encoded there, and
the piece is the longest run that begins an encoding, or one byte if there is no such run. -/
structure IsMalformed (piece rest : List UInt8) : Prop where
  ne_nil : piece ≠ []
  not_encoded : ∀ char, ¬ String.utf8EncodeChar char <+: piece ++ rest
  begins_or_single : Begins piece ∨ piece.length = 1
  longest : ∀ run, run <+: piece ++ rest → Begins run → run.length ≤ piece.length

/-- The text that a byte string is replaced by, said without decoding it. -/
inductive Decodes : List UInt8 → List Char → Prop where
  | nil : Decodes [] []
  | scalar {char : Char} {rest : List UInt8} {text : List Char} (h : Decodes rest text) :
      Decodes (String.utf8EncodeChar char ++ rest) (char :: text)
  | malformed {piece rest : List UInt8} {text : List Char} (hpiece : IsMalformed piece rest)
      (h : Decodes rest text) : Decodes (piece ++ rest) (replacement :: text)

/-! ## Sequences that are encodings -/

section Sequences

variable {a b c d : UInt8} {lead : Lead}

/-- The marker of a leading byte, by the number of bytes behind it. -/
def marker : Nat → Nat
  | 1 => 0xC0
  | 2 => 0xE0
  | _ => 0xF0

/-- A leading byte is its marker and its payload, and announces a byte that continues a sequence. -/
theorem toNat_of_lead? (hlead : lead? a = some lead) :
    a.toNat = marker lead.tails + lead.payload ∧
      0x80 ≤ lead.low.toNat ∧ lead.high.toNat ≤ 0xBF := by
  unfold lead? at hlead
  split_ifs at hlead
  all_goals
    cases hlead
    simp only [UInt8.lt_iff_toNat_lt, ← UInt8.toNat_inj, UInt8.reduceToNat, marker] at *
    omega

theorem isTail_of_within (hlead : lead? a = some lead)
    (hb : (lead.low ≤ b && b ≤ lead.high) = true) : isTail b = true := by
  obtain ⟨-, hlow, hhigh⟩ := toNat_of_lead? hlead
  simp only [isTail, Bool.and_eq_true, decide_eq_true_eq, UInt8.le_iff_toNat_le,
    UInt8.reduceToNat] at hb ⊢
  omega

theorem toNat_bounds_of_isTail (h : isTail b = true) : 0x80 ≤ b.toNat ∧ b.toNat ≤ 0xBF := by
  simpa [isTail, UInt8.le_iff_toNat_le] using h

theorem ofNat_eq_of_toNat {n : Nat} (h : b.toNat = n) : UInt8.ofNat n = b := by
  rw [← h, UInt8.ofNat_toNat]

theorem val_toNat_ofNat {value : Nat} (h : value.isValidChar) :
    (Char.ofNat value).val.toNat = value := by
  rw [Char.ofNat, dif_pos h]
  rfl

theorem utf8EncodeChar_one (ha : a < 0x80) :
    String.utf8EncodeChar (Char.ofNat a.toNat) = [a] := by
  have hvalue : a.toNat < 0x80 := ha
  have hvalid : a.toNat.isValidChar := Or.inl (by omega)
  unfold String.utf8EncodeChar
  simp only [val_toNat_ofNat hvalid]
  rw [if_pos (by omega), UInt8.ofNat_toNat]

theorem utf8EncodeChar_two (hlead : lead? a = some lead)
    (hb : (lead.low ≤ b && b ≤ lead.high) = true) (htails : lead.tails = 1) :
    String.utf8EncodeChar (Char.ofNat (extend lead.payload b)) = [a, b] := by
  have ha : a.toNat = 0xC0 + lead.payload := by
    rw [(toNat_of_lead? hlead).1, htails]
    rfl
  have hbegun : IsBegun (extend lead.payload b) 1 := htails ▸ isBegun_extend hlead hb
  obtain ⟨hlow, hhigh⟩ := hbegun
  have hb := toNat_bounds_of_isTail (isTail_of_within hlead hb)
  have hvalid : (extend lead.payload b).isValidChar := Or.inl (by omega)
  unfold String.utf8EncodeChar
  simp only [val_toNat_ofNat hvalid]
  unfold extend at *
  have hfirst : a.toNat = (64 * lead.payload + (b.toNat - 0x80)) / 64 % 32 + 0xC0 := by omega
  have hsecond : b.toNat = (64 * lead.payload + (b.toNat - 0x80)) % 64 + 0x80 := by omega
  rw [if_neg (by omega), if_pos (by omega), ofNat_eq_of_toNat hfirst, ofNat_eq_of_toNat hsecond]

theorem utf8EncodeChar_three (hlead : lead? a = some lead)
    (hb : (lead.low ≤ b && b ≤ lead.high) = true) (htails : lead.tails = 2) (hc : isTail c = true) :
    String.utf8EncodeChar (Char.ofNat (extend (extend lead.payload b) c)) = [a, b, c] := by
  have ha : a.toNat = 0xE0 + lead.payload := by
    rw [(toNat_of_lead? hlead).1, htails]
    rfl
  have hbegun : IsBegun (extend lead.payload b) 2 := htails ▸ isBegun_extend hlead hb
  have hb := toNat_bounds_of_isTail (isTail_of_within hlead hb)
  have hc := toNat_bounds_of_isTail hc
  simp only [IsBegun] at hbegun
  unfold extend at *
  generalize hvalue : 64 * (64 * lead.payload + (b.toNat - 0x80)) + (c.toNat - 0x80) = value
  have hvalid : value.isValidChar := by
    unfold Nat.isValidChar
    omega
  unfold String.utf8EncodeChar
  simp only [val_toNat_ofNat hvalid]
  have hfirst : a.toNat = value / 4096 % 16 + 0xE0 := by omega
  have hsecond : b.toNat = value / 64 % 64 + 0x80 := by omega
  have hthird : c.toNat = value % 64 + 0x80 := by omega
  rw [if_neg (by omega), if_neg (by omega), if_pos (by omega), ofNat_eq_of_toNat hfirst,
    ofNat_eq_of_toNat hsecond, ofNat_eq_of_toNat hthird]

theorem utf8EncodeChar_four (hlead : lead? a = some lead)
    (hb : (lead.low ≤ b && b ≤ lead.high) = true) (htails : lead.tails = 3) (hc : isTail c = true)
    (hd : isTail d = true) :
    String.utf8EncodeChar (Char.ofNat (extend (extend (extend lead.payload b) c) d)) =
      [a, b, c, d] := by
  have ha : a.toNat = 0xF0 + lead.payload := by
    rw [(toNat_of_lead? hlead).1, htails]
    rfl
  have hbegun : IsBegun (extend lead.payload b) 3 := htails ▸ isBegun_extend hlead hb
  have hb := toNat_bounds_of_isTail (isTail_of_within hlead hb)
  have hc := toNat_bounds_of_isTail hc
  have hd := toNat_bounds_of_isTail hd
  simp only [IsBegun] at hbegun
  unfold extend at *
  generalize hvalue : 64 * (64 * (64 * lead.payload + (b.toNat - 0x80)) + (c.toNat - 0x80)) +
    (d.toNat - 0x80) = value
  have hvalid : value.isValidChar := by
    unfold Nat.isValidChar
    omega
  unfold String.utf8EncodeChar
  simp only [val_toNat_ofNat hvalid]
  have hfirst : a.toNat = value / 262144 % 8 + 0xF0 := by omega
  have hsecond : b.toNat = value / 4096 % 64 + 0x80 := by omega
  have hthird : c.toNat = value / 64 % 64 + 0x80 := by omega
  have hfourth : d.toNat = value % 64 + 0x80 := by omega
  rw [if_neg (by omega), if_neg (by omega), if_neg (by omega), ofNat_eq_of_toNat hfirst,
    ofNat_eq_of_toNat hsecond, ofNat_eq_of_toNat hthird, ofNat_eq_of_toNat hfourth]

/-- Two bytes that can stand at the start of a longer sequence begin an encoding. -/
theorem begins_two (hlead : lead? a = some lead) (hb : (lead.low ≤ b && b ≤ lead.high) = true)
    (hone : lead.tails ≠ 1) : Begins [a, b] := by
  by_cases htwo : lead.tails = 2
  · have hencoded : String.utf8EncodeChar (Char.ofNat (extend (extend lead.payload b) 0x80)) =
        [a, b, 0x80] := utf8EncodeChar_three hlead hb htwo rfl
    exact ⟨_, [0x80], hencoded.symm⟩
  · have hthree := (isBegun_extend hlead hb).tails_eq_three hone htwo
    have hencoded :
        String.utf8EncodeChar (Char.ofNat (extend (extend (extend lead.payload b) 0x80) 0x80)) =
          [a, b, 0x80, 0x80] := utf8EncodeChar_four hlead hb hthree rfl rfl
    exact ⟨_, [0x80, 0x80], hencoded.symm⟩

theorem begins_three (hlead : lead? a = some lead) (hb : (lead.low ≤ b && b ≤ lead.high) = true)
    (hthree : lead.tails = 3) (hc : isTail c = true) : Begins [a, b, c] := by
  have hencoded :
      String.utf8EncodeChar (Char.ofNat (extend (extend (extend lead.payload b) c) 0x80)) =
        [a, b, c, 0x80] := utf8EncodeChar_four hlead hb hthree hc rfl
  exact ⟨_, [0x80], hencoded.symm⟩

end Sequences

/-! ## Malformed pieces -/

/-- The first piece of the bytes is malformed. -/
def StartsMalformed (bytes : List UInt8) : Prop :=
  ∃ reason piece others, pieces bytes = .malformed reason piece :: others

theorem StartsMalformed.not_encoded {bytes : List UInt8} (h : StartsMalformed bytes) (char : Char) :
    ¬ String.utf8EncodeChar char <+: bytes := by
  rintro ⟨rest, rfl⟩
  obtain ⟨reason, piece, others, hpieces⟩ := h
  rw [pieces_utf8EncodeChar_append] at hpieces
  cases hpieces

/-- A piece is malformed if the byte behind it cannot be taken up, whatever follows. -/
theorem isMalformed_of_blocked {piece rest : List UInt8} (hne : piece ≠ [])
    (hbegins : Begins piece ∨ piece.length = 1) (hstarts : StartsMalformed (piece ++ rest))
    (hblocked : ∀ next, rest.head? = some next →
      ∀ tail, StartsMalformed (piece ++ next :: tail)) : IsMalformed piece rest where
  ne_nil := hne
  not_encoded := hstarts.not_encoded
  begins_or_single := hbegins
  longest run hrun hbegun := by
    obtain ⟨char, hchar⟩ := hbegun
    by_contra hlonger
    -- A longer run would hold the piece and the next byte, and begin an encoding.
    have hpiece : piece <+: run :=
      List.prefix_of_prefix_length_le (List.prefix_append piece rest) hrun (by omega)
    obtain ⟨more, rfl⟩ := hpiece
    cases more with
    | nil => simp at hlonger
    | cons next more =>
      obtain ⟨others, hrest⟩ := (List.prefix_append_right_inj piece).1 hrun
      obtain ⟨tail, htail⟩ := hchar
      have hnext : rest.head? = some next := by
        rw [← hrest]
        rfl
      have hstarts := hblocked next hnext (more ++ tail)
      refine hstarts.not_encoded char ?_
      rw [← htail]
      simp

theorem IsMalformed.unique {piece rest piece' rest' : List UInt8} (h : IsMalformed piece rest)
    (h' : IsMalformed piece' rest') (heq : piece ++ rest = piece' ++ rest') :
    piece = piece' ∧ rest = rest' := by
  have hle {piece rest piece' rest' : List UInt8} (h : IsMalformed piece rest)
      (h' : IsMalformed piece' rest') (heq : piece ++ rest = piece' ++ rest') :
      piece.length ≤ piece'.length := by
    rcases h.begins_or_single with hbegins | hsingle
    · exact h'.longest piece (heq ▸ List.prefix_append piece rest) hbegins
    · rw [hsingle]
      exact List.length_pos_of_ne_nil h'.ne_nil
  exact List.append_inj heq (Nat.le_antisymm (hle h h' heq) (hle h' h heq.symm))

/-! ## The ways in which a piece is cut -/

section Cuts

variable {a b c d : UInt8} {lead : Lead} {rest : List UInt8}

theorem pieces_start (ha : ¬ a < 0x80) (hlead : lead? a = none) :
    pieces (a :: rest) = .malformed .start [a] :: pieces rest := by
  rw [pieces, if_neg ha, hlead]

theorem pieces_second (ha : ¬ a < 0x80) (hlead : lead? a = some lead)
    (hb : ¬ (lead.low ≤ b && b ≤ lead.high) = true) :
    pieces (a :: b :: rest) = .malformed .continuation [a] :: pieces (b :: rest) := by
  rw [pieces, if_neg ha, hlead]
  simp only [if_neg hb]

theorem pieces_third (ha : ¬ a < 0x80) (hlead : lead? a = some lead)
    (hb : (lead.low ≤ b && b ≤ lead.high) = true) (hone : lead.tails ≠ 1) (hc : ¬ isTail c = true) :
    pieces (a :: b :: c :: rest) = .malformed .continuation [a, b] :: pieces (c :: rest) := by
  rw [pieces, if_neg ha, hlead]
  simp only [if_pos hb, if_neg hone, if_neg hc]

theorem pieces_fourth (ha : ¬ a < 0x80) (hlead : lead? a = some lead)
    (hb : (lead.low ≤ b && b ≤ lead.high) = true) (hone : lead.tails ≠ 1) (htwo : lead.tails ≠ 2)
    (hc : isTail c = true) (hd : ¬ isTail d = true) :
    pieces (a :: b :: c :: d :: rest) =
      .malformed .continuation [a, b, c] :: pieces (d :: rest) := by
  rw [pieces, if_neg ha, hlead]
  simp only [if_pos hb, if_neg hone, if_pos hc, if_neg htwo, if_neg hd]

theorem pieces_truncated_one (ha : ¬ a < 0x80) (hlead : lead? a = some lead) :
    pieces [a] = [.malformed .truncated [a]] := by
  rw [pieces, if_neg ha, hlead]

theorem pieces_truncated_two (ha : ¬ a < 0x80) (hlead : lead? a = some lead)
    (hb : (lead.low ≤ b && b ≤ lead.high) = true) (hone : lead.tails ≠ 1) :
    pieces [a, b] = [.malformed .truncated [a, b]] := by
  rw [pieces, if_neg ha, hlead]
  simp only [if_pos hb, if_neg hone]

theorem pieces_truncated_three (ha : ¬ a < 0x80) (hlead : lead? a = some lead)
    (hb : (lead.low ≤ b && b ≤ lead.high) = true) (hone : lead.tails ≠ 1) (htwo : lead.tails ≠ 2)
    (hc : isTail c = true) : pieces [a, b, c] = [.malformed .truncated [a, b, c]] := by
  rw [pieces, if_neg ha, hlead]
  simp only [if_pos hb, if_neg hone, if_pos hc, if_neg htwo]

end Cuts

/-! ## Decoding -/

section Rules

variable {rest : List UInt8} {text : List Char}

theorem Decodes.encoded {bytes : List UInt8} {char : Char}
    (hbytes : String.utf8EncodeChar char = bytes) (h : Decodes rest text) :
    Decodes (bytes ++ rest) (char :: text) :=
  hbytes ▸ .scalar h

theorem Decodes.truncated {piece : List UInt8} (hne : piece ≠ [])
    (hbegins : Begins piece ∨ piece.length = 1) (hstarts : StartsMalformed piece) :
    Decodes piece [replacement] := by
  rw [← List.append_nil piece] at hstarts ⊢
  exact .malformed (isMalformed_of_blocked hne hbegins hstarts (by simp)) .nil

theorem Decodes.blocked (piece : List UInt8) {next : UInt8} (hne : piece ≠ [])
    (hbegins : Begins piece ∨ piece.length = 1)
    (hblocked : ∀ tail, StartsMalformed (piece ++ next :: tail)) (h : Decodes (next :: rest) text) :
    Decodes (piece ++ next :: rest) (replacement :: text) := by
  refine .malformed (isMalformed_of_blocked hne hbegins (hblocked rest) fun other hother ↦ ?_) h
  cases hother
  exact hblocked

end Rules

/-- Lenient decoding keeps to the two rules. -/
theorem decodes_pieces (bytes : List UInt8) : Decodes bytes ((pieces bytes).map Piece.lenient) := by
  fun_induction pieces bytes with
  | case1 => exact .nil
  | case2 a rest ha ih => exact .encoded (utf8EncodeChar_one ha) ih
  | case3 a rest ha hlead ih =>
    have hstarts (tail : List UInt8) : StartsMalformed ([a] ++ tail) :=
      ⟨_, _, _, pieces_start ha hlead⟩
    exact .malformed (isMalformed_of_blocked (by simp) (.inr rfl) (hstarts rest)
      fun next _ tail ↦ hstarts (next :: tail)) ih
  | case4 a ha lead hlead =>
    exact .truncated (by simp) (.inr rfl) ⟨_, _, _, pieces_truncated_one ha hlead⟩
  | case5 a ha lead hlead b rest hb two htails ih =>
    exact .encoded (utf8EncodeChar_two hlead hb htails) ih
  | case6 a ha lead hlead b hb hone =>
    exact .truncated (by simp) (.inl (begins_two hlead hb hone))
      ⟨_, _, _, pieces_truncated_two ha hlead hb hone⟩
  | case7 a ha lead hlead b hb two hone c rest hc three htails ih =>
    exact .encoded (utf8EncodeChar_three hlead hb htails hc) ih
  | case8 a ha lead hlead b hb hone c hc htwo =>
    have hthree := (isBegun_extend hlead hb).tails_eq_three hone htwo
    exact .truncated (by simp) (.inl (begins_three hlead hb hthree hc))
      ⟨_, _, _, pieces_truncated_three ha hlead hb hone htwo hc⟩
  | case9 a ha lead hlead b hb two hone c hc three htwo d rest hd ih =>
    have hthree := (isBegun_extend hlead hb).tails_eq_three hone htwo
    exact .encoded (utf8EncodeChar_four hlead hb hthree hc hd) ih
  | case10 a ha lead hlead b hb hone c hc htwo d rest hd ih =>
    have hthree := (isBegun_extend hlead hb).tails_eq_three hone htwo
    exact .blocked [a, b, c] (by simp) (.inl (begins_three hlead hb hthree hc))
      (fun _ ↦ ⟨_, _, _, pieces_fourth ha hlead hb hone htwo hc hd⟩) ih
  | case11 a ha lead hlead b hb hone c rest hc ih =>
    exact .blocked [a, b] (by simp) (.inl (begins_two hlead hb hone))
      (fun _ ↦ ⟨_, _, _, pieces_third ha hlead hb hone hc⟩) ih
  | case12 a ha lead hlead b rest hb ih =>
    exact .blocked [a] (by simp) (.inr rfl)
      (fun _ ↦ ⟨_, _, _, pieces_second ha hlead hb⟩) ih

theorem encoded_unique {char char' : Char} {rest rest' : List UInt8}
    (h : String.utf8EncodeChar char ++ rest = String.utf8EncodeChar char' ++ rest') :
    char = char' ∧ rest = rest' := by
  have hpieces := congrArg pieces h
  rw [pieces_utf8EncodeChar_append, pieces_utf8EncodeChar_append] at hpieces
  obtain rfl := Piece.scalar.inj (List.cons.inj hpieces).1
  exact ⟨rfl, List.append_cancel_left h⟩

theorem utf8EncodeChar_ne_nil (char : Char) : String.utf8EncodeChar char ≠ [] := by
  intro h
  have hpieces := pieces_utf8EncodeChar_append char []
  rw [h] at hpieces
  cases hpieces

/-- The two rules leave no choice. -/
theorem Decodes.unique {bytes : List UInt8} {text text' : List Char} (h : Decodes bytes text)
    (h' : Decodes bytes text') : text = text' := by
  induction h generalizing text' with
  | nil =>
    generalize hbytes : ([] : List UInt8) = bytes at h'
    cases h' with
    | nil => rfl
    | scalar h' => exact absurd (List.append_eq_nil_iff.1 hbytes.symm).1 (utf8EncodeChar_ne_nil _)
    | malformed hpiece' h' => exact absurd (List.append_eq_nil_iff.1 hbytes.symm).1 hpiece'.ne_nil
  | @scalar char rest text h ih =>
    generalize hbytes : String.utf8EncodeChar char ++ rest = bytes at h'
    cases h' with
    | nil => exact absurd (List.append_eq_nil_iff.1 hbytes).1 (utf8EncodeChar_ne_nil _)
    | scalar h' =>
      obtain ⟨rfl, rfl⟩ := encoded_unique hbytes
      rw [ih h']
    | malformed hpiece' h' => exact absurd ⟨rest, hbytes⟩ (hpiece'.not_encoded char)
  | @malformed piece rest text hpiece h ih =>
    generalize hbytes : piece ++ rest = bytes at h'
    cases h' with
    | nil => exact absurd (List.append_eq_nil_iff.1 hbytes).1 hpiece.ne_nil
    | @scalar char' rest' text' h' => exact absurd ⟨rest', hbytes.symm⟩ (hpiece.not_encoded char')
    | malformed hpiece' h' =>
      obtain ⟨rfl, rfl⟩ := hpiece.unique hpiece' hbytes
      rw [ih h']

theorem decodes_iff {bytes : List UInt8} {text : String} :
    Decodes bytes text.toList ↔ text = decodeLenient bytes := by
  constructor
  · intro h
    rw [decodeLenient, ← h.unique (decodes_pieces bytes), String.ofList_toList]
  · rintro rfl
    rw [decodeLenient, String.toList_ofList]
    exact decodes_pieces bytes

end CompiledScript.Text.Utf8
