import CompiledScript.Proofs.Deflate.StoredStream

/-!
# Where a stream ends

Every part of the decoder reads forward, and what it yields depends on no byte that starts at or
behind the bit where it stops. Both are said of an action by `Bounded`, which is kept by doing one
action after another, so it is known of the blocks of a stream, with stored bytes, with the fixed
codes and with codes of their own. A stream therefore ends inside the bytes that were needed to
decode it, and whatever stands behind them is not looked at.
-/

namespace CompiledScript.Deflate

/-- The byte strings have the same bytes in front of a bit position. A byte in which the position
lies is one of them. -/
def AgreeBefore (stop : Nat) (data other : ByteArray) : Prop :=
  ∀ place, 8 * place < stop → other[place]? = data[place]?

/-- A success does not go back or leave the byte string, and is the same success for every byte
string that has the same bytes in front of its end. -/
structure Bounded {α : Type} (action : BitAction α) : Prop where
  forward : Forward action
  inside : ∀ {data position value next}, action data position = .ok (value, next) →
    position ≤ 8 * data.size → next ≤ 8 * data.size
  same : ∀ {data other position value next}, action data position = .ok (value, next) →
    AgreeBefore next data other → action other position = .ok (value, next)

section Bounded

variable {α β : Type} {action : BitAction α}

theorem AgreeBefore.mono {stop earlier : Nat} {data other : ByteArray}
    (h : AgreeBefore stop data other) (hearlier : earlier ≤ stop) :
    AgreeBefore earlier data other :=
  fun place hplace ↦ h place (by omega)

theorem bounded_pure (value : α) : Bounded (pure value : BitAction α) where
  forward := forward_pure value
  inside := by
    intro data position result next h hinside
    cases h
    exact hinside
  same := by
    intro data other position result next h _
    cases h
    rfl

theorem bounded_fail (fault : Fault) : Bounded (fail fault : BitAction α) where
  forward := forward_fail fault
  inside := by
    intro data position result next h
    cases h
  same := by
    intro data other position result next h
    cases h

theorem Bounded.bind {f : α → BitAction β} (haction : Bounded action)
    (hf : ∀ value, Bounded (f value)) : Bounded (action >>= f) where
  forward := haction.forward.bind fun value ↦ (hf value).forward
  inside := by
    intro data position result next h hinside
    obtain ⟨value, middle, hfirst, hsecond⟩ := bind_eq_ok.1 h
    exact (hf value).inside hsecond (haction.inside hfirst hinside)
  same := by
    intro data other position result next h hagree
    obtain ⟨value, middle, hfirst, hsecond⟩ := bind_eq_ok.1 h
    have hmiddle : middle ≤ next := (hf value).forward _ _ _ _ hsecond
    exact bind_eq_ok.2
      ⟨value, middle, haction.same hfirst (hagree.mono hmiddle), (hf value).same hsecond hagree⟩

theorem Bounded.ite {condition : Prop} [Decidable condition] {first second : BitAction α}
    (hfirst : Bounded first) (hsecond : Bounded second) :
    Bounded (if condition then first else second) := by
  split <;> assumption

end Bounded

/-! ## Bits and words -/

theorem bounded_bit : Bounded bit where
  forward := forward_bit
  inside := by
    intro data position value next h _
    have hbit := bit_eq_ok h
    omega
  same := by
    intro data other position value next h hagree
    obtain ⟨_, rfl⟩ := bit_eq_ok h
    have hbyte : other[position / 8]? = data[position / 8]? := hagree _ (by omega)
    unfold bit bitAt? at h ⊢
    rw [hbyte]
    exact h

theorem bounded_bits (count : Nat) : Bounded (bits count) := by
  induction count with
  | zero => exact bounded_pure 0
  | succ count ih => exact bounded_bit.bind fun _ ↦ ih.bind fun _ ↦ bounded_pure _

theorem position_of_bits_eq_ok {count : Nat} {data : ByteArray} {position value next : Nat}
    (h : bits count data position = .ok (value, next)) : next = position + count := by
  induction count generalizing position value next with
  | zero =>
    cases h
    rfl
  | succ count ih =>
    obtain ⟨low, middle, hbit, hrest⟩ := bind_eq_ok.1 h
    obtain ⟨high, behind, hhigh, hpure⟩ := bind_eq_ok.1 hrest
    cases hpure
    have hfirst := (bit_eq_ok hbit).2
    have hothers := ih hhigh
    omega

theorem Words.bounded_read (words : Words) : Bounded words.read := by
  induction words with
  | unused => exact bounded_pure none
  | symbol value => exact bounded_pure (some value)
  | branch zero one hzero hone => exact bounded_bit.bind fun _ ↦ hone.ite hzero

theorem PrefixCode.bounded_read (code : PrefixCode) : Bounded code.read :=
  bounded_bit.bind fun _ ↦ code.one.bounded_read.ite code.zero.bounded_read

/-! ## Stored bytes -/

variable {data other value : ByteArray} {position next : Nat}

/-- Bytes in front of a place are the same if all bytes up to there are. -/
theorem extract_eq_of_agreeBefore {stop : Nat} (start : Nat)
    (h : AgreeBefore (8 * stop) data other) (hstop : stop ≤ data.size) :
    stop ≤ other.size ∧ other.extract start stop = data.extract start stop := by
  have hat (place : Nat) (hplace : place < stop) : other[place]? = data[place]? :=
    h place (by omega)
  have hsize : stop ≤ other.size := by
    by_contra hshort
    have hlast := hat other.size (by omega)
    rw [getElem?_neg other other.size (by omega), getElem?_pos data other.size (by omega)] at hlast
    cases hlast
  refine ⟨hsize, ByteArray.ext_getElem ?_ fun place hleft hright ↦ ?_⟩
  · rw [ByteArray.size_extract, ByteArray.size_extract]
    omega
  · rw [ByteArray.size_extract] at hleft
    have hplace := hat (start + place) (by omega)
    rw [getElem?_pos other _ (by omega), getElem?_pos data _ (by omega)] at hplace
    rw [ByteArray.getElem_extract, ByteArray.getElem_extract]
    exact Option.some.inj hplace

/-- From a byte boundary, whole bytes are read up to another one. -/
theorem wholeBytes_eq_ok {count : Nat} (hposition : position % 8 = 0)
    (h : wholeBytes count data position = .ok (value, next)) :
    next ≤ 8 * data.size ∧ ∀ other, AgreeBefore next data other →
      wholeBytes count other position = .ok (value, next) := by
  unfold wholeBytes at h
  split at h
  · rename_i hinside
    cases h
    refine ⟨by omega, fun other hagree ↦ ?_⟩
    obtain ⟨hother, hsame⟩ :=
      extract_eq_of_agreeBefore (position / 8) (hagree.mono (by omega)) hinside
    rw [wholeBytes, if_pos hother, hsame]
  · cases h

/-- The bytes of a stored block stand at a byte boundary, behind their number and its complement. -/
theorem storedBlock_eq_ok {output : ByteArray} :
    storedBlock output data position = .ok (value, next) ↔
      ∃ length complement piece, ∃ start, start = (position + 7) / 8 * 8 ∧
        bits 16 data start = .ok (length, start + 16) ∧
        bits 16 data (start + 16) = .ok (complement, start + 32) ∧
        length + complement = 0xFFFF ∧
        wholeBytes length data (start + 32) = .ok (piece, next) ∧ value = output ++ piece := by
  constructor
  · intro h
    obtain ⟨_, start, halign, h⟩ := bind_eq_ok.1 h
    cases halign
    obtain ⟨length, _, hlength, h⟩ := bind_eq_ok.1 h
    obtain rfl := position_of_bits_eq_ok hlength
    obtain ⟨complement, _, hcomplement, h⟩ := bind_eq_ok.1 h
    obtain rfl := position_of_bits_eq_ok hcomplement
    split at h
    · rename_i hlengths
      obtain ⟨piece, _, hpiece, h⟩ := bind_eq_ok.1 h
      cases h
      exact ⟨length, complement, piece, _, rfl, hlength, hcomplement, hlengths, hpiece, rfl⟩
    · cases h
  · rintro ⟨length, complement, piece, start, rfl, hlength, hcomplement, hlengths, hpiece, rfl⟩
    refine bind_eq_ok.2 ⟨(), _, rfl, bind_eq_ok.2 ⟨length, _, hlength, ?_⟩⟩
    refine bind_eq_ok.2 ⟨complement, _, hcomplement, ?_⟩
    rw [if_pos hlengths]
    exact bind_eq_ok.2 ⟨piece, _, hpiece, rfl⟩

theorem bounded_storedBlock (output : ByteArray) : Bounded (storedBlock output) where
  forward := forward_storedBlock output
  inside := by
    intro data position value next h _
    obtain ⟨length, complement, piece, start, rfl, _, _, _, hpiece, _⟩ := storedBlock_eq_ok.1 h
    exact (wholeBytes_eq_ok (by omega) hpiece).1
  same := by
    intro data other position value next h hagree
    obtain ⟨length, complement, piece, start, rfl, hlength, hcomplement, hlengths, hpiece, hvalue⟩ :=
      storedBlock_eq_ok.1 h
    have hbefore := forward_wholeBytes length _ _ _ _ hpiece
    exact storedBlock_eq_ok.2 ⟨length, complement, piece, _, rfl,
      (bounded_bits 16).same hlength (hagree.mono (by omega)),
      (bounded_bits 16).same hcomplement (hagree.mono (by omega)), hlengths,
      (wholeBytes_eq_ok (by omega) hpiece).2 other hagree, hvalue⟩

/-! ## Compressed blocks -/

theorem bounded_classValue (classes : Array ValueClass) (fault : Fault) (symbol : Option Nat) :
    Bounded (classValue classes fault symbol) := by
  unfold classValue
  split
  · exact (bounded_bits _).bind fun _ ↦ bounded_pure _
  · exact bounded_fail fault

theorem bounded_element (codes : BlockCodes) (symbol : Option Nat) (output : ByteArray) :
    Bounded (element codes symbol output) := by
  have hrepetition (length : Nat) : Bounded (repetition codes.distances length output) :=
    codes.distances.bounded_read.bind fun _ ↦ (bounded_classValue _ _ _).bind fun _ ↦
      (bounded_fail _).ite (bounded_pure _)
  unfold element
  split
  · exact bounded_fail _
  · exact (bounded_pure _).ite ((bounded_pure _).ite
      ((bounded_classValue _ _ _).bind fun length ↦ (hrepetition length).bind fun _ ↦
        bounded_pure _))

section Elements

variable {codes : BlockCodes} {output longer whole : ByteArray} {symbol : Option Nat} {middle : Nat}

theorem elements_of_ended (hsymbol : codes.literals.read data position = .ok (symbol, middle))
    (helement : element codes symbol output data middle = .ok (.ended whole, next)) :
    elements codes output data position = .ok (whole, next) := by
  rw [elements]
  split
  · rename_i hfault
    rw [hsymbol] at hfault
    cases hfault
  · rename_i hfound
    rw [hsymbol] at hfound
    cases hfound
    rw [helement]

theorem elements_of_more (hsymbol : codes.literals.read data position = .ok (symbol, middle))
    (helement : element codes symbol output data middle = .ok (.more longer, next)) :
    elements codes output data position = elements codes longer data next := by
  rw [elements]
  split
  · rename_i hfault
    rw [hsymbol] at hfault
    cases hfault
  · rename_i hfound
    rw [hsymbol] at hfound
    cases hfound
    rw [helement]

end Elements

/-- The words of a block are read one after another, and each of them is bounded. -/
theorem bounded_elements (codes : BlockCodes) (output : ByteArray) :
    Bounded (elements codes output) where
  forward := forward_elements codes output
  inside := by
    intro data position value next h hinside
    fun_induction elements codes output data position with
    | case1 output position fault hsymbol => cases h
    | case2 output position symbol middle hsymbol fault helement => cases h
    | case3 output position symbol middle hsymbol whole after helement =>
      cases h
      exact (bounded_element codes symbol output).inside helement
        (codes.literals.bounded_read.inside hsymbol hinside)
    | case4 output position symbol middle hsymbol longer after helement ih =>
      exact ih h ((bounded_element codes symbol output).inside helement
        (codes.literals.bounded_read.inside hsymbol hinside))
  same := by
    intro data other position value next h hagree
    fun_induction elements codes output data position with
    | case1 output position fault hsymbol => cases h
    | case2 output position symbol middle hsymbol fault helement => cases h
    | case3 output position symbol middle hsymbol whole after helement =>
      cases h
      have hmiddle := forward_element codes symbol output _ _ _ _ helement
      exact elements_of_ended (codes.literals.bounded_read.same hsymbol (hagree.mono hmiddle))
        ((bounded_element codes symbol output).same helement hagree)
    | case4 output position symbol middle hsymbol longer after helement ih =>
      have hmiddle := forward_element codes symbol output _ _ _ _ helement
      have hafter := forward_elements codes longer _ _ _ _ h
      rw [elements_of_more
        (codes.literals.bounded_read.same hsymbol (hagree.mono (hmiddle.trans hafter)))
        ((bounded_element codes symbol output).same helement (hagree.mono hafter))]
      exact ih h

/-! ## Codes in front of a block -/

theorem bounded_repeated {α : Type} (count : Nat) {action : BitAction α}
    (haction : Bounded action) : Bounded (repeated count action) := by
  induction count with
  | zero => exact bounded_pure []
  | succ count ih => exact haction.bind fun _ ↦ ih.bind fun _ ↦ bounded_pure _

theorem bounded_lengthCode (lengths : List Nat) : Bounded (lengthCode lengths) :=
  (bounded_pure _).ite ((bounded_pure _).ite (bounded_fail _))

theorem bounded_lengthRun (symbol : Nat) (previous : Option Nat) :
    Bounded (lengthRun symbol previous) := by
  refine (bounded_pure _).ite (Bounded.ite ((bounded_bits 2).bind fun count ↦ ?_)
    (((bounded_bits 3).bind fun _ ↦ bounded_pure _).ite
      ((bounded_bits 7).bind fun _ ↦ bounded_pure _)))
  cases previous with
  | some length => exact bounded_pure _
  | none => exact bounded_fail _

theorem bounded_codeLengths (code : PrefixCode) (total : Nat) (found : List Nat) :
    Bounded (codeLengths code total found) := by
  fun_induction codeLengths code total found with
  | case1 found hless ih =>
    refine code.bounded_read.bind fun symbol ↦ (bounded_lengthRun _ _).bind fun run ↦ ?_
    dsimp only
    split
    · rename_i hmore
      exact ih _ _ hmore
    · exact bounded_fail _
  | case2 found hdone => exact bounded_pure _

theorem bounded_ownCodes : Bounded ownCodes :=
  (bounded_bits 5).bind fun _ ↦ (bounded_bits 5).bind fun _ ↦ (bounded_bits 4).bind fun _ ↦
    (bounded_fail _).ite <| (bounded_repeated _ (bounded_bits 3)).bind fun _ ↦
      (bounded_lengthCode _).bind fun _ ↦ (bounded_codeLengths _ _ _).bind fun _ ↦
        (bounded_fail _).ite <| (bounded_fail _).ite <| (bounded_fail _).ite (bounded_pure _)

/-! ## Streams -/

theorem bounded_nextBlock (output : ByteArray) : Bounded (nextBlock output) := by
  refine bounded_bit.bind fun isLast ↦ (bounded_bits 2).bind fun kind ↦
    Bounded.bind ?_ fun _ ↦ bounded_pure _
  unfold block
  split
  · exact bounded_storedBlock output
  · exact bounded_elements fixedCodes output
  · exact bounded_ownCodes.bind fun codes ↦ bounded_elements codes output
  · exact bounded_fail _

/-- The last block ends inside the byte string, and only bytes in front of this end matter. -/
theorem exists_end_of_blocks_eq_ok {output whole : ByteArray} (hposition : position ≤ 8 * data.size)
    (h : blocks data position output = .ok whole) :
    ∃ stop, position ≤ stop ∧ stop ≤ 8 * data.size ∧
      ∀ other, AgreeBefore stop data other → blocks other position output = .ok whole := by
  fun_induction blocks data position output with
  | case1 position output fault hblock => cases h
  | case2 position output last stop hblock =>
    cases h
    refine ⟨stop, (bounded_nextBlock output).forward _ _ _ _ hblock,
      (bounded_nextBlock output).inside hblock hposition, fun other hagree ↦ ?_⟩
    exact blocks_of_last ((bounded_nextBlock output).same hblock hagree)
  | case3 position output longer next hblock ih =>
    have hnext := (bounded_nextBlock output).forward _ _ _ _ hblock
    obtain ⟨stop, hbefore, hinside, hsame⟩ :=
      ih ((bounded_nextBlock output).inside hblock hposition) h
    refine ⟨stop, hnext.trans hbefore, hinside, fun other hagree ↦ ?_⟩
    rw [blocks_of_more ((bounded_nextBlock output).same hblock (hagree.mono hbefore))]
    exact hsame other hagree

theorem agreeBefore_append {stop used : Nat} (hstop : stop ≤ 8 * used) (hused : used ≤ data.size)
    (tail : ByteArray) : AgreeBefore stop data (data.extract 0 used ++ tail) := by
  intro place hplace
  have hsize : (data.extract 0 used).size = used := by
    rw [ByteArray.size_extract]
    omega
  have hleft : place < (data.extract 0 used).size := by omega
  have hinside : place < (data.extract 0 used ++ tail).size := by
    rw [ByteArray.size_append]
    omega
  rw [getElem?_pos _ place hinside, getElem?_pos data place (by omega),
    ByteArray.getElem_append_left hleft, ByteArray.getElem_extract]
  simp

/-- A stream that can be inflated ends inside a number of its first bytes. Whatever stands behind
these is not looked at. -/
theorem exists_end_of_inflate_eq_ok {output : ByteArray} (h : inflate data = .ok output) :
    ∃ used ≤ data.size, ∀ tail, inflate (data.extract 0 used ++ tail) = .ok output := by
  obtain ⟨stop, _, hinside, hsame⟩ := exists_end_of_blocks_eq_ok (Nat.zero_le _) h
  have hused : (stop + 7) / 8 ≤ data.size := by omega
  exact ⟨(stop + 7) / 8, hused, fun tail ↦ hsame _ (agreeBefore_append (by omega) hused tail)⟩

theorem inflate_append {output : ByteArray} (h : inflate data = .ok output) (tail : ByteArray) :
    inflate (data ++ tail) = .ok output := by
  obtain ⟨stop, _, hinside, hsame⟩ := exists_end_of_blocks_eq_ok (Nat.zero_le _) h
  have hagree := agreeBefore_append hinside (Nat.le_refl _) tail
  rw [ByteArray.extract_zero_size] at hagree
  exact hsame _ hagree

end CompiledScript.Deflate
