import CompiledScript.Proofs.Bytes.Held
import CompiledScript.Proofs.Number.LittleEndian
import CompiledScript.Reader.Forward

/-!
# What an action reads

`Reads data action offset run value` says that the action, started at an offset of the buffer where
the run stands, yields the value and stops behind the run. Two actions one after the other read two
runs one after the other, so the reader of a format is followed along the writer of the format. The
run of a code fragment may depend on the place where it stands, because of alignment.
-/

namespace CompiledScript.Reader

open Bytes Number

/-- A reader over a buffer of least-significant-first numbers. -/
def readerAt (data : ByteArray) (position : Int) : Reader :=
  ⟨some data, .little, position⟩

/-- Where the buffer holds the run at the offset, the action takes it for the value. -/
def Reads {α : Type} (data : ByteArray) (action : Action α) (offset : Int) (run : List UInt8)
    (value : α) : Prop :=
  Holds data offset run →
    action (readerAt data offset) = .ok value (readerAt data (offset + run.length))

variable {α β : Type} {data : ByteArray} {offset : Int} {run : List UInt8}

theorem Reads.bind {action : Action α} {f : α → Action β} {first second : List UInt8} {a : α}
    {b : β} (haction : Reads data action offset first a)
    (hf : Reads data (f a) (offset + first.length) second b) :
    Reads data (action >>= f) offset (first ++ second) b := by
  intro h
  apply bind_eq_ok.2
  refine ⟨a, readerAt data (offset + first.length), haction h.left, ?_⟩
  rw [hf h.right, List.length_append]
  push_cast
  rw [Int.add_assoc]

theorem Reads.map {action : Action α} {a : α} (g : α → β)
    (haction : Reads data action offset run a) :
    Reads data (action >>= fun value ↦ pure (g value)) offset run (g a) := by
  intro h
  exact bind_eq_ok.2 ⟨a, _, haction h, rfl⟩

/-- An action that stays where it is needs no run of its own. -/
theorem Reads.after {action : Action α} {f : α → Action β} {a : α} {b : β}
    (hf : Reads data (f a) offset run b)
    (haction : action (readerAt data offset) = .ok a (readerAt data offset)) :
    Reads data (action >>= f) offset run b := by
  intro h
  exact bind_eq_ok.2 ⟨a, _, haction, hf h⟩

theorem Reads.get_bind {f : Reader → Action β} {b : β}
    (hf : Reads data (f (readerAt data offset)) offset run b) :
    Reads data (get >>= f) offset run b :=
  hf.after rfl

theorem reads_pure (value : α) : Reads data (pure value) offset [] value := by
  intro _
  simp only [List.length_nil, Int.natCast_zero, Int.add_zero]
  rfl

theorem reads_skip {count : Int} (hrun : (run.length : Int) = count) :
    Reads data (skip count) offset run () := by
  intro h
  have hnonneg := h.offset_nonneg
  have hstop := h.stop_le_size
  apply skip_eq_ok.2
  refine ⟨data, rfl, ?_, ?_, ?_⟩
  · change 0 ≤ offset + count
    omega
  · change offset + count ≤ data.size
    omega
  · rw [hrun]
    rfl

/-- An alignment takes the bytes up to the next multiple, whatever they are. -/
theorem reads_align {boundary : Int} (hboundary : 0 < boundary)
    (hrun : (run.length : Int) = paddingTo offset boundary) :
    Reads data (align boundary) offset run (paddingTo offset boundary) := by
  intro h
  have hpadding : padding? offset boundary = some (paddingTo offset boundary) := by
    unfold padding?
    rw [if_neg (by omega)]
  unfold align
  apply bind_eq_ok.2
  refine ⟨readerAt data offset, readerAt data offset, rfl, ?_⟩
  simp only [readerAt, hpadding]
  split
  · rename_i hzero
    rw [hzero, hrun, hzero, Int.add_zero]
    rfl
  · exact bind_eq_ok.2 ⟨(), _, reads_skip hrun h, rfl⟩

theorem reads_field : Reads data (field run.length) offset run run := by
  intro h
  exact field_eq_ok.2 ⟨data, rfl, h.offset_nonneg, h.stop_le_size, h.extract_eq.symm, rfl⟩

/-- A field is taken for the number that its bytes stand for. -/
theorem reads_unsigned_residue (width : Nat) (value : Int) :
    Reads data (unsigned width) offset (toLittleEndian width value)
      (ofLittleEndian (toLittleEndian width value)) := by
  intro h
  have hfield : Reads data (field width) offset (toLittleEndian width value)
      (toLittleEndian width value) := by
    have hrun : Reads data (field (toLittleEndian width value).length) offset
        (toLittleEndian width value) (toLittleEndian width value) := reads_field
    rwa [length_toLittleEndian] at hrun
  apply bind_eq_ok.2
  exact ⟨_, _, hfield h, rfl⟩

theorem reads_unsigned {width value : Nat} (hvalue : FitsUnsigned width value) :
    Reads data (unsigned width) offset (toLittleEndian width value) value := by
  have hread : Reads data (unsigned width) offset (toLittleEndian width value) _ :=
    reads_unsigned_residue width value
  rwa [ofLittleEndian_toLittleEndian_unsigned hvalue] at hread

theorem reads_signed {width : Nat} {value : Int} (hvalue : FitsSigned width value) :
    Reads data (signed width) offset (toLittleEndian width value) value := by
  have hread : Reads data (signed width) offset (toLittleEndian width value) _ :=
    (reads_unsigned_residue width value).map (toSigned width)
  rwa [toSigned_ofLittleEndian_toLittleEndian hvalue] at hread

theorem reads_f32 (x : Binary32) :
    Reads data f32 offset (toLittleEndian 4 x.bits.toNat) x := by
  have hfits : FitsUnsigned 4 x.bits.toNat := x.bits.toNat_lt
  have hread : Reads data f32 offset (toLittleEndian 4 x.bits.toNat) ⟨x.bits.toNat.toUInt32⟩ :=
    (reads_unsigned hfits).map fun bits ↦ (⟨bits.toUInt32⟩ : Binary32)
  rwa [show x.bits.toNat.toUInt32 = x.bits from UInt32.ofNat_toNat] at hread

theorem window_eq_of_holds (h : Holds data offset run) :
    Bytes.window data offset (offset + run.length) = ⟨run.toArray⟩ := by
  have hnonneg := h.offset_nonneg
  have hstop : (offset + run.length).toNat = offset.toNat + run.length := by omega
  rw [window_of_nonneg hnonneg (by omega), hstop]
  exact h.extract_eq_toArray

theorem reads_bytes {count : Int} (hrun : (run.length : Int) = count) :
    Reads data (bytes count) offset run ⟨run.toArray⟩ := by
  intro h
  have hstop := h.stop_le_size
  apply bytes_eq_ok.2
  refine ⟨data, rfl, by omega, ?_, ?_, ?_⟩
  · change offset + count ≤ data.size
    omega
  · rw [← hrun]
    exact (window_eq_of_holds h).symm
  · rw [← hrun]
    rfl

/-- A run without a zero byte is read up to the zero byte behind it. -/
theorem textAt_of_holds {r : Reader} (hrun : 0 ∉ run) (hdata : r.contents = some data)
    (h : Holds data offset (run ++ [0])) :
    textAt offset r = .ok (Text.Utf8.decodeLenient run, offset + run.length + 1) r := by
  have hnonneg := h.offset_nonneg
  have hstop := h.stop_le_size
  rw [List.length_append, List.length_singleton] at hstop
  have hend : ((offset.toNat + run.length : Nat) : Int) + 1 = offset + run.length + 1 := by omega
  unfold textAt
  rw [if_neg (by omega)]
  apply bind_eq_ok.2
  refine ⟨data, r, buffer_eq_ok.2 ⟨hdata, rfl⟩, ?_⟩
  rw [if_pos (by omega), findFrom?_eq_of_holds hrun h]
  simp only [h.left.extract_eq, hend]
  rfl

theorem peekText_of_run {r : Reader} (hrun : 0 ∉ run) (hdata : r.contents = some data)
    (h : Holds data offset (run ++ [0])) :
    peekText offset r = .ok (Text.Utf8.decodeLenient run) r :=
  bind_eq_ok.2 ⟨_, r, textAt_of_holds hrun hdata h, rfl⟩

/-- A text is looked up where the buffer holds it with a zero byte behind it. -/
theorem peekText_of_holds {name : List UInt8} {pointer : Int} (hname : 0 ∉ name)
    (h : Holds data pointer (name ++ [0])) :
    peekText pointer (readerAt data offset) =
      .ok (Text.Utf8.decodeLenient name) (readerAt data offset) :=
  peekText_of_run hname rfl h

/-- A seek goes to where the buffer holds a run, from wherever the reader stands. -/
theorem seek_of_holds {position : Int} (h : Holds data offset run) :
    seek offset (readerAt data position) = .ok () (readerAt data offset) :=
  seek_eq_ok.2 ⟨data, rfl, h.offset_nonneg, h.offset_le_size, rfl⟩

/-- The unsigned number of `width` bytes at a position of the buffer. -/
@[irreducible]
def unsignedAt (data : ByteArray) (width : Nat) (position : Int) : Nat :=
  ofLittleEndian (data.extract position.toNat (position.toNat + width)).data.toList

/-- The signed number of `width` bytes at a position of the buffer. -/
@[irreducible]
def signedAt (data : ByteArray) (width : Nat) (position : Int) : Int :=
  toSigned width (unsignedAt data width position)

/-- A number that was read is the one that stands at the position, all of it in the buffer. -/
theorem unsigned_readerAt_eq_ok {width value : Nat} {r : Reader}
    (h : unsigned width (readerAt data offset) = .ok value r) :
    value = unsignedAt data width offset ∧ 0 ≤ offset ∧ offset + width ≤ data.size ∧
      r = readerAt data (offset + width) := by
  obtain ⟨bytes, behind, hfield, hnumber⟩ := bind_eq_ok.1 h
  obtain ⟨same, hsame, hlow, hhigh, rfl, rfl⟩ := field_eq_ok.1 hfield
  cases hsame
  cases hnumber
  exact ⟨by rw [unsignedAt]; rfl, hlow, hhigh, rfl⟩

theorem signed_readerAt_eq_ok {width : Nat} {value : Int} {r : Reader}
    (h : signed width (readerAt data offset) = .ok value r) :
    value = signedAt data width offset ∧ 0 ≤ offset ∧ offset + width ≤ data.size ∧
      r = readerAt data (offset + width) := by
  obtain ⟨found, middle, hunsigned, hnumber⟩ := bind_eq_ok.1 h
  obtain ⟨rfl, hlow, hhigh, rfl⟩ := unsigned_readerAt_eq_ok hunsigned
  cases hnumber
  exact ⟨by rw [signedAt], hlow, hhigh, rfl⟩

/-- A number is read wherever all of it lies in the buffer. -/
theorem signed_readerAt_of_inside {width : Nat} (hlow : 0 ≤ offset)
    (hhigh : offset + width ≤ data.size) :
    signed width (readerAt data offset) =
      .ok (signedAt data width offset) (readerAt data (offset + width)) := by
  rw [signedAt, unsignedAt]
  apply bind_eq_ok.2
  refine ⟨_, _, bind_eq_ok.2 ⟨_, _, field_eq_ok.2 ⟨data, rfl, hlow, hhigh, rfl, rfl⟩, rfl⟩, rfl⟩

/-- The runs of a list of entries one after another, where the run of an entry may depend on the
place where it stands. -/
def joined {ι : Type} (code : ι → Int → List UInt8) : List ι → Int → List UInt8
  | [], _ => []
  | entry :: rest, offset =>
    code entry offset ++ joined code rest (offset + (code entry offset).length)

theorem joined_const {ι : Type} (code : ι → List UInt8) (entries : List ι) (offset : Int) :
    joined (fun entry _ ↦ code entry) entries offset = entries.flatMap code := by
  induction entries generalizing offset with
  | nil => rfl
  | cons entry rest ih => rw [joined, ih, List.flatMap_cons]

theorem reads_repeated {ι : Type} {action : Action α} (code : ι → Int → List UInt8) (value : ι → α)
    {entries : List ι}
    (haction : ∀ entry ∈ entries, ∀ offset,
      Reads data action offset (code entry offset) (value entry)) :
    Reads data (repeated entries.length action) offset (joined code entries offset)
      (entries.map value) := by
  induction entries generalizing offset with
  | nil => exact reads_pure []
  | cons entry rest ih =>
    apply (haction entry List.mem_cons_self offset).bind
    apply Reads.map (List.cons (value entry))
    exact ih fun other hother ↦ haction other (List.mem_cons_of_mem _ hother)

end CompiledScript.Reader
