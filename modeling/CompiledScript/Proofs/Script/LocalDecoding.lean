import CompiledScript.Proofs.Reader.Slices
import CompiledScript.Proofs.Script.Operands
import CompiledScript.Proofs.Script.SwitchTables

/-!
# Readings that depend on their own bytes only

A reading that moves forward without looking elsewhere depends on the bytes between the place where
it starts and the place where it ends, and on nothing else in the buffer. Another buffer may hold
these bytes at another address. If the distance is a multiple of four, all alignments are the same,
so the same bytes are taken for the same operands; only the targets of a switch, which are addresses
themselves, move along. The texts that are cited have to move along too. The text of an animation
stands at some other place of the buffer, to which its operand points.
-/

namespace CompiledScript

/-! ## Values at a distance -/

/-- The case at a distance: its target moves along. -/
def SwitchCase.relocate (shift : Int) (entry : SwitchCase) : SwitchCase :=
  { entry with target := entry.target + shift }

/-- The operand at a distance: only the cases of a switch hold addresses. -/
def Operand.relocate {ν : Type} (shift : Int) : Operand ν → Operand ν
  | .switchCase entry => .switchCase (entry.relocate shift)
  | operand => operand

def Instruction.relocate {ν : Type} (shift : Int) (instruction : Instruction ν) : Instruction ν :=
  { instruction with
    offset := instruction.offset + shift
    operands := instruction.operands.map (Operand.relocate shift) }

theorem Operand.relocate_zero {ν : Type} (operand : Operand ν) : operand.relocate 0 = operand := by
  cases operand <;> simp [Operand.relocate, SwitchCase.relocate]

theorem Instruction.relocate_zero {ν : Type} (instruction : Instruction ν) :
    instruction.relocate 0 = instruction := by
  have hid : Operand.relocate (ν := ν) 0 = id := funext Operand.relocate_zero
  simp [Instruction.relocate, hid]

theorem Instruction.stop_relocate {ν : Type} (shift : Int) (instruction : Instruction ν) :
    (instruction.relocate shift).stop = instruction.stop + shift :=
  Int.add_right_comm _ _ _

/-- What is read as a distance stays the same, so a jump goes to an address that moves along. -/
theorem Instruction.target?_relocate {ν : Type} (shift : Int) (instruction : Instruction ν) :
    (instruction.relocate shift).target? = instruction.target?.map (· + shift) := by
  obtain ⟨offset, opcode, size, operands⟩ := instruction
  unfold Instruction.target? Instruction.relocate
  dsimp only
  split
  · rcases operands with _ | ⟨first, rest⟩
    · rfl
    · cases first with
      | integer distance =>
        change some (offset + shift + distance) = some (offset + distance + shift)
        rw [Int.add_right_comm]
      | _ => rfl
  · rfl

namespace Bytes

variable {data other : ByteArray} {offset start : Int} {run first second code : List UInt8}

theorem holds_nil_iff : Holds data offset [] ↔ 0 ≤ offset ∧ offset ≤ data.size := by
  rw [holds_iff]
  simp

theorem natCast_length_append (first second : List UInt8) :
    ((first ++ second).length : Int) = first.length + second.length := by
  rw [List.length_append]
  push_cast
  rfl

theorem Holds.append (hfirst : Holds data offset first)
    (hsecond : Holds data (offset + first.length) second) :
    Holds data offset (first ++ second) := by
  rw [holds_iff] at hfirst hsecond ⊢
  obtain ⟨hlow, hhigh, rest, hrest⟩ := hfirst
  obtain ⟨_, _, hsuffix⟩ := hsecond
  refine ⟨hlow, hhigh, ?_⟩
  have hplace : (offset + first.length).toNat = offset.toNat + first.length := by omega
  rw [hplace, ← List.drop_drop, ← hrest, List.drop_left] at hsuffix
  rw [← hrest]
  exact (List.prefix_append_right_inj first).2 hsuffix

/-- The bytes between two places of a buffer are held there. -/
theorem exists_holds {count : Nat} (hlow : 0 ≤ offset) (hhigh : offset + count ≤ data.size) :
    ∃ run : List UInt8, run.length = count ∧ Holds data offset run := by
  refine ⟨(data.data.toList.drop offset.toNat).take count, ?_, ?_⟩
  · rw [List.length_take, List.length_drop, length_toList_data]
    omega
  · exact holds_iff.2 ⟨hlow, by omega, List.take_prefix _ _⟩

/-- A run inside a longer one is held by every buffer that holds the longer one, at the same
distance. -/
theorem Holds.of_inside {shift : Int} (hcode : Holds data start code) (hrun : Holds data offset run)
    (hlow : start ≤ offset) (hhigh : offset + run.length ≤ start + code.length)
    (hother : Holds other (start + shift) code) : Holds other (offset + shift) run := by
  have hsplit (buffer : ByteArray) (place : Int) (h : Holds buffer place code) :
      Holds buffer (place + (offset - start)) (code.drop (offset - start).toNat) := by
    have hlength : ((code.take (offset - start).toNat).length : Int) = offset - start := by
      rw [List.length_take]
      omega
    rw [← List.take_append_drop (offset - start).toNat code] at h
    have hright := h.right
    rwa [hlength] at hright
  have hprefix : run <+: code.drop (offset - start).toNat := by
    have hheld := hsplit data start hcode
    rw [show start + (offset - start) = offset by omega] at hheld
    obtain ⟨_, _, hcode'⟩ := holds_iff.1 hheld
    obtain ⟨_, _, hrun'⟩ := holds_iff.1 hrun
    refine List.prefix_of_prefix_length_le hrun' hcode' ?_
    rw [List.length_drop]
    omega
  obtain ⟨rest, hrest⟩ := hprefix
  have hheld := hsplit other (start + shift) hother
  rw [← hrest, show start + shift + (offset - start) = offset + shift by omega] at hheld
  exact hheld.left

end Bytes

namespace Reader

open Bytes Number

section Moves

variable {α β γ δ : Type} {shift : Int} {agrees : Int → Prop} {change : α → β} {change' : γ → δ}
  {action : Action α} {action' : Action β}

/-- A success that starts inside the buffer ends behind a run of bytes there. Every buffer that
holds the run at a distance makes the other action yield the changed value, if the addresses of the
run have a property. -/
def Moves (shift : Int) (agrees : Int → Prop) (change : α → β) (action : Action α)
    (action' : Action β) : Prop :=
  ∀ (data : ByteArray) (offset : Int) (value : α) (r : Reader), Holds data offset [] →
    action (readerAt data offset) = .ok value r →
    ∃ run, Holds data offset run ∧ r = readerAt data (offset + run.length) ∧
      ((∀ address, offset ≤ address → address < offset + run.length → agrees address) →
        ∀ other, Reads other action' (offset + shift) run (change value))

theorem moves_pure (change : α → β) (value : α) :
    Moves shift agrees change (pure value : Action α) (pure (change value)) := by
  intro data offset result r hinside h
  cases h
  exact ⟨[], hinside, by simp [readerAt], fun _ _ ↦ reads_pure (change value)⟩

theorem Moves.bind {f : α → Action γ} {f' : β → Action δ}
    (haction : Moves shift agrees change action action')
    (hf : ∀ value, Moves shift agrees change' (f value) (f' (change value))) :
    Moves shift agrees change' (action >>= f) (action' >>= f') := by
  intro data offset result r hinside h
  obtain ⟨value, middle, hfirst, hsecond⟩ := bind_eq_ok.1 h
  obtain ⟨first, hheld, rfl, hreads⟩ := haction data offset value middle hinside hfirst
  obtain ⟨second, hheld', rfl, hreads'⟩ := hf value data _ result r hheld.stop hsecond
  have hlength := natCast_length_append first second
  refine ⟨first ++ second, hheld.append hheld', ?_, fun hagrees other ↦ ?_⟩
  · rw [hlength, Int.add_assoc]
  · have hread := hreads (fun address hlow _ ↦ hagrees address hlow (by omega)) other
    have hread' := hreads' (fun address _ _ ↦ hagrees address (by omega) (by omega)) other
    rw [Int.add_right_comm] at hread'
    exact hread.bind hread'

theorem Moves.map {g : α → γ} {g' : β → δ} (haction : Moves shift agrees change action action')
    (hg : ∀ value, change' (g value) = g' (change value)) :
    Moves shift agrees change' (action >>= fun value ↦ pure (g value))
      (action' >>= fun value ↦ pure (g' value)) := by
  refine haction.bind fun value ↦ ?_
  rw [← hg]
  exact moves_pure change' (g value)

/-- A reading may look at the position, which differs by the distance. -/
theorem moves_inspect {f : Reader → Action α} {f' : Reader → Action β}
    (hf : ∀ r r' : Reader, r'.position = r.position + shift →
      Moves shift agrees change (f r) (f' r')) :
    Moves shift agrees change (get >>= f) (get >>= f') := by
  intro data offset value r hinside h
  have hrun : f (readerAt data offset) (readerAt data offset) = .ok value r := h
  have hmoves (other : ByteArray) :=
    hf (readerAt data offset) (readerAt other (offset + shift)) rfl
  obtain ⟨run, hheld, hstop, _⟩ := hmoves data data offset value r hinside hrun
  refine ⟨run, hheld, hstop, fun hagrees other ↦ Reads.get_bind ?_⟩
  -- The run does not depend on the other buffer: it ends where the reading ends.
  obtain ⟨run', hheld', hstop', hreads⟩ := hmoves other data offset value r hinside hrun
  obtain rfl : run' = run := by
    have hlength : run'.length = run.length := by
      have hposition := congrArg Reader.position (hstop'.symm.trans hstop)
      change offset + run'.length = offset + run.length at hposition
      omega
    rw [← hheld'.extract_eq, ← hheld.extract_eq, hlength]
  exact hreads hagrees other

theorem exists_holds_of_skip_eq_ok {data : ByteArray} {offset count : Int} {value : Unit}
    {r : Reader} (hcount : 0 ≤ count) (hinside : Holds data offset [])
    (h : skip count (readerAt data offset) = .ok value r) :
    ∃ run, Holds data offset run ∧ (run.length : Int) = count ∧
      r = readerAt data (offset + run.length) := by
  obtain ⟨_, hdata, _, hhigh, rfl⟩ := skip_eq_ok.1 h
  cases hdata
  have hstop : offset + count.toNat ≤ data.size := by
    change offset + count ≤ data.size at hhigh
    omega
  obtain ⟨run, hlength, hheld⟩ := exists_holds hinside.offset_nonneg hstop
  have hcount' : (run.length : Int) = count := by omega
  refine ⟨run, hheld, hcount', ?_⟩
  rw [hcount']
  rfl

theorem moves_skip {count : Int} (hcount : 0 ≤ count) :
    Moves shift agrees id (skip count) (skip count) := by
  intro data offset value r hinside h
  obtain ⟨run, hheld, hlength, hstop⟩ := exists_holds_of_skip_eq_ok hcount hinside h
  exact ⟨run, hheld, hstop, fun _ _ ↦ reads_skip hlength⟩

/-- An alignment is the same at every distance that is a multiple of the boundary. -/
theorem moves_align {boundary : Int} (hboundary : 0 < boundary) (hshift : boundary ∣ shift) :
    Moves shift agrees id (align boundary) (align boundary) := by
  refine moves_inspect fun r r' hr ↦ ?_
  have hpadding : paddingTo r'.position boundary = paddingTo r.position boundary := by
    obtain ⟨times, rfl⟩ := hshift
    rw [hr, paddingTo, paddingTo, Int.add_mul_fmod_self_left]
  rw [padding?, padding?, if_neg (by omega), if_neg (by omega), hpadding]
  dsimp only
  split
  · exact moves_pure id 0
  · exact (moves_skip (paddingTo_nonneg hboundary)).map fun _ ↦ rfl

theorem moves_unsigned (width : Nat) :
    Moves shift agrees id (unsigned width) (unsigned width) := by
  intro data offset value r hinside h
  obtain ⟨bytes, behind, hfield, hnumber⟩ := bind_eq_ok.1 h
  obtain ⟨_, hdata, hlow, hhigh, hbytes, rfl⟩ := field_eq_ok.1 hfield
  cases hdata
  cases hnumber
  obtain ⟨run, rfl, hheld⟩ := exists_holds hlow hhigh
  refine ⟨run, hheld, rfl, fun _ other hother ↦ ?_⟩
  rw [hbytes, hheld.extract_eq]
  exact bind_eq_ok.2 ⟨run, _, reads_field hother, rfl⟩

theorem moves_signed (width : Nat) : Moves shift agrees id (signed width) (signed width) :=
  (moves_unsigned width).map fun _ ↦ rfl

theorem moves_f32 : Moves shift agrees id f32 f32 :=
  (moves_unsigned 4).map fun _ ↦ rfl

theorem moves_repeated (count : Nat) (haction : Moves shift agrees change action action') :
    Moves shift agrees (List.map change) (repeated count action) (repeated count action') := by
  induction count with
  | zero => exact moves_pure (List.map change) []
  | succ count ih => exact haction.bind fun _ ↦ ih.map fun _ ↦ rfl

end Moves

/-- A run stands for the same number at all offsets. -/
theorem signedAt_eq_of_holds {data other : ByteArray} {offset place : Int} {run : List UInt8}
    (h : Holds data offset run) (hother : Holds other place run) :
    signedAt other run.length place = signedAt data run.length offset := by
  rw [signedAt, signedAt, unsignedAt, unsignedAt, h.extract_eq, hother.extract_eq]

end Reader

namespace Script

open Bytes Reader

/-! ## Operands -/

section Operands

variable {ν : Type} {names : Symbol → ν} {index index' : StringIndex} {shift : Int}

/-- At a distance, the other index gives the same text to an address, or none to both. -/
def CitesAlike (index index' : StringIndex) (shift address : Int) : Prop :=
  index'.text? (address + shift) = index.text? address

/-- The citation in the middle of a slot is one of the addresses that the slot takes. -/
theorem moves_caseLabel (isLast : Bool) :
    Moves shift (CitesAlike index index' shift) id (caseLabel index isLast)
      (caseLabel index' isLast) := by
  intro data offset label r hinside h
  have hlow := hinside.offset_nonneg
  obtain ⟨hhigh, rfl, rfl⟩ := (caseLabel_readerAt_eq_ok hlow).1 h
  have hslot : offset + (4 : Nat) ≤ data.size := hhigh
  obtain ⟨run, hlength, hheld⟩ := exists_holds hlow hslot
  refine ⟨run, hheld, by rw [hlength]; rfl, fun hagrees other hother ↦ ?_⟩
  have htext : index'.text? (offset + shift + 2) = index.text? (offset + 2) := by
    rw [Int.add_right_comm]
    exact hagrees (offset + 2) (by omega) (by omega)
  have hnumber := signedAt_eq_of_holds hheld hother
  have hstop := hother.stop_le_size
  rw [hlength] at hnumber hstop ⊢
  refine (caseLabel_readerAt_eq_ok hother.offset_nonneg).2 ⟨hstop, ?_, rfl⟩
  rw [htext, hnumber]
  rfl

/-- The distance to a target is counted from the slot, so the target moves along. -/
theorem moves_switchCase (isLast : Bool) (place : Nat) :
    Moves shift (CitesAlike index index' shift) (SwitchCase.relocate shift)
      (switchCase index isLast place) (switchCase index' isLast place) := by
  refine (moves_caseLabel isLast).bind fun label ↦ moves_inspect fun r r' hr ↦
    (moves_signed 4).map fun distance ↦ ?_
  rw [hr]
  have htarget : r.position + distance + 4 + shift = r.position + shift + distance + 4 := by omega
  exact congrArg (fun target ↦ (⟨label, target, place⟩ : SwitchCase)) htarget

theorem moves_switchCases (left place : Nat) :
    Moves shift (CitesAlike index index' shift) (List.map (SwitchCase.relocate shift))
      (switchCases index left place) (switchCases index' left place) := by
  induction left generalizing place with
  | zero => exact moves_pure (List.map (SwitchCase.relocate shift)) []
  | succ left ih => exact (moves_switchCase _ _).bind fun _ ↦ (ih _).map fun _ ↦ rfl

variable {agrees : Int → Prop} (hshift : 4 ∣ shift)

include hshift

theorem moves_alignShort : Moves shift agrees id alignShort alignShort :=
  (moves_align (by decide) (Int.dvd_trans (by decide) hshift)).map fun _ ↦ rfl

theorem moves_alignWord : Moves shift agrees id alignWord alignWord :=
  (moves_align (by decide) hshift).map fun _ ↦ rfl

theorem moves_hashName (kind : SymbolKind) :
    Moves shift agrees id (hashName names kind) (hashName names kind) :=
  (moves_alignWord hshift).bind fun _ ↦ (moves_unsigned 4).map fun _ ↦ rfl

theorem moves_variableEntry :
    Moves shift agrees (Operand.relocate shift) (variableEntry names) (variableEntry names) :=
  (moves_hashName hshift _).bind fun _ ↦ (moves_skip (by decide)).map fun _ ↦ rfl

/-- All targets move by the same distance, so they are sorted in the same way. -/
theorem moves_switchTable :
    Moves shift (CitesAlike index index' shift) (List.map (SwitchCase.relocate shift))
      (switchTable index) (switchTable index') := by
  refine (moves_alignWord hshift).bind fun _ ↦ (moves_signed 4).bind fun _ ↦
    (moves_switchCases _ _).map fun entries ↦ List.map_mergeSort fun a _ b _ ↦ ?_
  simp [SwitchCase.relocate]

theorem moves_citedText :
    Moves shift (CitesAlike index index' shift) id (citedText index) (citedText index') := by
  refine (moves_alignShort hshift).bind fun _ ↦ ?_
  intro data offset value r hinside h
  obtain ⟨_, _, hget, hrest⟩ := bind_eq_ok.1 h
  cases hget
  obtain ⟨_, _, hskip, hvalue⟩ := bind_eq_ok.1 hrest
  cases hvalue
  obtain ⟨run, hheld, hlength, rfl⟩ := exists_holds_of_skip_eq_ok (by decide) hinside hskip
  refine ⟨run, hheld, rfl, fun hagrees other ↦ Reads.get_bind ?_⟩
  have htext : index'.text? (offset + shift) = index.text? offset :=
    hagrees offset (by omega) (by omega)
  change Reads other (skip 2 >>= fun _ ↦ pure ((index'.text? (offset + shift)).getD "")) _ run
    ((index.text? offset).getD "")
  rw [htext]
  exact (reads_skip hlength).map fun _ ↦ (index.text? offset).getD ""

/-- Only an animation has a text at another place. -/
theorem moves_operands {encoding : Encoding} (h : encoding ≠ .animation) :
    Moves shift (CitesAlike index index' shift) (List.map (Operand.relocate shift))
      (operands names index encoding) (operands names index' encoding) := by
  cases encoding with
  | none => exact moves_pure (List.map (Operand.relocate shift)) []
  | signedByte => exact (moves_signed 1).map fun _ ↦ rfl
  | unsignedByte | negatedByte | vectorFlags => exact (moves_unsigned 1).map fun _ ↦ rfl
  | signedShort =>
    exact (moves_alignShort hshift).bind fun _ ↦ (moves_signed 2).map fun _ ↦ rfl
  | unsignedShort | negatedShort =>
    exact (moves_alignShort hshift).bind fun _ ↦ (moves_unsigned 2).map fun _ ↦ rfl
  | signedWord =>
    exact (moves_alignWord hshift).bind fun _ ↦ (moves_signed 4).map fun _ ↦ rfl
  | unsignedWord =>
    exact (moves_alignWord hshift).bind fun _ ↦ (moves_unsigned 4).map fun _ ↦ rfl
  | hash | variableName | functionPointer => exact (moves_hashName hshift _).map fun _ ↦ rfl
  | real => exact (moves_alignWord hshift).bind fun _ ↦ moves_f32.map fun _ ↦ rfl
  | vector =>
    exact (moves_alignWord hshift).bind fun _ ↦ moves_f32.bind fun _ ↦ moves_f32.bind fun _ ↦
      moves_f32.map fun _ ↦ rfl
  | text | localizedText => exact (moves_citedText hshift).map fun _ ↦ rfl
  | animation => contradiction
  | call =>
    exact (moves_skip (by decide)).bind fun _ ↦ (moves_hashName hshift _).map fun _ ↦ rfl
  | countedCall =>
    exact (moves_unsigned 1).bind fun _ ↦ (moves_hashName hshift _).map fun _ ↦ rfl
  | variableList =>
    exact (moves_unsigned 1).bind fun _ ↦ moves_repeated _ (moves_variableEntry hshift)
  | cases =>
    refine (moves_switchTable hshift).map fun entries ↦ ?_
    rw [List.map_map, List.map_map]
    rfl

/-- The operands take a run of bytes. Another buffer that holds the run at a distance has the same
operands there, if it cites the same texts; the pointer of an animation, which ends the run, has to
lead to the same text as well. -/
theorem exists_run_of_operands_eq_ok (index' : StringIndex) {data : ByteArray} {offset : Int}
    {r : Reader} {encoding : Encoding} {values : List (Operand ν)}
    (hinside : Holds data offset [])
    (h : operands names index encoding (readerAt data offset) = .ok values r) :
    ∃ run, Holds data offset run ∧ r = readerAt data (offset + run.length) ∧
      ∀ other,
        (∀ address, offset ≤ address → address < offset + run.length →
          CitesAlike index index' shift address) →
        (encoding = .animation → storedText? other (signedAt data 4 (r.position - 4)) =
          storedText? data (signedAt data 4 (r.position - 4))) →
        Reads other (operands names index' encoding) (offset + shift) run
          (values.map (Operand.relocate shift)) := by
  by_cases hencoding : encoding = .animation
  · subst hencoding
    obtain ⟨_, middle, halign, hrest⟩ := bind_eq_ok.1 h
    obtain ⟨pointer, _, hnumber, htext⟩ := bind_eq_ok.1 hrest
    obtain ⟨path, _, hpeek, hvalues⟩ := bind_eq_ok.1 htext
    obtain ⟨_, hdata, hstored, rfl⟩ := peekText_eq_ok.1 hpeek
    cases hvalues
    -- What is left without the look at the text is a reading like the others.
    have hmoves : Moves shift (fun _ ↦ True) id (alignWord >>= fun _ ↦ i32)
        (alignWord >>= fun _ ↦ i32) :=
      (moves_alignWord hshift).bind fun _ ↦ moves_signed 4
    obtain ⟨run, hheld, hstop, hreads⟩ := hmoves data offset pointer r hinside
      (bind_eq_ok.2 ⟨_, middle, halign, hnumber⟩)
    obtain ⟨start, hstart⟩ : ∃ start, aligned? offset 4 = some start := ⟨_, rfl⟩
    obtain rfl := position_of_alignWord hstart halign
    obtain ⟨rfl, _, _, rfl⟩ := signed_readerAt_eq_ok hnumber
    cases hdata
    have hplace : (readerAt data (start + (4 : Nat))).position - 4 = start := by
      change start + 4 - 4 = start
      omega
    rw [hplace]
    refine ⟨run, hheld, hstop, fun other _ hsame hother ↦ ?_⟩
    obtain ⟨_, _, halign', hnumber'⟩ := bind_eq_ok.1 (hreads (fun _ _ _ ↦ trivial) other hother)
    have hpath : storedText? other (signedAt data 4 start) = some path :=
      (hsame rfl).trans hstored
    refine bind_eq_ok.2 ⟨_, _, halign', bind_eq_ok.2 ⟨_, _, hnumber', ?_⟩⟩
    exact bind_eq_ok.2 ⟨path, _, peekText_eq_ok.2 ⟨other, rfl, hpath, rfl⟩, rfl⟩
  · obtain ⟨run, hheld, hstop, hreads⟩ := moves_operands hshift hencoding data offset values r
      hinside h
    exact ⟨run, hheld, hstop, fun other hcites _ ↦ hreads hcites other⟩

end Operands

variable {ν : Type} {names : Symbol → ν}

/-- An instruction that was decoded is an opcode and its operands, up to where the reader stands. -/
theorem exists_parts_of_instruction_eq_ok {index : StringIndex} {offset : Int} {r r' : Reader}
    {found : Instruction ν} (h : instruction names index offset r = .ok found r') :
    ∃ (data : ByteArray) (byte : Nat) (opcode : Opcode) (values : List (Operand ν))
      (behind : Reader),
      r.contents = some data ∧ 0 ≤ offset ∧ offset ≤ data.size ∧
      unsigned 1 { r with position := offset } = .ok byte behind ∧
      Opcode.ofByte? byte.toUInt8 = some opcode ∧
      operands names index opcode.encoding behind = .ok values r' ∧
      found = ⟨offset, opcode, r'.position - offset, values⟩ := by
  obtain ⟨_, start, hseek, hrest⟩ := bind_eq_ok.1 h
  obtain ⟨data, hdata, hlow, hhigh, rfl⟩ := Reader.seek_eq_ok.1 hseek
  obtain ⟨byte, behind, hbyte, hrest⟩ := bind_eq_ok.1 hrest
  cases hopcode : Opcode.ofByte? byte.toUInt8 with
  | none =>
    rw [hopcode] at hrest
    cases hrest
  | some opcode =>
    rw [hopcode] at hrest
    obtain ⟨values, after, hoperands, hrest⟩ := bind_eq_ok.1 hrest
    obtain ⟨_, _, hget, hrest⟩ := bind_eq_ok.1 hrest
    cases hget
    cases hrest
    exact ⟨data, byte, opcode, values, behind, hdata, hlow, hhigh, hbyte, hopcode, hoperands, rfl⟩

/-- If the instruction is an animation, the pointer at its end leads to the same text in the other
buffer. -/
def PointsAlike (data other : ByteArray) (found : Instruction ν) : Prop :=
  found.opcode.encoding = .animation →
    storedText? other (signedAt data 4 (found.stop - 4)) =
      storedText? data (signedAt data 4 (found.stop - 4))

/-- An instruction takes the bytes up to its end. Another buffer that holds these bytes at a distance
has the same instruction there, moved along, if the same texts are cited and, for an animation,
pointed to. -/
theorem exists_run_of_instruction_eq_ok {index : StringIndex} (index' : StringIndex)
    {data : ByteArray} {shift offset position : Int} {found : Instruction ν} {r : Reader}
    (hshift : 4 ∣ shift)
    (h : instruction names index offset (readerAt data position) = .ok found r) :
    ∃ run, Holds data offset run ∧ found.stop = offset + run.length ∧
      r = readerAt data found.stop ∧
      ∀ other place, Holds other (offset + shift) run →
        (∀ address, offset ≤ address → address < found.stop →
          CitesAlike index index' shift address) →
        PointsAlike data other found →
        instruction names index' (offset + shift) (readerAt other place) =
          .ok (found.relocate shift) (readerAt other (found.stop + shift)) := by
  obtain ⟨_, byte, opcode, values, behind, hdata, hlow, hhigh, hbyte, hopcode, hoperands, rfl⟩ :=
    exists_parts_of_instruction_eq_ok h
  cases hdata
  have hcode : Moves shift (fun _ ↦ True) id (unsigned 1) (unsigned 1) := moves_unsigned 1
  obtain ⟨first, hfirst, rfl, hreads⟩ :=
    hcode data offset byte behind (holds_nil_iff.2 ⟨hlow, hhigh⟩) hbyte
  obtain ⟨second, hsecond, rfl, hreads'⟩ :=
    exists_run_of_operands_eq_ok hshift index' hfirst.stop hoperands
  have hlength := natCast_length_append first second
  have hstop : (⟨offset, opcode, (readerAt data (offset + first.length + second.length)).position
      - offset, values⟩ : Instruction ν).stop = offset + first.length + second.length := by
    simp only [Instruction.stop, readerAt]
    omega
  unfold PointsAlike
  rw [hstop]
  refine ⟨first ++ second, hfirst.append hsecond, by omega, rfl, ?_⟩
  intro other place hother hcites hanimation
  refine bind_eq_ok.2 ⟨(), _, seek_of_holds hother, ?_⟩
  refine bind_eq_ok.2 ⟨byte, _, hreads (fun _ _ _ ↦ trivial) other hother.left, ?_⟩
  rw [hopcode]
  have hread := hreads' other (fun address _ _ ↦ hcites address (by omega) (by omega)) hanimation
  rw [Int.add_right_comm] at hread
  refine bind_eq_ok.2 ⟨_, _, hread hother.right, ?_⟩
  -- The size is the difference of two addresses that have moved alike.
  have hend : offset + shift + first.length + second.length =
      offset + first.length + second.length + shift := by omega
  have hsize : (readerAt other (offset + first.length + second.length + shift)).position -
      (offset + shift) = (readerAt data (offset + first.length + second.length)).position - offset :=
    Int.add_sub_add_right _ _ _
  rw [hend]
  exact congrArg (fun size ↦ EStateM.Result.ok (⟨offset + shift, opcode, size, _⟩ :
    Instruction ν) _) hsize

end Script
end CompiledScript
