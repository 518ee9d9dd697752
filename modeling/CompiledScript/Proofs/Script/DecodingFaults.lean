import CompiledScript.Proofs.Script.Operands
import CompiledScript.Proofs.Script.Walk
import CompiledScript.Script.Checksum

/-!
# How decoding fails

Decoding the bytes of a script fails in three ways only: the bytes end too early, a code byte stands
for no instruction, or no run of code has the checksum of a function. `DecodingFault` lists the
ways. A complaint about a code byte is backed by the bytes themselves, so the table of instructions
is never asked for anything that is not a byte.

The walk through a function passes on the fault of the instruction at which it stops. A size that
is not negative keeps it from the one fault of its own.
-/

namespace CompiledScript

namespace Reader

/-- A byte that was read stands in the buffer where the reader was. -/
theorem getElem?_of_u8_eq_ok {data : ByteArray} {r r' : Reader} {value : Nat}
    (hdata : r.Open data) (h : u8 r = .ok value r') :
    0 ≤ r.position ∧ data[r.position.toNat]? = some value.toUInt8 := by
  obtain ⟨run, middle, hfield, hnumber⟩ := bind_eq_ok.1 h
  obtain ⟨same, hsame, hnonneg, hinside, rfl, rfl⟩ := field_eq_ok.1 hfield
  cases hdata.symm.trans hsame
  have hbound : r.position.toNat < data.size := by omega
  have hrun : (data.extract r.position.toNat (r.position.toNat + 1)).data.toList =
      [data[r.position.toNat]] := by
    rw [ByteArray.data_extract, Array.toList_extract, List.extract_eq_take_drop,
      List.drop_eq_getElem_cons (by simpa using hbound), Nat.add_sub_cancel_left]
    rfl
  rw [hrun] at hnumber
  obtain ⟨_, _, hget, hvalue⟩ := bind_eq_ok.1 hnumber
  cases hget
  cases hvalue
  refine ⟨hnonneg, ?_⟩
  rw [getElem?_pos data r.position.toNat hbound]
  cases r.order <;> simp [Number.ofBytes, Number.ofLittleEndian]

end Reader

namespace Script

open Reader

/-- A way in which decoding some bytes can fail. -/
inductive DecodingFault (data : ByteArray) : Fault → Prop where
  | truncation {fault : Fault} (hkind : fault.kind = .truncation) : DecodingFault data fault
  | opcode {byte : UInt8} {offset : Int} (hnonneg : 0 ≤ offset)
      (hbyte : data[offset.toNat]? = some byte) (hopcode : Opcode.ofByte? byte = none) :
      DecodingFault data (.invalidOpcode byte offset)
  | checksum (checksum start : Int) : DecodingFault data (.checksumUnmatched checksum start)

variable {ν : Type} {names : Symbol → ν} {data : ByteArray} {index : StringIndex}
  {offset stop size : Int} {r r' : Reader} {fault : Fault}

theorem DecodingFault.kind_mem (h : DecodingFault data fault) :
    fault.kind ∈ [.truncation, .opcode, .checksum] := by
  cases h with
  | truncation hkind => simp [hkind]
  | opcode hnonneg hbyte hopcode => simp [Fault.kind]
  | checksum wanted start => simp [Fault.kind]

theorem decodingFault_of_instruction_eq_error (hdata : r.Open data)
    (h : instruction names index offset r = .error fault r') : DecodingFault data fault := by
  rcases bind_eq_error.1 h with hseek | ⟨_, start, hseek, h⟩
  · exact .truncation ((confined_seek offset).fault _ _ _ hdata hseek)
  · obtain ⟨_, _, _, _, rfl⟩ := seek_eq_ok.1 hseek
    have hstart : Open data { r with position := offset } := hdata
    rcases bind_eq_error.1 h with hbyte | ⟨byte, behind, hbyte, h⟩
    · exact .truncation ((confined_unsigned 1).fault _ _ _ hstart hbyte)
    · have hbehind : behind.Open data := (confined_unsigned 1).keeps _ _ _ hstart hbyte
      obtain ⟨hnonneg, hfound⟩ := getElem?_of_u8_eq_ok hstart hbyte
      cases hopcode : Opcode.ofByte? byte.toUInt8 with
      | none =>
        rw [hopcode] at h
        cases h
        exact .opcode hnonneg hfound hopcode
      | some opcode =>
        rw [hopcode] at h
        have hrest : Composed (operands names index opcode.encoding >>= fun found ↦
            get >>= fun after ↦
              pure (⟨offset, opcode, after.position - offset, found⟩ : Instruction ν)) :=
          (composed_operands _ _ _).bind fun _ ↦ .inspect (fun _ ↦ .pure _) fun _ _ h ↦ by rw [h]
        exact .truncation (hrest.confined.fault _ _ _ hbehind h)

theorem decodingFault_of_instructionsFrom_eq_error {decoded : Array (Instruction ν)}
    {interrupted : Interrupted ν} (hdata : r.Open data)
    (h : instructionsFrom names index stop offset decoded r = .error interrupted r') :
    DecodingFault data interrupted.fault := by
  fun_induction instructionsFrom names index stop offset decoded r with
  | case1 offset decoded r hmore fault after hstep =>
    cases h
    exact decodingFault_of_instruction_eq_error hdata hstep
  | case2 offset decoded r hmore found after hstep ih =>
    exact ih ((steady_instruction _ _ _ _ _ _ hstep).contents.trans hdata) h
  | case3 offset decoded r hdone => cases h

theorem decodingFault_of_functionCode_eq_error {function : String} {interrupted : Interrupted ν}
    (hdata : r.Open data) (hsize : 0 ≤ size)
    (h : functionCode names index function offset size r = .error interrupted r') :
    DecodingFault data interrupted.fault := by
  unfold functionCode at h
  rw [if_neg (by omega)] at h
  exact decodingFault_of_instructionsFrom_eq_error hdata h

theorem decodingFault_of_codeSize_eq_error {checksum : Int}
    (h : codeSize data offset checksum = .error fault) : DecodingFault data fault := by
  unfold codeSize at h
  dsimp only at h
  split at h
  · cases h
  · cases h
    exact .checksum _ _

end Script
end CompiledScript
