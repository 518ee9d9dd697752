import CompiledScript.Names.Table
import CompiledScript.Reader.Forward
import CompiledScript.Script.Model
import Std.Data.HashMap

/-!
# Decoding instructions

An instruction is a code byte followed by its operands. A two-byte operand starts at an even
address and a four-byte operand at a multiple of four, counted from the start of the script. Texts
are not operands themselves: the string table cites the slots in the code that stand for them. Names
are stored as hashes, and every hash is named as soon as it is read, by the names that the decoder
is given.

Operands are read forward, so every instruction takes at least one byte, and decoding instructions
one after another reaches the end of a function.
-/

namespace CompiledScript

/-- The entries of the string table by the places in the code that cite them. -/
abbrev StringIndex := Std.HashMap Int StringEntry

/-- The text that the string table gives to a place in the code. -/
def StringIndex.text? (index : StringIndex) (place : Int) : Option String :=
  index[place]?.map (·.text)

namespace Script

variable {ν : Type}

def alignShort : Reader.Action Unit := do
  let _ ← Reader.align 2

def alignWord : Reader.Action Unit := do
  let _ ← Reader.align 4

/-- The name of the next word, which is a hash. -/
def hashName (names : Symbol → ν) (kind : SymbolKind) : Reader.Action ν := do
  alignWord
  return names ⟨kind, ← Reader.u32⟩

/-- One direction of an axis of a constant vector, by two bits of a flag byte. -/
def axis (flags positive negative : Nat) : Binary32 :=
  if flags &&& positive ≠ 0 then .one
  else if flags &&& negative ≠ 0 then .minusOne
  else .zero

/-- The label of the next case. A text is only known by its citation in the middle of the slot. A
zero in the last slot of the table stands for the cases that are not listed. -/
def caseLabel (index : StringIndex) (isLast : Bool) : Reader.Action CaseLabel := do
  match index.text? ((← get).position + 2) with
  | some content =>
    Reader.skip 4
    return .text content
  | none =>
    let number ← Reader.i32
    return if number = 0 ∧ isLast then .otherwise else .value number

/-- The next case. Its distance is counted from the end of the case. -/
def switchCase (index : StringIndex) (isLast : Bool) (place : Nat) : Reader.Action SwitchCase := do
  let label ← caseLabel index isLast
  let slot := (← get).position
  let distance ← Reader.i32
  return ⟨label, slot + distance + 4, place⟩

/-- The next `left` cases, of which the first has the given place in the table. -/
def switchCases (index : StringIndex) : Nat → Nat → Reader.Action (List SwitchCase)
  | 0, _ => return []
  | left + 1, place => do
    let first ← switchCase index (left = 0) place
    let rest ← switchCases index left (place + 1)
    return first :: rest

/-- The table of a switch, in the order of the addresses that its cases lead to. -/
def switchTable (index : StringIndex) : Reader.Action (List SwitchCase) := do
  alignWord
  let count ← Reader.i32
  let cases ← switchCases index count.toNat 0
  return cases.mergeSort fun a b ↦ a.target ≤ b.target

/-- The text that the string table gives to the next slot, and nothing if it gives none. -/
def citedText (index : StringIndex) : Reader.Action String := do
  alignShort
  let content := (index.text? (← get).position).getD ""
  Reader.skip 2
  return content

def variableEntry (names : Symbol → ν) : Reader.Action (Operand ν) := do
  let entry ← hashName names .variableName
  Reader.skip 1
  return .name .plain entry

def operands (names : Symbol → ν) (index : StringIndex) :
    Encoding → Reader.Action (List (Operand ν))
  | .none => return []
  | .signedByte => return [.integer (← Reader.i8)]
  | .unsignedByte => return [.integer (← Reader.u8)]
  | .negatedByte => return [.integer (-(← Reader.u8))]
  | .signedShort => do
    alignShort
    return [.integer (← Reader.i16)]
  | .unsignedShort => do
    alignShort
    return [.integer (← Reader.u16)]
  | .negatedShort => do
    alignShort
    return [.integer (-(← Reader.u16))]
  | .signedWord => do
    alignWord
    return [.integer (← Reader.i32)]
  | .unsignedWord => do
    alignWord
    return [.integer (← Reader.u32)]
  | .hash => return [.name .quoted (← hashName names .hash)]
  | .real => do
    alignWord
    return [.real (← Reader.f32)]
  | .vector => do
    alignWord
    let x ← Reader.f32
    let y ← Reader.f32
    let z ← Reader.f32
    return [.vector x y z]
  | .vectorFlags => do
    let flags ← Reader.u8
    return [.vector (axis flags 0x20 0x10) (axis flags 0x08 0x04) (axis flags 0x02 0x01)]
  | .text => return [.text (← citedText index)]
  | .localizedText => return [.localizedText (← citedText index)]
  | .animation => do
    alignWord
    let offset ← Reader.i32
    return [.animation (← Reader.peekText offset)]
  | .variableName => return [.name .plain (← hashName names .variableName)]
  | .functionPointer => return [.name .reference (← hashName names .function)]
  | .call => do
    Reader.skip 1
    return [.name .plain (← hashName names .function)]
  | .countedCall => do
    let count ← Reader.u8
    let function ← hashName names .function
    return [.name .plain function, .integer count]
  | .variableList => do
    let count ← Reader.u8
    Reader.repeated count (variableEntry names)
  | .cases => return (← switchTable index).map .switchCase

def instruction (names : Symbol → ν) (index : StringIndex) (offset : Int) :
    Reader.Action (Instruction ν) := do
  Reader.seek offset
  let byte ← Reader.u8
  match Opcode.ofByte? byte.toUInt8 with
  | none => throw (.invalidOpcode byte.toUInt8 offset)
  | some opcode =>
    let found ← operands names index opcode.encoding
    return ⟨offset, opcode, (← get).position - offset, found⟩

open Reader in
theorem forward_alignShort : Forward alignShort :=
  (forward_align (by decide)).bind fun _ ↦ forward_pure _

open Reader in
theorem forward_alignWord : Forward alignWord :=
  (forward_align (by decide)).bind fun _ ↦ forward_pure _

open Reader in
theorem forward_hashName (names : Symbol → ν) (kind : SymbolKind) : Forward (hashName names kind) :=
  forward_alignWord.bind fun _ ↦ (forward_unsigned 4).bind fun _ ↦ forward_pure _

open Reader in
theorem forward_caseLabel (index : StringIndex) (isLast : Bool) :
    Forward (caseLabel index isLast) := by
  refine forward_get.bind fun r ↦ ?_
  split
  · exact (forward_skip (by decide)).bind fun _ ↦ forward_pure _
  · exact (forward_signed 4).bind fun _ ↦ forward_pure _

open Reader in
theorem forward_switchCase (index : StringIndex) (isLast : Bool) (place : Nat) :
    Forward (switchCase index isLast place) :=
  (forward_caseLabel index isLast).bind fun _ ↦ forward_get.bind fun _ ↦
    (forward_signed 4).bind fun _ ↦ forward_pure _

open Reader in
theorem forward_switchCases (index : StringIndex) (left place : Nat) :
    Forward (switchCases index left place) := by
  induction left generalizing place with
  | zero => exact forward_pure []
  | succ left ih =>
    exact (forward_switchCase _ _ _).bind fun _ ↦ (ih _).bind fun _ ↦ forward_pure _

open Reader in
theorem forward_switchTable (index : StringIndex) : Forward (switchTable index) :=
  forward_alignWord.bind fun _ ↦ (forward_signed 4).bind fun _ ↦
    (forward_switchCases _ _ _).bind fun _ ↦ forward_pure _

open Reader in
theorem forward_citedText (index : StringIndex) : Forward (citedText index) :=
  forward_alignShort.bind fun _ ↦ forward_get.bind fun _ ↦
    (forward_skip (by decide)).bind fun _ ↦ forward_pure _

open Reader in
theorem forward_variableEntry (names : Symbol → ν) : Forward (variableEntry names) :=
  (forward_hashName _ _).bind fun _ ↦ (forward_skip (by decide)).bind fun _ ↦ forward_pure _

open Reader in
theorem forward_operands (names : Symbol → ν) (index : StringIndex) (encoding : Encoding) :
    Forward (operands names index encoding) := by
  cases encoding with
  | none => exact forward_pure []
  | signedByte => exact (forward_signed 1).bind fun _ ↦ forward_pure _
  | unsignedByte | negatedByte => exact (forward_unsigned 1).bind fun _ ↦ forward_pure _
  | signedShort =>
    exact forward_alignShort.bind fun _ ↦ (forward_signed 2).bind fun _ ↦ forward_pure _
  | unsignedShort | negatedShort =>
    exact forward_alignShort.bind fun _ ↦ (forward_unsigned 2).bind fun _ ↦ forward_pure _
  | signedWord =>
    exact forward_alignWord.bind fun _ ↦ (forward_signed 4).bind fun _ ↦ forward_pure _
  | unsignedWord =>
    exact forward_alignWord.bind fun _ ↦ (forward_unsigned 4).bind fun _ ↦ forward_pure _
  | hash | variableName | functionPointer =>
    exact (forward_hashName _ _).bind fun _ ↦ forward_pure _
  | real => exact forward_alignWord.bind fun _ ↦ forward_f32.bind fun _ ↦ forward_pure _
  | vector =>
    exact forward_alignWord.bind fun _ ↦ forward_f32.bind fun _ ↦ forward_f32.bind fun _ ↦
      forward_f32.bind fun _ ↦ forward_pure _
  | vectorFlags => exact (forward_unsigned 1).bind fun _ ↦ forward_pure _
  | text | localizedText => exact (forward_citedText _).bind fun _ ↦ forward_pure _
  | animation =>
    exact forward_alignWord.bind fun _ ↦ (forward_signed 4).bind fun _ ↦
      (forward_peekText _).bind fun _ ↦ forward_pure _
  | call =>
    exact (forward_skip (by decide)).bind fun _ ↦ (forward_hashName _ _).bind fun _ ↦ forward_pure _
  | countedCall =>
    exact (forward_unsigned 1).bind fun _ ↦ (forward_hashName _ _).bind fun _ ↦ forward_pure _
  | variableList =>
    exact (forward_unsigned 1).bind fun _ ↦ forward_repeated _ (forward_variableEntry names)
  | cases => exact (forward_switchTable _).bind fun _ ↦ forward_pure _

/-- An instruction takes at least its code byte. -/
theorem one_le_size {names : Symbol → ν} {index : StringIndex} {offset : Int} {r r' : Reader}
    {found : Instruction ν} (h : instruction names index offset r = .ok found r') :
    found.offset = offset ∧ 1 ≤ found.size := by
  obtain ⟨_, start, hseek, h⟩ := bind_eq_ok.1 h
  obtain ⟨_, _, _, _, rfl⟩ := Reader.seek_eq_ok.1 hseek
  obtain ⟨byte, behind, hbyte, h⟩ := bind_eq_ok.1 h
  obtain ⟨_, _, _, _, rfl⟩ := Reader.position_of_unsigned_eq_ok hbyte
  cases hopcode : Opcode.ofByte? byte.toUInt8 with
  | none =>
    rw [hopcode] at h
    cases h
  | some opcode =>
    rw [hopcode] at h
    obtain ⟨values, after, hoperands, h⟩ := bind_eq_ok.1 h
    obtain ⟨_, _, hposition⟩ := forward_operands _ _ _ _ _ _ hoperands
    obtain ⟨state, same, hget, h⟩ := bind_eq_ok.1 h
    cases hget
    cases h
    have hbehind : offset + 1 ≤ r'.position := hposition
    exact ⟨rfl, by show 1 ≤ r'.position - offset; omega⟩

/-- A function whose decoding failed, with the instructions in front of the fault. -/
structure Interrupted (ν : Type) where
  fault : Fault
  decoded : Array (Instruction ν)

set_option linter.unusedVariables false in
/-- The instructions from an address up to another one, behind those decoded so far. The last one
may reach over the end. -/
def instructionsFrom (names : Symbol → ν) (index : StringIndex) (stop offset : Int)
    (decoded : Array (Instruction ν)) :
    EStateM (Interrupted ν) Reader (Array (Instruction ν)) := fun r ↦
  if offset < stop then
    match h : instruction names index offset r with
    | .error fault r' => .error ⟨fault, decoded⟩ r'
    | .ok found r' => instructionsFrom names index stop found.stop (decoded.push found) r'
  else .ok decoded r
  termination_by (stop - offset).toNat
  decreasing_by
    have hsize := one_le_size h
    unfold Instruction.stop
    omega

def functionCode (names : Symbol → ν) (index : StringIndex) (function : String)
    (offset size : Int) : EStateM (Interrupted ν) Reader (Array (Instruction ν)) :=
  if size < 0 then throw ⟨.sizeUnknown function, #[]⟩
  else instructionsFrom names index (offset + size) offset #[]

end Script
end CompiledScript
