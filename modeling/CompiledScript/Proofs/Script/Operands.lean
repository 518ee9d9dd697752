import CompiledScript.Proofs.Reader.Composed
import CompiledScript.Script.Instructions

/-!
# The readers of operands

All operands are read by composed actions, whatever their encoding. An instruction is not, since it
can be refused because of its code byte; but it is still read by a steady action.
-/

namespace CompiledScript.Script

open Reader

variable {ν : Type} (names : Symbol → ν)

theorem composed_alignShort : Composed alignShort :=
  (composed_align (by decide)).map _

theorem composed_alignWord : Composed alignWord :=
  (composed_align (by decide)).map _

theorem composed_hashName (kind : SymbolKind) : Composed (hashName names kind) :=
  composed_alignWord.bind fun _ ↦ (Composed.unsigned 4).map _

theorem composed_caseLabel (index : StringIndex) (isLast : Bool) :
    Composed (caseLabel index isLast) := by
  refine .inspect (fun r ↦ ?_) fun _ _ h ↦ by rw [h]
  split
  · exact (composed_skip 4).map _
  · exact (composed_signed 4).map _

theorem composed_switchCase (index : StringIndex) (isLast : Bool) (place : Nat) :
    Composed (switchCase index isLast place) :=
  (composed_caseLabel index isLast).bind fun _ ↦
    .inspect (fun _ ↦ (composed_signed 4).map _) fun _ _ h ↦ by rw [h]

theorem composed_switchCases (index : StringIndex) (left place : Nat) :
    Composed (switchCases index left place) := by
  induction left generalizing place with
  | zero => exact .pure []
  | succ left ih => exact (composed_switchCase _ _ _).bind fun _ ↦ (ih _).map _

theorem composed_switchTable (index : StringIndex) : Composed (switchTable index) :=
  composed_alignWord.bind fun _ ↦ (composed_signed 4).bind fun _ ↦
    (composed_switchCases _ _ _).map _

theorem composed_citedText (index : StringIndex) : Composed (citedText index) :=
  composed_alignShort.bind fun _ ↦
    .inspect (fun _ ↦ (composed_skip 2).map _) fun _ _ h ↦ by rw [h]

theorem composed_variableEntry : Composed (variableEntry names) :=
  (composed_hashName _ _).bind fun _ ↦ (composed_skip 1).map _

theorem composed_operands (index : StringIndex) (encoding : Encoding) :
    Composed (operands names index encoding) := by
  cases encoding with
  | none => exact .pure []
  | signedByte => exact (composed_signed 1).map _
  | unsignedByte | negatedByte | vectorFlags => exact (Composed.unsigned 1).map _
  | signedShort => exact composed_alignShort.bind fun _ ↦ (composed_signed 2).map _
  | unsignedShort | negatedShort =>
    exact composed_alignShort.bind fun _ ↦ (Composed.unsigned 2).map _
  | signedWord => exact composed_alignWord.bind fun _ ↦ (composed_signed 4).map _
  | unsignedWord => exact composed_alignWord.bind fun _ ↦ (Composed.unsigned 4).map _
  | hash | variableName | functionPointer => exact (composed_hashName _ _).map _
  | real => exact composed_alignWord.bind fun _ ↦ composed_f32.map _
  | vector =>
    exact composed_alignWord.bind fun _ ↦ composed_f32.bind fun _ ↦ composed_f32.bind fun _ ↦
      composed_f32.map _
  | text | localizedText => exact (composed_citedText _).map _
  | animation =>
    exact composed_alignWord.bind fun _ ↦ (composed_signed 4).bind fun _ ↦
      (composed_peekText _).map _
  | call => exact (composed_skip 1).bind fun _ ↦ (composed_hashName _ _).map _
  | countedCall => exact (Composed.unsigned 1).bind fun _ ↦ (composed_hashName _ _).map _
  | variableList =>
    exact (Composed.unsigned 1).bind fun _ ↦ composed_repeated _ (composed_variableEntry names)
  | cases => exact (composed_switchTable _).map _

theorem steady_instruction (index : StringIndex) (offset : Int) :
    Steady (instruction names index offset) := by
  refine (steady_seek offset).bind fun _ ↦ (steady_unsigned 1).bind fun byte ↦ ?_
  split
  · exact steady_throw _
  · exact (composed_operands _ _ _).steady.bind fun _ ↦ steady_get.bind fun _ ↦ steady_pure _

end CompiledScript.Script
