import CompiledScript.Proofs.Reader.Fragment
import CompiledScript.Script.Instructions

/-!
# Assembling instructions

The writer that the instruction decoder is measured against. A statement is an instruction with the
data of its operands, as far as they are stored in the code. It is written as its code byte, padding
up to the boundary that its operands ask for, and the operands themselves. The padding, and the
slots that are filled in at run time, come from a filler.

Beside the code stand what the decoder needs from elsewhere, the places that the string table has to
cite and the texts that have to stand in the buffer, and what the decoder is expected to yield.
-/

namespace CompiledScript.Assembly

open Number Reader Fragment

/-- What selects a case of a switch, as it is stored. -/
inductive Label where
  | number (value : Int32)
  | text (content : String)

/-- A case of a switch, as it is stored. -/
structure Case where
  label : Label
  distance : Int32

/-- The operands of an instruction, as they are stored. A text is stored by being cited, if it is
there at all, and the name of an animation by its offset in the buffer. -/
inductive Argument : Encoding → Type where
  | none : Argument .none
  | signedByte (value : Int8) : Argument .signedByte
  | unsignedByte (value : UInt8) : Argument .unsignedByte
  | negatedByte (value : UInt8) : Argument .negatedByte
  | signedShort (value : Int16) : Argument .signedShort
  | unsignedShort (value : UInt16) : Argument .unsignedShort
  | negatedShort (value : UInt16) : Argument .negatedShort
  | signedWord (value : Int32) : Argument .signedWord
  | unsignedWord (value : UInt32) : Argument .unsignedWord
  | hash (value : UInt32) : Argument .hash
  | real (value : Binary32) : Argument .real
  | vector (x y z : Binary32) : Argument .vector
  | vectorFlags (flags : UInt8) : Argument .vectorFlags
  | text (content : Option String) : Argument .text
  | localizedText (content : Option String) : Argument .localizedText
  | animation (pointer : Int32) (name : List UInt8) (unbroken : 0 ∉ name) : Argument .animation
  | variableName (value : UInt32) : Argument .variableName
  | functionPointer (value : UInt32) : Argument .functionPointer
  | call (value : UInt32) : Argument .call
  | countedCall (count : UInt8) (value : UInt32) : Argument .countedCall
  | variableList (names : List UInt32) (short : names.length ≤ 255) : Argument .variableList
  | cases (table : List Case) (short : table.length < 0x80000000) : Argument .cases

structure Statement where
  opcode : Opcode
  argument : Argument opcode.encoding

/-- The slot of a label. A text is not stored there, but cited. -/
def Label.code (filler : Int → UInt8) : Label → Fragment
  | .number value => Fragment.number 4 value.toInt
  | .text _ => unread filler 4

/-- A case: the slot of its label, and the distance to its target. -/
def Case.code (filler : Int → UInt8) (entry : Case) : Fragment :=
  (entry.label.code filler).followedBy (number 4 entry.distance.toInt)

/-- A variable of a list, with the byte after it. -/
def variableCode (filler : Int → UInt8) (value : UInt32) : Fragment :=
  (aligned filler 4 value.toNat).followedBy (unread filler 1)

def Argument.code (filler : Int → UInt8) {encoding : Encoding} : Argument encoding → Fragment
  | .none => fun _ ↦ []
  | .signedByte value => number 1 value.toInt
  | .unsignedByte value => number 1 value.toNat
  | .negatedByte value => number 1 value.toNat
  | .signedShort value => aligned filler 2 value.toInt
  | .unsignedShort value => aligned filler 2 value.toNat
  | .negatedShort value => aligned filler 2 value.toNat
  | .signedWord value => aligned filler 4 value.toInt
  | .unsignedWord value => aligned filler 4 value.toNat
  | .hash value => aligned filler 4 value.toNat
  | .real value => aligned filler 4 value.bits.toNat
  | .vector x y z =>
    (aligned filler 4 x.bits.toNat).followedBy
      ((number 4 y.bits.toNat).followedBy (number 4 z.bits.toNat))
  | .vectorFlags flags => number 1 flags.toNat
  | .text _ => (padding filler 2).followedBy (unread filler 2)
  | .localizedText _ => (padding filler 2).followedBy (unread filler 2)
  | .animation pointer _ _ => aligned filler 4 pointer.toInt
  | .variableName value => aligned filler 4 value.toNat
  | .functionPointer value => aligned filler 4 value.toNat
  | .call value => (unread filler 1).followedBy (aligned filler 4 value.toNat)
  | .countedCall count value => (number 1 count.toNat).followedBy (aligned filler 4 value.toNat)
  | .variableList names _ => (number 1 names.length).followedBy (joined (variableCode filler) names)
  | .cases table _ => (aligned filler 4 table.length).followedBy (joined (Case.code filler) table)

def Statement.code (filler : Int → UInt8) (statement : Statement) : Fragment :=
  (number 1 statement.opcode.code).followedBy (statement.argument.code filler)

/-- The code of instructions one after another. -/
def code (filler : Int → UInt8) : List Statement → Fragment :=
  joined (Statement.code filler)

/-- The place that has to be cited for a label, two bytes into its slot. -/
def Label.citations : Label → Int → List (Int × String)
  | .number _, _ => []
  | .text content, address => [(address + 2, content)]

/-- The places that have to be cited for the cases of a table. -/
def caseCitations : List Case → Int → List (Int × String)
  | [], _ => []
  | entry :: rest, address => entry.label.citations address ++ caseCitations rest (address + 8)

/-- The place that has to be cited for a text, if it is there: the slot at the next even address. -/
def textCitations (content : Option String) (address : Int) : List (Int × String) :=
  (content.map fun text ↦ (address + gap address 2, text)).toList

/-- The places that have to be cited for the operands of an instruction. -/
def Argument.citations {encoding : Encoding} : Argument encoding → Int → List (Int × String)
  | .text content, address => textCitations content address
  | .localizedText content, address => textCitations content address
  | .cases table _, address => caseCitations table (address + gap address 4 + 4)
  | _, _ => []

/-- The places that have to be cited for instructions that are written from an address on. -/
def citations (filler : Int → UInt8) : List Statement → Int → List (Int × String)
  | [], _ => []
  | statement :: rest, address =>
    statement.argument.citations (address + 1) ++
      citations filler rest (address + (statement.code filler address).length)

/-- The texts that have to stand in the buffer for an instruction, with their offsets. -/
def Argument.names {encoding : Encoding} : Argument encoding → List (Int × List UInt8)
  | .animation pointer name _ => [(pointer.toInt, name)]
  | _ => []

/-- The texts that have to stand in the buffer for a list of instructions. -/
def names (program : List Statement) : List (Int × List UInt8) :=
  program.flatMap fun statement ↦ statement.argument.names

/-- The direction along an axis for two bits of a flag byte. -/
def direction (flags : UInt8) (positive negative : Nat) : Binary32 :=
  match flags.toNat.testBit positive, flags.toNat.testBit negative with
  | true, _ => .one
  | false, true => .minusOne
  | false, false => .zero

/-- What a label stands for. The number zero in the last case stands for all cases not listed. -/
def Label.decoded (isLast : Bool) : Label → CaseLabel
  | .number value => if value = 0 ∧ isLast then .otherwise else .value value.toInt
  | .text content => .text content

/-- The cases of a table that is written from an address on. -/
def decodedCases : List Case → Nat → Int → List SwitchCase
  | [], _, _ => []
  | entry :: rest, place, address =>
    ⟨entry.label.decoded rest.isEmpty, address + 8 + entry.distance.toInt, place⟩ ::
      decodedCases rest (place + 1) (address + 8)

/-- The operands of an instruction, when they are written from an address on. -/
def Argument.decoded {encoding : Encoding} (address : Int) :
    Argument encoding → List (Operand Symbol)
  | .none => []
  | .signedByte value => [.integer value.toInt]
  | .unsignedByte value => [.integer value.toNat]
  | .negatedByte value => [.integer (-value.toNat)]
  | .signedShort value => [.integer value.toInt]
  | .unsignedShort value => [.integer value.toNat]
  | .negatedShort value => [.integer (-value.toNat)]
  | .signedWord value => [.integer value.toInt]
  | .unsignedWord value => [.integer value.toNat]
  | .hash value => [.name .quoted ⟨.hash, value.toNat⟩]
  | .real value => [.real value]
  | .vector x y z => [.vector x y z]
  | .vectorFlags flags =>
    [.vector (direction flags 5 4) (direction flags 3 2) (direction flags 1 0)]
  | .text content => [.text (content.getD "")]
  | .localizedText content => [.localizedText (content.getD "")]
  | .animation _ name _ => [.animation (Text.Utf8.decodeLenient name)]
  | .variableName value => [.name .plain ⟨.variableName, value.toNat⟩]
  | .functionPointer value => [.name .reference ⟨.function, value.toNat⟩]
  | .call value => [.name .plain ⟨.function, value.toNat⟩]
  | .countedCall count value => [.name .plain ⟨.function, value.toNat⟩, .integer count.toNat]
  | .variableList names _ => names.map fun value ↦ .name .plain ⟨.variableName, value.toNat⟩
  | .cases table _ =>
    ((decodedCases table 0 (address + gap address 4 + 4)).mergeSort
      fun a b ↦ a.target ≤ b.target).map .switchCase

/-- An instruction that is written at an address: it starts there and takes all of its code. -/
def Statement.decoded (filler : Int → UInt8) (statement : Statement) (address : Int) :
    Instruction Symbol where
  offset := address
  opcode := statement.opcode
  size := (statement.code filler address).length
  operands := statement.argument.decoded (address + 1)

/-- The instructions of a program that is written from an address on, each starting where the code
of the one before it ends. -/
def decoded (filler : Int → UInt8) : List Statement → Int → List (Instruction Symbol)
  | [], _ => []
  | statement :: rest, address =>
    statement.decoded filler address ::
      decoded filler rest (address + (statement.code filler address).length)

/-- Between two addresses, the index gives texts to the places in the list and to no others. -/
def CitesExactly (index : StringIndex) (start stop : Int) (places : List (Int × String)) : Prop :=
  ∀ reference text, start ≤ reference → reference < stop →
    (index.text? reference = some text ↔ (reference, text) ∈ places)

end CompiledScript.Assembly
