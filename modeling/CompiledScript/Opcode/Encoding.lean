import CompiledScript.Opcode.Basic

/-!
# Operands of an instruction

An instruction has a flow, which says how execution goes on after it, and an encoding, which says
how its operands follow the code byte. Encodings that only differ in what is done with the value
have the same operand kind.
-/

namespace CompiledScript

/-- How execution goes on after an instruction. -/
inductive Flow where
  | other
  | exit
  | jump
  | branch
  | call
  | selection
  deriving DecidableEq

namespace Flow

def name : Flow → String
  | .other => "other"
  | .exit => "return"
  | .jump => "jump"
  | .branch => "jump_condition"
  | .call => "call"
  | .selection => "switch"

/-- Whether a number that follows the code byte is a distance to another instruction. -/
def isBranching : Flow → Bool
  | .jump | .branch | .selection => true
  | .other | .exit | .call => false

end Flow

inductive OperandKind where
  | none | int8 | uint8 | int16 | uint16 | int32 | uint32 | hash | float | vector | vectorFlags
  | string | variableName | functionPointer | call | variableList | switchEnd
  deriving DecidableEq

def OperandKind.name : OperandKind → String
  | .none => "none"
  | .int8 => "int8"
  | .uint8 => "uint8"
  | .int16 => "int16"
  | .uint16 => "uint16"
  | .int32 => "int32"
  | .uint32 => "uint32"
  | .hash => "hash"
  | .float => "float"
  | .vector => "vector"
  | .vectorFlags => "vector_flags"
  | .string => "string"
  | .variableName => "variable_name"
  | .functionPointer => "function_pointer"
  | .call => "call"
  | .variableList => "variable_list"
  | .switchEnd => "switch_end"

/-- How the operands of an instruction follow its code byte. -/
inductive Encoding where
  | none
  | signedByte
  | unsignedByte
  /-- A byte whose value is meant with a minus sign. -/
  | negatedByte
  | signedShort
  | unsignedShort
  /-- A short whose value is meant with a minus sign. -/
  | negatedShort
  | signedWord
  | unsignedWord
  /-- A hash shown in quotes. -/
  | hash
  | real
  | vector
  /-- A byte with two bits for each axis, one for each direction. -/
  | vectorFlags
  /-- A slot that the string table cites. -/
  | text
  /-- A slot that the string table cites, for a text that is looked up in a language. -/
  | localizedText
  /-- The offset of the name of an animation. -/
  | animation
  /-- The hash of a variable's name. -/
  | variableName
  /-- The hash of a function's name, for a reference to it. -/
  | functionPointer
  /-- A byte that is filled in at run time, and the hash of a function's name. -/
  | call
  /-- The number of parameters, and the hash of a function's name. -/
  | countedCall
  /-- A counted list of hashes of variable names, each with a byte after it. -/
  | variableList
  /-- The table of a switch. -/
  | cases
  deriving DecidableEq

def Encoding.kind : Encoding → OperandKind
  | .none => .none
  | .signedByte => .int8
  | .unsignedByte | .negatedByte => .uint8
  | .signedShort => .int16
  | .unsignedShort | .negatedShort => .uint16
  | .signedWord => .int32
  | .unsignedWord => .uint32
  | .hash => .hash
  | .real => .float
  | .vector => .vector
  | .vectorFlags => .vectorFlags
  | .text | .localizedText | .animation => .string
  | .variableName => .variableName
  | .functionPointer => .functionPointer
  | .call | .countedCall => .call
  | .variableList => .variableList
  | .cases => .switchEnd

namespace Opcode

def flow : Opcode → Flow
  | .halt | .returnValue => .exit
  | .callBuiltinFunction | .callBuiltinMethod | .scriptFunctionCall | .scriptThreadCall
  | .scriptMethodCall | .scriptMethodThreadCall | .scriptFunctionCallPointer
  | .scriptThreadCallPointer | .scriptMethodCallPointer | .scriptMethodThreadCallPointer
  | .classFunctionCall | .classFunctionThreadCall => .call
  | .jump | .devblockBegin => .jump
  | .jumpOnTrue | .jumpOnFalse | .jumpOnTrueExpr | .jumpOnFalseExpr => .branch
  | .switchOn | .endSwitch => .selection
  | _ => .other

def encoding : Opcode → Encoding
  | .getByte | .removeLocalVariables | .evalLocalVariableCached | .evalLocalArrayRefCached
  | .setLocalVariableCached | .evalLocalVariableRefCached | .evalLocalVariableDefined
  | .scriptFunctionCallPointer | .scriptThreadCallPointer | .scriptMethodCallPointer
  | .scriptMethodThreadCallPointer | .waitTillMatch | .firstArrayKey
  | .nextArrayKey => .unsignedByte
  | .getNegByte => .negatedByte
  | .getUnsignedShort => .unsignedShort
  | .getNegUnsignedShort => .negatedShort
  | .getInteger | .switchOn => .signedWord
  | .getFloat => .real
  | .getString => .text
  | .getLocalizedString => .localizedText
  | .getVector => .vector
  | .getAnimation => .animation
  | .getFunction => .functionPointer
  | .createLocalVariable | .evalFieldVariable | .evalFieldVariableRef | .clearFieldVariable
  | .evalLocalVariable | .evalLocalVariableRef => .variableName
  | .safeCreateLocalVariables => .variableList
  | .callBuiltinFunction | .callBuiltinMethod | .scriptFunctionCall | .scriptThreadCall
  | .scriptMethodCall | .scriptMethodThreadCall => .call
  | .classFunctionCall | .classFunctionThreadCall => .countedCall
  | .jump | .jumpOnTrue | .jumpOnFalse | .jumpOnTrueExpr | .jumpOnFalseExpr
  | .devblockBegin => .signedShort
  | .endSwitch => .cases
  | .getHash | .objectHash => .hash
  | .vectorConstant => .vectorFlags
  | .getSignedByte => .signedByte
  | .getUnsignedInteger => .unsignedWord
  | _ => .none

end Opcode
end CompiledScript
