/-!
# Instruction codes

Each instruction has a code of one byte; the codes are consecutive from zero, and the remaining
byte values are unused. This module lists the instructions in the order of their codes, with the
names under which a listing shows them.
-/

namespace CompiledScript

/-- The instructions, in the order of their codes. -/
inductive Opcode where
  | halt | returnValue | getUndefined | getZero | getByte | getNegByte | getUnsignedShort
  | getNegUnsignedShort | getInteger | getFloat | getString | getLocalizedString | getVector
  | getLevelObject | getAnimObject | getSelf | getLevel | getGame | getAnim | getAnimation
  | getGameRef | getFunction | createLocalVariable | safeCreateLocalVariables
  | removeLocalVariables | evalLocalVariableCached | evalArray | evalLocalArrayRefCached
  | evalArrayRef | clearArray | getEmptyArray | getSelfObject | evalFieldVariable
  | evalFieldVariableRef | clearFieldVariable | setVariableField | setLocalVariableCached
  | clearParams | checkClearParams | evalLocalVariableRefCached | evalLocalVariableDefined
  | callBuiltinFunction | callBuiltinMethod | scriptFunctionCall | scriptThreadCall
  | scriptMethodCall | scriptMethodThreadCall | scriptFunctionCallPointer
  | scriptThreadCallPointer | scriptMethodCallPointer | scriptMethodThreadCallPointer
  | classFunctionCall | classFunctionThreadCall | jump | jumpOnTrue | jumpOnFalse
  | jumpOnTrueExpr | jumpOnFalseExpr | wait | waitTillFrameEnd | waitTill | waitTillMatch
  | notify | endOn | switchOn | endSwitch | vector | getHash | vectorConstant | isDefined
  | vectorScale | anglesToUp | anglesToRight | anglesToForward | angleClamp180 | vectorToAngles
  | abs | getTime | getDvar | getDvarInt | getDvarFloat | getDvarVector | getDvarColorRed
  | getDvarColorGreen | getDvarColorBlue | getDvarColorAlpha | firstArrayKey | nextArrayKey
  | profileStart | profileStop | safeDecTop | nop | abort | objectHash | threadObject
  | evalLocalVariable | evalLocalVariableRef | devblockBegin | devblockEnd | bitAnd | bitOr
  | bitXor | equal | notEqual | superEqual | superNotEqual | lessThan | greaterThan
  | lessThanOrEqualTo | greaterThanOrEqualTo | shiftLeft | shiftRight | plus | minus | multiply
  | divide | modulus | sizeOf | inc | dec | boolNot | boolComplement | decTop | castFieldObject
  | castBool | evalFieldObjectFromRef | getClasses | getClassesObject | newObject
  | getSignedByte | getUnsignedInteger | waitRealTime | isFalse
  deriving DecidableEq

namespace Opcode

def all : Array Opcode :=
  #[
    .halt, .returnValue, .getUndefined, .getZero, .getByte, .getNegByte, .getUnsignedShort,
    .getNegUnsignedShort, .getInteger, .getFloat, .getString, .getLocalizedString, .getVector,
    .getLevelObject, .getAnimObject, .getSelf, .getLevel, .getGame, .getAnim, .getAnimation,
    .getGameRef, .getFunction, .createLocalVariable, .safeCreateLocalVariables,
    .removeLocalVariables, .evalLocalVariableCached, .evalArray, .evalLocalArrayRefCached,
    .evalArrayRef, .clearArray, .getEmptyArray, .getSelfObject, .evalFieldVariable,
    .evalFieldVariableRef, .clearFieldVariable, .setVariableField, .setLocalVariableCached,
    .clearParams, .checkClearParams, .evalLocalVariableRefCached, .evalLocalVariableDefined,
    .callBuiltinFunction, .callBuiltinMethod, .scriptFunctionCall, .scriptThreadCall,
    .scriptMethodCall, .scriptMethodThreadCall, .scriptFunctionCallPointer,
    .scriptThreadCallPointer, .scriptMethodCallPointer, .scriptMethodThreadCallPointer,
    .classFunctionCall, .classFunctionThreadCall, .jump, .jumpOnTrue, .jumpOnFalse,
    .jumpOnTrueExpr, .jumpOnFalseExpr, .wait, .waitTillFrameEnd, .waitTill, .waitTillMatch,
    .notify, .endOn, .switchOn, .endSwitch, .vector, .getHash, .vectorConstant, .isDefined,
    .vectorScale, .anglesToUp, .anglesToRight, .anglesToForward, .angleClamp180,
    .vectorToAngles, .abs, .getTime, .getDvar, .getDvarInt, .getDvarFloat, .getDvarVector,
    .getDvarColorRed, .getDvarColorGreen, .getDvarColorBlue, .getDvarColorAlpha, .firstArrayKey,
    .nextArrayKey, .profileStart, .profileStop, .safeDecTop, .nop, .abort, .objectHash,
    .threadObject, .evalLocalVariable, .evalLocalVariableRef, .devblockBegin, .devblockEnd,
    .bitAnd, .bitOr, .bitXor, .equal, .notEqual, .superEqual, .superNotEqual, .lessThan,
    .greaterThan, .lessThanOrEqualTo, .greaterThanOrEqualTo, .shiftLeft, .shiftRight, .plus,
    .minus, .multiply, .divide, .modulus, .sizeOf, .inc, .dec, .boolNot, .boolComplement,
    .decTop, .castFieldObject, .castBool, .evalFieldObjectFromRef, .getClasses,
    .getClassesObject, .newObject, .getSignedByte, .getUnsignedInteger, .waitRealTime, .isFalse
  ]

def code (op : Opcode) : Nat :=
  op.ctorIdx

def ofByte? (byte : UInt8) : Option Opcode :=
  all[byte.toNat]?

/-- The name of an instruction in a listing. -/
def mnemonic : Opcode → String
  | .halt => "End"
  | .returnValue => "Return"
  | .getUndefined => "GetUndefined"
  | .getZero => "GetZero"
  | .getByte => "GetByte"
  | .getNegByte => "GetNegByte"
  | .getUnsignedShort => "GetUnsignedShort"
  | .getNegUnsignedShort => "GetNegUnsignedShort"
  | .getInteger => "GetInteger"
  | .getFloat => "GetFloat"
  | .getString => "GetString"
  | .getLocalizedString => "GetIString"
  | .getVector => "GetVector"
  | .getLevelObject => "GetLevelObject"
  | .getAnimObject => "GetAnimObject"
  | .getSelf => "GetSelf"
  | .getLevel => "GetLevel"
  | .getGame => "GetGame"
  | .getAnim => "GetAnim"
  | .getAnimation => "GetAnimation"
  | .getGameRef => "GetGameRef"
  | .getFunction => "GetFunction"
  | .createLocalVariable => "CreateLocalVariable"
  | .safeCreateLocalVariables => "SafeCreateLocalVariables"
  | .removeLocalVariables => "RemoveLocalVariables"
  | .evalLocalVariableCached => "EvalLocalVariableCached"
  | .evalArray => "EvalArray"
  | .evalLocalArrayRefCached => "EvalLocalArrayRefCached"
  | .evalArrayRef => "EvalArrayRef"
  | .clearArray => "ClearArray"
  | .getEmptyArray => "GetEmptyArray"
  | .getSelfObject => "GetSelfObject"
  | .evalFieldVariable => "EvalFieldVariable"
  | .evalFieldVariableRef => "EvalFieldVariableRef"
  | .clearFieldVariable => "ClearFieldVariable"
  | .setVariableField => "SetVariableField"
  | .setLocalVariableCached => "SetLocalVariableCached"
  | .clearParams => "ClearParams"
  | .checkClearParams => "CheckClearParams"
  | .evalLocalVariableRefCached => "EvalLocalVariableRefCached"
  | .evalLocalVariableDefined => "EvalLocalVariableDefined"
  | .callBuiltinFunction => "CallBuiltinFunction"
  | .callBuiltinMethod => "CallBuiltinMethod"
  | .scriptFunctionCall => "ScriptFunctionCall"
  | .scriptThreadCall => "ScriptThreadCall"
  | .scriptMethodCall => "ScriptMethodCall"
  | .scriptMethodThreadCall => "ScriptMethodThreadCall"
  | .scriptFunctionCallPointer => "ScriptFunctionCallPointer"
  | .scriptThreadCallPointer => "ScriptThreadCallPointer"
  | .scriptMethodCallPointer => "ScriptMethodCallPointer"
  | .scriptMethodThreadCallPointer => "ScriptMethodThreadCallPointer"
  | .classFunctionCall => "ClassFunctionCall"
  | .classFunctionThreadCall => "ClassFunctionThreadCall"
  | .jump => "Jump"
  | .jumpOnTrue => "JumpOnTrue"
  | .jumpOnFalse => "JumpOnFalse"
  | .jumpOnTrueExpr => "JumpOnTrueExpr"
  | .jumpOnFalseExpr => "JumpOnFalseExpr"
  | .wait => "Wait"
  | .waitTillFrameEnd => "WaitTillFrameEnd"
  | .waitTill => "WaitTill"
  | .waitTillMatch => "WaitTillMatch"
  | .notify => "Notify"
  | .endOn => "EndOn"
  | .switchOn => "Switch"
  | .endSwitch => "EndSwitch"
  | .vector => "Vector"
  | .getHash => "GetHash"
  | .vectorConstant => "VectorConstant"
  | .isDefined => "IsDefined"
  | .vectorScale => "VectorScale"
  | .anglesToUp => "AnglesToUp"
  | .anglesToRight => "AnglesToRight"
  | .anglesToForward => "AnglesToForward"
  | .angleClamp180 => "AngleClamp180"
  | .vectorToAngles => "VectorToAngles"
  | .abs => "Abs"
  | .getTime => "GetTime"
  | .getDvar => "GetDvar"
  | .getDvarInt => "GetDvarInt"
  | .getDvarFloat => "GetDvarFloat"
  | .getDvarVector => "GetDvarVector"
  | .getDvarColorRed => "GetDvarColorRed"
  | .getDvarColorGreen => "GetDvarColorGreen"
  | .getDvarColorBlue => "GetDvarColorBlue"
  | .getDvarColorAlpha => "GetDvarColorAlpha"
  | .firstArrayKey => "FirstArrayKey"
  | .nextArrayKey => "NextArrayKey"
  | .profileStart => "ProfileStart"
  | .profileStop => "ProfileStop"
  | .safeDecTop => "SafeDecTop"
  | .nop => "Nop"
  | .abort => "Abort"
  | .objectHash => "Object"
  | .threadObject => "ThreadObject"
  | .evalLocalVariable => "EvalLocalVariable"
  | .evalLocalVariableRef => "EvalLocalVariableRef"
  | .devblockBegin => "DevblockBegin"
  | .devblockEnd => "DevblockEnd"
  | .bitAnd => "BitAnd"
  | .bitOr => "BitOr"
  | .bitXor => "BitXor"
  | .equal => "Equal"
  | .notEqual => "NotEqual"
  | .superEqual => "SuperEqual"
  | .superNotEqual => "SuperNotEqual"
  | .lessThan => "LessThan"
  | .greaterThan => "GreaterThan"
  | .lessThanOrEqualTo => "LessThanOrEqualTo"
  | .greaterThanOrEqualTo => "GreaterThanOrEqualTo"
  | .shiftLeft => "ShiftLeft"
  | .shiftRight => "ShiftRight"
  | .plus => "Plus"
  | .minus => "Minus"
  | .multiply => "Multiply"
  | .divide => "Divide"
  | .modulus => "Modulus"
  | .sizeOf => "SizeOf"
  | .inc => "Inc"
  | .dec => "Dec"
  | .boolNot => "BoolNot"
  | .boolComplement => "BoolComplement"
  | .decTop => "DecTop"
  | .castFieldObject => "CastFieldObject"
  | .castBool => "CastBool"
  | .evalFieldObjectFromRef => "EvalFieldObjectFromRef"
  | .getClasses => "GetClasses"
  | .getClassesObject => "GetClassesObject"
  | .newObject => "New"
  | .getSignedByte => "GetSignedByte"
  | .getUnsignedInteger => "GetUnsignedInteger"
  | .waitRealTime => "WaitRealTime"
  | .isFalse => "IsFalse"

end Opcode
end CompiledScript
