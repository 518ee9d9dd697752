import CompiledScript.Game
import CompiledScript.Number.Binary32
import CompiledScript.Opcode.Encoding

/-!
# Scripts

A decoded script: its header, the tables that the header points to, and the instructions of its
functions. The type is over the type of names: hashes get texts for names when a script is loaded,
and may also stand for themselves. `Script.map` puts one kind of names in the place of another.
-/

namespace CompiledScript

/-- The header of a script, with the position and the length of each table. -/
structure Header where
  sourceChecksum : Nat := 0
  includeTable : Int := 0
  animTreeTable : Int := 0
  byteCode : Int := 0
  stringTable : Int := 0
  debugStringTable : Int := 0
  exportTable : Int := 0
  importTable : Int := 0
  fixupTable : Int := 0
  profileTable : Int := 0
  byteCodeSize : Int := 0
  nameOffset : Nat := 0
  stringCount : Nat := 0
  exportCount : Nat := 0
  importCount : Nat := 0
  fixupCount : Nat := 0
  profileCount : Nat := 0
  debugStringCount : Nat := 0
  includeCount : Nat := 0
  animTreeCount : Nat := 0
  flags : Nat := 0

/-- A text with the places in the code that cite it. -/
structure StringEntry where
  offset : Int
  text : String
  references : List Int

inductive CaseLabel where
  | value (number : Int)
  | text (content : String)
  | otherwise
  deriving DecidableEq

namespace CaseLabel

def display : CaseLabel → String
  | .value number => toString number
  | .text content => "\"" ++ content ++ "\""
  | .otherwise => "default"

end CaseLabel

/-- A case of a switch: its label, the address that it leads to, and its place in the stored
table. -/
structure SwitchCase where
  label : CaseLabel
  target : Int
  index : Nat

/-- How a name is marked as an operand. -/
inductive Decoration where
  | plain
  | quoted
  | reference
  deriving DecidableEq

def Decoration.apply : Decoration → String → String
  | .plain, name => name
  | .quoted, name => "\"" ++ name ++ "\""
  | .reference, name => "&" ++ name

inductive Operand (ν : Type) where
  | integer (value : Int)
  | real (value : Binary32)
  | vector (x y z : Binary32)
  | text (content : String)
  | localizedText (content : String)
  | animation (path : String)
  | name (decoration : Decoration) (value : ν)
  | switchCase (value : SwitchCase)

def Operand.map {ν μ : Type} (f : ν → μ) : Operand ν → Operand μ
  | .integer value => .integer value
  | .real value => .real value
  | .vector x y z => .vector x y z
  | .text content => .text content
  | .localizedText content => .localizedText content
  | .animation path => .animation path
  | .name decoration value => .name decoration (f value)
  | .switchCase value => .switchCase value

/-- An instruction with its address and the number of bytes that it takes. -/
structure Instruction (ν : Type) where
  offset : Int
  opcode : Opcode
  size : Int
  operands : List (Operand ν)

namespace Instruction

variable {ν μ : Type}

/-- The address after an instruction. -/
def stop (instruction : Instruction ν) : Int :=
  instruction.offset + instruction.size

/-- The address at a distance from an instruction, counted from its start. -/
def destination (offset distance : Int) : Int :=
  offset + distance

/-- The address that an instruction may go to, if its first operand is a distance. -/
def target? (instruction : Instruction ν) : Option Int :=
  if instruction.opcode.flow.isBranching then
    match instruction.operands with
    | .integer distance :: _ => some (destination instruction.offset distance)
    | _ => none
  else none

def map (f : ν → μ) (instruction : Instruction ν) : Instruction μ :=
  { instruction with operands := instruction.operands.map (Operand.map f) }

end Instruction

/-- A function of a script. -/
structure Export (ν : Type) where
  checksum : Nat
  offset : Int
  name : ν
  module : ν
  parameterCount : Nat
  flags : Nat
  size : Int
  instructions : Array (Instruction ν)

namespace Export

variable {ν μ : Type}

def stop (function : Export ν) : Int :=
  function.offset + function.size

def map (f : ν → μ) (function : Export ν) : Export μ :=
  { function with
    name := f function.name
    module := f function.module
    instructions := function.instructions.map (Instruction.map f) }

end Export

/-- A function of another script that a script calls. -/
structure Import (ν : Type) where
  name : ν
  module : ν
  parameterCount : Nat
  references : List Int

def Import.map {ν μ : Type} (f : ν → μ) (entry : Import ν) : Import μ :=
  { entry with name := f entry.name, module := f entry.module }

/-- A script, as far as it has been decoded. -/
structure Script (ν : Type) where
  game : Game
  header : Header := {}
  path : String := ""
  includes : List String := []
  strings : Array StringEntry := #[]
  imports : Array (Import ν) := #[]
  exports : Array (Export ν) := #[]

def Script.map {ν μ : Type} (f : ν → μ) (script : Script ν) : Script μ :=
  { script with
    imports := script.imports.map (Import.map f)
    exports := script.exports.map (Export.map f) }

end CompiledScript
