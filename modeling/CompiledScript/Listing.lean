import CompiledScript.Number.Significant
import CompiledScript.Script.Model
import CompiledScript.Text.Hex

/-!
# Listings

A listing shows a script as lines of text: the script and its includes, and for each function a
banner and one line for each instruction. A blank line ends each part.
-/

namespace CompiledScript.Listing

open Text

def operand : Operand String → String
  | .integer value => toString value
  | .real value => value.text
  | .vector x y z => "(" ++ x.text ++ ", " ++ y.text ++ ", " ++ z.text ++ ")"
  | .text content => "\"" ++ content ++ "\""
  | .localizedText content => "&\"" ++ content ++ "\""
  | .animation path => "%" ++ path
  | .name decoration name => decoration.apply name
  | .switchCase value => value.label.display

def casesOf (operands : List (Operand String)) : List SwitchCase :=
  operands.filterMap fun
    | .switchCase value => some value
    | _ => none

/-- A case with the address that it leads to. -/
def switchCase (value : SwitchCase) : String :=
  value.label.display ++ ":" ++ Hex.address value.target

/-- The line of an instruction: its address, its name, and its operands or cases. -/
def instruction (found : Instruction String) : String :=
  let start := "  " ++ Hex.address found.offset ++ ": " ++ found.opcode.mnemonic
  match casesOf found.operands with
  | [] =>
    let operands :=
      if found.operands.isEmpty then ""
      else " " ++ ", ".intercalate (found.operands.map operand)
    let target := match found.target? with
      | some target => " (to " ++ Hex.address target ++ ")"
      | none => ""
    start ++ operands ++ target
  | cases => start ++ " [" ++ ", ".intercalate (cases.map switchCase) ++ "]"

def function (function : Export String) : List String :=
  ["// Namespace " ++ function.module,
    "// Checksum " ++ Hex.checksum function.checksum ++ ", offset " ++ Hex.offset function.offset
      ++ ", size " ++ Hex.offset function.size,
    "function " ++ function.name ++ s!"({function.parameterCount} params)"]
    ++ function.instructions.toList.map instruction ++ [""]

def includes (paths : List String) : List String :=
  if paths.isEmpty then [] else paths.map (fun path ↦ "#using " ++ path ++ ";") ++ [""]

def lines (script : Script String) : List String :=
  ["// " ++ script.game.title ++ " script " ++ script.path,
    "// Source checksum " ++ Hex.checksum script.header.sourceChecksum, ""]
    ++ includes script.includes ++ script.exports.toList.flatMap function

def text (script : Script String) : String :=
  "\n".intercalate (lines script)

end CompiledScript.Listing
