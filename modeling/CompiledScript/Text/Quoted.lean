import CompiledScript.Text.Hex
import CompiledScript.Text.Printable

/-!
# Quoted texts

A message shows a path or an argument between quotation marks, with every character that would not
be visible written as an escape. The marks are single ones, unless the text has a single mark and no
double one.
-/

namespace CompiledScript.Text.Quoted

/-- An escape that gives the code point of a character. -/
def codeEscape (c : Char) : List Char :=
  let n := c.toNat
  let form (letter : Char) (width : Nat) : List Char :=
    '\\' :: letter :: Hex.fill width (Hex.digits .lower n)
  if n ≤ 0xFF then form 'x' 2
  else if n ≤ 0xFFFF then form 'u' 4
  else form 'U' 8

/-- A character between the given marks. -/
def character (mark c : Char) : List Char :=
  if c = mark ∨ c = '\\' then ['\\', c]
  else if c = '\n' then ['\\', 'n']
  else if c = '\r' then ['\\', 'r']
  else if c = '\t' then ['\\', 't']
  else if isPrintable c then [c]
  else codeEscape c

def markFor (text : List Char) : Char :=
  if '\'' ∈ text ∧ '"' ∉ text then '"' else '\''

def quote (text : String) : String :=
  let mark := markFor text.toList
  String.ofList (mark :: text.toList.flatMap (character mark) ++ [mark])

end CompiledScript.Text.Quoted
