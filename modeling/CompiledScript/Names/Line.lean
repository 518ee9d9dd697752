import CompiledScript.Text.Blank

/-!
# Lines of a name table

A line of a name table is a hash in hexadecimal, a comma and a name; further fields behind another
comma are not looked at. Spaces, tabs and a comment from `#` on may stand in front of the hash and
of the first comma. Behind the first comma they belong to the name, except for white space at its
ends. A line may also hold nothing.
-/

namespace CompiledScript.Names

structure Entry where
  hash : Nat
  name : String
  deriving DecidableEq

/-- The rest of a line behind spaces, tabs and a comment. -/
def ignore : List Char → List Char
  | [] => []
  | c :: rest =>
    if c = ' ' ∨ c = '\t' then ignore rest
    else if c = '#' then []
    else c :: rest

def isHexDigit (c : Char) : Bool :=
  ('0' ≤ c && c ≤ '9') || ('a' ≤ c && c ≤ 'f') || ('A' ≤ c && c ≤ 'F')

def hexDigitValue (c : Char) : Nat :=
  if c ≤ '9' then c.toNat - '0'.toNat
  else if c ≤ 'F' then c.toNat - 'A'.toNat + 10
  else c.toNat - 'a'.toNat + 10

/-- The hash that hexadecimal digits stand for: the low 32 bits of their value. -/
def hashValue (digits : List Char) : Nat :=
  digits.foldl (fun value digit ↦ (16 * value + hexDigitValue digit) % Nat.pow 2 32) 0

/-- A text without the mark `0x` in front of hexadecimal digits. -/
def dropMark : List Char → List Char
  | '0' :: x :: digit :: rest =>
    if (x = 'x' ∨ x = 'X') ∧ isHexDigit digit then digit :: rest else '0' :: x :: digit :: rest
  | text => text

/-- The hash at the start of a text, and the rest behind it. -/
def takeHash? (text : List Char) : Option (Nat × List Char) :=
  let digits := (dropMark text).takeWhile isHexDigit
  if digits.isEmpty then none
  else some (hashValue digits, (dropMark text).dropWhile isHexDigit)

/-- The column, counted from one, at which the rest of a line starts. -/
def columnOf (line rest : List Char) : Nat :=
  line.length - rest.length + 1

/-- What a line holds, or the column of the first thing that does not belong there. A hash without
a comma is out of place itself. -/
def parseLine (line : List Char) : Except Nat (Option Entry) :=
  match ignore line with
  | [] => .ok none
  | start =>
    match takeHash? start with
    | none => .error (columnOf line start)
    | some (hash, rest) =>
      match ignore rest with
      | [] => .error (columnOf line start)
      | ',' :: fields =>
        .ok (some ⟨hash, String.ofList (Text.trim (fields.takeWhile (· ≠ ',')))⟩)
      | other => .error (columnOf line other)

end CompiledScript.Names
