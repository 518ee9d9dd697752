/-!
# Hexadecimal numerals

Offsets and sizes are signed, so a numeral is a minus sign, if the value is negative, followed by
the digits of the magnitude. A least width counts the sign as well as the digits, and the missing
places are zeros between the two.
-/

namespace CompiledScript.Text.Hex

/-- The letters of the digits ten to fifteen. -/
inductive Letters where
  | lower
  | upper
  deriving DecidableEq

/-- The digits of a magnitude, most significant first, with no leading zero. -/
def digits (letters : Letters) (value : Nat) : List Char :=
  match letters with
  | .lower => Nat.toDigits 16 value
  | .upper => (Nat.toDigits 16 value).map Char.toUpper

/-- Zeros in front of a digit list, up to the given number of places. -/
def fill (width : Nat) (ds : List Char) : List Char :=
  List.replicate (width - ds.length) '0' ++ ds

/-- A signed numeral of at least `width` places. -/
def padded (letters : Letters) (width : Nat) (value : Int) : String :=
  if value < 0 then
    String.ofList ('-' :: fill (width - 1) (digits letters value.natAbs))
  else
    String.ofList (fill width (digits letters value.natAbs))

/-- A signed numeral with as few places as the value needs. -/
def numeral (letters : Letters) (value : Int) : String :=
  padded letters 0 value

/-- An upper-case numeral behind the mark `0x`, the form in which messages give an offset. -/
def offset (value : Int) : String :=
  "0x" ++ numeral .upper value

/-- A checksum behind the mark `0x`, with all eight places of a 32-bit word. -/
def checksum (value : Int) : String :=
  "0x" ++ padded .upper 8 value

def address (value : Int) : String :=
  padded .lower 8 value

/-- A byte string, two lower-case digits for each byte. -/
def ofBytes (bytes : List UInt8) : String :=
  String.ofList (bytes.flatMap fun byte ↦ fill 2 (digits .lower byte.toNat))

end CompiledScript.Text.Hex
