/-!
# Fixed-width integers

A run of bytes stands for a natural number in either byte order. A signed field is the same number
read in two's complement: the upper half of the range stands for the negative values.
-/

namespace CompiledScript

/-- Which end of a number comes first. -/
inductive ByteOrder where
  | little
  | big
  deriving DecidableEq

namespace Number

/-- The number whose base 256 digits are the bytes, least significant first. -/
def ofLittleEndian : List UInt8 → Nat
  | [] => 0
  | byte :: rest => byte.toNat + 256 * ofLittleEndian rest

def ofBytes : ByteOrder → List UInt8 → Nat
  | .little, bytes => ofLittleEndian bytes
  | .big, bytes => ofLittleEndian bytes.reverse

/-- The two's complement reading of a number below `256 ^ width`. -/
def toSigned (width : Nat) (value : Nat) : Int :=
  if 2 * value < Nat.pow 256 width then value else (value : Int) - Nat.pow 256 width

end Number
end CompiledScript
