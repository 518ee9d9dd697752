/-!
# Single precision numbers

A number is kept as the 32-bit pattern that was read, so that nothing is lost. A finite pattern is
`± significand · 2 ^ exponent`; `widen` gives the pattern of the same value in double precision,
which has room for every single precision number.
-/

namespace CompiledScript

/-- An IEEE 754 single precision pattern. -/
structure Binary32 where
  bits : UInt32
  deriving DecidableEq

namespace Binary32

def zero : Binary32 := ⟨0⟩

def one : Binary32 := ⟨0x3F800000⟩

def minusOne : Binary32 := ⟨0xBF800000⟩

/-- Whether the sign bit is set; it is for `-0` too. -/
def isNegative (x : Binary32) : Bool :=
  Nat.pow 2 31 ≤ x.bits.toNat

def exponentField (x : Binary32) : Nat :=
  x.bits.toNat / Nat.pow 2 23 % Nat.pow 2 8

/-- The fraction field, without the leading bit of a normal number. -/
def fraction (x : Binary32) : Nat :=
  x.bits.toNat % Nat.pow 2 23

/-- The values of a pattern, up to its sign. -/
inductive Magnitude where
  | finite (significand : Nat) (exponent : Int)
  | infinite
  | nan

def magnitude (x : Binary32) : Magnitude :=
  if x.exponentField = 255 then
    if x.fraction = 0 then .infinite else .nan
  else if x.exponentField = 0 then
    .finite x.fraction (-149)
  else
    .finite (Nat.pow 2 23 + x.fraction) ((x.exponentField : Int) - 150)

/-- The double precision pattern of a magnitude `significand · 2 ^ exponent`, found by moving the
leading bit of the significand to the implicit place. -/
def widenFinite (significand : Nat) (exponent : Int) : Nat :=
  if significand = 0 then 0
  else
    let top := significand.log2
    (exponent + 1023 + top).toNat * Nat.pow 2 52
      + (significand - Nat.pow 2 top) * Nat.pow 2 (52 - top)

/-- The double precision pattern of the same value, or nothing when it is not a number. -/
def widen? (x : Binary32) : Option UInt64 :=
  let sign := if x.isNegative then Nat.pow 2 63 else 0
  match x.magnitude with
  | .finite significand exponent => some (sign + widenFinite significand exponent).toUInt64
  | .infinite => some (sign + 2047 * Nat.pow 2 52).toUInt64
  | .nan => none

end Binary32
end CompiledScript
