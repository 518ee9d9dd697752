import CompiledScript.Number.Binary32

/-!
# Six significant digits

A number in a listing has at most six significant digits: the decimal nearest to its exact value,
an exact half going to the even neighbour, without trailing zeros. It is written positionally while
its leading digit stands between the fourth decimal place and the sixth integer place, and with a
power of ten of at least two digits otherwise.
-/

namespace CompiledScript.Number

/-- The quotient rounded to the nearest integer, an exact half to the even one. -/
def roundHalfEven (numerator denominator : Nat) : Nat :=
  let quotient := numerator / denominator
  let remainder := numerator % denominator
  if 2 * remainder < denominator then quotient
  else if denominator < 2 * remainder then quotient + 1
  else quotient + quotient % 2

/-- A positive quotient times a power of ten, again as a quotient. -/
def scale (numerator denominator : Nat) (power : Int) : Nat × Nat :=
  if 0 ≤ power then (numerator * Nat.pow 10 power.toNat, denominator)
  else (numerator, denominator * Nat.pow 10 (-power).toNat)

/-- The place of the leading decimal digit of a positive quotient: `0` for the units. The lengths
of the two numerals leave two candidates, and one comparison decides. -/
def leadingPlace (numerator denominator : Nat) : Int :=
  let guess : Int := (Nat.toDigits 10 numerator).length - (Nat.toDigits 10 denominator).length
  let scaled := scale numerator denominator (-guess)
  if scaled.2 ≤ scaled.1 then guess else guess - 1

/-- A decimal with its leading digit at `place`; the digits come most significant first. -/
structure Decimal where
  digits : List Char
  place : Int

def precision : Nat := 6

/-- The decimal of `precision` digits nearest to a positive quotient. Rounding up to a power of ten
moves the leading digit one place on. -/
def nearest (numerator denominator : Nat) : Decimal :=
  let place := leadingPlace numerator denominator
  let scaled := scale numerator denominator (precision - 1 - place)
  let rounded := roundHalfEven scaled.1 scaled.2
  if rounded = Nat.pow 10 precision then ⟨Nat.toDigits 10 (Nat.pow 10 (precision - 1)), place + 1⟩
  else ⟨Nat.toDigits 10 rounded, place⟩

namespace Decimal

/-- The digits up to the last one that is not zero. -/
def dropTrailingZeros (ds : List Char) : List Char :=
  (ds.reverse.dropWhile (· = '0')).reverse

/-- A fraction behind its point, or nothing when all of its digits are zero. -/
def fractionText (ds : List Char) : List Char :=
  match dropTrailingZeros ds with
  | [] => []
  | kept => '.' :: kept

def positional (d : Decimal) : List Char :=
  if d.place < 0 then
    '0' :: fractionText (List.replicate (-d.place - 1).toNat '0' ++ d.digits)
  else
    d.digits.take (d.place.toNat + 1) ++ fractionText (d.digits.drop (d.place.toNat + 1))

/-- A power of ten with its sign and at least two digits. -/
def powerText (power : Int) : List Char :=
  let ds := Nat.toDigits 10 power.natAbs
  'e' :: (if power < 0 then '-' else '+') :: (List.replicate (2 - ds.length) '0' ++ ds)

/-- Notation with one digit in front of the point and a power of ten. -/
def exponential (d : Decimal) : List Char :=
  d.digits.take 1 ++ fractionText (d.digits.drop 1) ++ powerText d.place

/-- The notation chosen by the place of the leading digit. -/
def text (d : Decimal) : List Char :=
  if -4 ≤ d.place ∧ d.place < precision then d.positional else d.exponential

end Decimal

/-- The text of a magnitude `significand · 2 ^ exponent`. -/
def magnitudeText (significand : Nat) (exponent : Int) : List Char :=
  if significand = 0 then ['0']
  else if 0 ≤ exponent then (nearest (significand * Nat.pow 2 exponent.toNat) 1).text
  else (nearest significand (Nat.pow 2 (-exponent).toNat)).text

end CompiledScript.Number

namespace CompiledScript.Binary32

/-- The number as a listing shows it. A pattern that is not a number has no sign. -/
def text (x : Binary32) : String :=
  let sign := if x.isNegative then ['-'] else []
  match x.magnitude with
  | .finite significand exponent => String.ofList (sign ++ Number.magnitudeText significand exponent)
  | .infinite => String.ofList (sign ++ ['i', 'n', 'f'])
  | .nan => "nan"

end CompiledScript.Binary32
