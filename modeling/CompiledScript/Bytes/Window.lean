/-!
# Parts of a byte string

A window is given by two signed positions, where a negative position counts from the end. Positions
outside the byte string are moved to its nearest end, so that every window exists.
-/

namespace CompiledScript.Bytes

/-- The place of a signed position in a byte string of the given length. -/
def place (length : Nat) (position : Int) : Nat :=
  if position < 0 then (length + position).toNat else position.toNat

/-- The bytes from one signed position up to another. -/
def window (data : ByteArray) (start stop : Int) : ByteArray :=
  data.extract (place data.size start) (place data.size stop)

/-- The position of the first occurrence of a byte at or after `start`. -/
def findFrom? (data : ByteArray) (byte : UInt8) (start : Nat) : Option Nat :=
  if h : start < data.size then
    if data[start] = byte then some start else findFrom? data byte (start + 1)
  else none
  termination_by data.size - start

/-- An occurrence lies in the data, not before the start of the search. -/
theorem bounds_of_findFrom?_eq_some {data : ByteArray} {byte : UInt8} {start offset : Nat}
    (h : findFrom? data byte start = some offset) : start ≤ offset ∧ offset < data.size := by
  fun_induction findFrom? data byte start with
  | case1 start hstart hbyte =>
    cases h
    exact ⟨Nat.le_refl _, hstart⟩
  | case2 start hstart hbyte ih =>
    have := ih h
    omega
  | case3 start hstart => cases h

end CompiledScript.Bytes
