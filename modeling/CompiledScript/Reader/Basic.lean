import CompiledScript.Bytes.Window
import CompiledScript.Fault
import CompiledScript.Number.Binary32
import CompiledScript.Number.ByteOrder
import CompiledScript.Text.Utf8

/-!
# Reading a buffer

A reader is a buffer, a byte order and a position. An action on it either yields a value or fails
with a `Fault`, and says in both cases how it left the reader. The basic actions never yield less
than what was asked for, and leave the reader as it was when they fail.

The position is any integer, since a caller may set it freely; the actions keep it within the
buffer. A reader that has been closed has no buffer any more, and every action that needs one fails.
-/

namespace CompiledScript

/-- The number of bytes from a position up to the next multiple of a boundary other than zero. For
a negative boundary the number is negative. -/
def paddingTo (position boundary : Int) : Int :=
  if position.fmod boundary = 0 then 0 else boundary - position.fmod boundary

/-- The number of bytes up to the next multiple of a boundary; there is none for multiples of
zero. -/
def padding? (position boundary : Int) : Option Int :=
  if boundary = 0 then none else some (paddingTo position boundary)

def aligned? (position boundary : Int) : Option Int :=
  (padding? position boundary).map (position + ·)

/-- A buffer with the position of the next read. -/
structure Reader where
  /-- The buffer, until the reader is closed. -/
  contents : Option ByteArray
  order : ByteOrder
  position : Int

namespace Reader

abbrev Action := EStateM Fault Reader

def ofBytes (order : ByteOrder) (data : ByteArray) : Reader :=
  ⟨some data, order, 0⟩

def close (r : Reader) : Reader :=
  { r with contents := none }

def isClosed (r : Reader) : Bool :=
  r.contents.isNone

/-- The buffer of a reader that is not closed. -/
def buffer : Action ByteArray := fun r ↦
  match r.contents with
  | some data => .ok data r
  | none => .error .closed r

def length : Action Nat := do
  return (← buffer).size

/-- Moves to an offset of the buffer, of which the end is one. -/
def seek (offset : Int) : Action Unit := do
  let size ← length
  if 0 ≤ offset ∧ offset ≤ size then modify ({ · with position := offset })
  else throw (.seekOutside offset size)

def skip (count : Int) : Action Unit := do
  seek ((← get).position + count)

/-- Moves to the next multiple of a boundary, and yields the number of bytes passed over. Nothing
is asked of the buffer when the position is a multiple already. -/
def align (boundary : Int) : Action Int := do
  match padding? (← get).position boundary with
  | none => throw .zeroBoundary
  | some count =>
    if count = 0 then return 0
    else do
      skip count
      return count

/-- The next `width` bytes. -/
def field (width : Nat) : Action (List UInt8) := do
  let data ← buffer
  let position := (← get).position
  if 0 ≤ position ∧ position + width ≤ data.size then
    modify ({ · with position := position + width })
    return (data.extract position.toNat (position.toNat + width)).data.toList
  else throw (.readOutside width position data.size)

/-- The next `width` bytes as an unsigned number. -/
def unsigned (width : Nat) : Action Nat := do
  let bytes ← field width
  return Number.ofBytes (← get).order bytes

def signed (width : Nat) : Action Int := do
  return Number.toSigned width (← unsigned width)

def u8 : Action Nat := unsigned 1

def i8 : Action Int := signed 1

def u16 : Action Nat := unsigned 2

def i16 : Action Int := signed 2

def u32 : Action Nat := unsigned 4

def i32 : Action Int := signed 4

def i64 : Action Int := signed 8

def f32 : Action Binary32 := do
  return ⟨(← u32).toUInt32⟩

/-- The next `count` bytes. A negative position counts from the end of the buffer. -/
def bytes (count : Int) : Action ByteArray := do
  let data ← buffer
  let position := (← get).position
  if 0 ≤ count ∧ position + count ≤ data.size then
    modify ({ · with position := position + count })
    return Bytes.window data position (position + count)
  else throw (.readOutside count position data.size)

/-- The text from an offset up to the next zero byte, and the offset after that byte. An offset
below zero needs no buffer to be refused. -/
def textAt (offset : Int) : Action (String × Int) :=
  if offset < 0 then throw (.textOutside offset)
  else do
    let data ← buffer
    if offset < data.size then
      match Bytes.findFrom? data 0 offset.toNat with
      | some stop =>
        let text := Text.Utf8.decodeLenient (data.extract offset.toNat stop).data.toList
        return (text, (stop : Int) + 1)
      | none => throw (.textUnterminated offset)
    else throw (.textOutside offset)

/-- The text at an offset, without moving. -/
def peekText (offset : Int) : Action String := do
  return (← textAt offset).1

/-- The text at the position, moving past its zero byte. -/
def text : Action String := do
  let (value, stop) ← textAt (← get).position
  modify ({ · with position := stop })
  return value

def repeated {α : Type} (count : Nat) (action : Action α) : Action (List α) :=
  match count with
  | 0 => return []
  | count + 1 => do
    let first ← action
    let rest ← repeated count action
    return first :: rest

end Reader
end CompiledScript
