import CompiledScript.Deflate.PrefixCode

/-!
# Compressed blocks

A compressed block is a sequence of words of two codes. A word of the literal code stands for a
byte, for the end of the block, or for a length class; a length is followed by a word of the
distance code, and the two together repeat bytes of the output. The codes are fixed, or their
lengths stand in front of the block, themselves compressed with a code for code lengths.
-/

namespace CompiledScript.Deflate

structure BlockCodes where
  literals : PrefixCode
  distances : PrefixCode

/-- A range of lengths or distances: its least value, and the number of further bits that select one
of its values. -/
structure ValueClass where
  base : Nat
  extra : Nat

def endOfBlock : Nat := 256

/-- The lengths, for the symbols after the end of the block. -/
def lengthClasses : Array ValueClass :=
  #[⟨3, 0⟩, ⟨4, 0⟩, ⟨5, 0⟩, ⟨6, 0⟩, ⟨7, 0⟩, ⟨8, 0⟩, ⟨9, 0⟩, ⟨10, 0⟩, ⟨11, 1⟩, ⟨13, 1⟩, ⟨15, 1⟩,
    ⟨17, 1⟩, ⟨19, 2⟩, ⟨23, 2⟩, ⟨27, 2⟩, ⟨31, 2⟩, ⟨35, 3⟩, ⟨43, 3⟩, ⟨51, 3⟩, ⟨59, 3⟩, ⟨67, 4⟩,
    ⟨83, 4⟩, ⟨99, 4⟩, ⟨115, 4⟩, ⟨131, 5⟩, ⟨163, 5⟩, ⟨195, 5⟩, ⟨227, 5⟩, ⟨258, 0⟩]

/-- The distances, for the symbols of the distance code. -/
def distanceClasses : Array ValueClass :=
  #[⟨1, 0⟩, ⟨2, 0⟩, ⟨3, 0⟩, ⟨4, 0⟩, ⟨5, 1⟩, ⟨7, 1⟩, ⟨9, 2⟩, ⟨13, 2⟩, ⟨17, 3⟩, ⟨25, 3⟩, ⟨33, 4⟩,
    ⟨49, 4⟩, ⟨65, 5⟩, ⟨97, 5⟩, ⟨129, 6⟩, ⟨193, 6⟩, ⟨257, 7⟩, ⟨385, 7⟩, ⟨513, 8⟩, ⟨769, 8⟩,
    ⟨1025, 9⟩, ⟨1537, 9⟩, ⟨2049, 10⟩, ⟨3073, 10⟩, ⟨4097, 11⟩, ⟨6145, 11⟩, ⟨8193, 12⟩, ⟨12289, 12⟩,
    ⟨16385, 13⟩, ⟨24577, 13⟩]

def ValueClass.read (c : ValueClass) : BitAction Nat := do
  return c.base + (← bits c.extra)

/-- Reads a word and the further bits of its class. A word without a class is a fault. -/
def classValue (classes : Array ValueClass) (fault : Fault) (symbol : Option Nat) : BitAction Nat :=
  match symbol.bind (classes[·]?) with
  | some c => c.read
  | none => fail fault

/-- Appends `length` bytes, each a copy of the byte `distance` places before it, so that a copy may
run into the bytes it has itself appended. -/
def repeatBack (distance : Nat) : Nat → ByteArray → ByteArray
  | 0, output => output
  | length + 1, output =>
    repeatBack distance length (output.push (output[output.size - distance]?.getD 0))

/-- Reads the distance that belongs to a length, and repeats that part of the output. -/
def repetition (distances : PrefixCode) (length : Nat) (output : ByteArray) :
    BitAction ByteArray := do
  let distance ← classValue distanceClasses .distanceCode (← distances.read)
  if output.size < distance then fail .distanceTooFar
  else return repeatBack distance length output

theorem forward_classValue (classes : Array ValueClass) (fault : Fault) (symbol : Option Nat) :
    Forward (classValue classes fault symbol) := by
  unfold classValue
  split
  · exact (forward_bits _).bind fun _ ↦ forward_pure _
  · exact forward_fail fault

theorem forward_repetition (distances : PrefixCode) (length : Nat) (output : ByteArray) :
    Forward (repetition distances length output) :=
  distances.forward_read.bind fun _ ↦ (forward_classValue _ _ _).bind fun _ ↦
    (forward_fail _).ite (forward_pure _)

/-- The output after a word, and whether the block goes on. -/
inductive Progress where
  | more (output : ByteArray)
  | ended (output : ByteArray)

/-- What a word of the literal code does to the output. -/
def element (codes : BlockCodes) (symbol : Option Nat) (output : ByteArray) : BitAction Progress :=
  match symbol with
  | none => fail .literalCode
  | some symbol =>
    if symbol < endOfBlock then return .more (output.push symbol.toUInt8)
    else if symbol = endOfBlock then return .ended output
    else do
      let length ← classValue lengthClasses .literalCode (some (symbol - endOfBlock - 1))
      return .more (← repetition codes.distances length output)

theorem forward_element (codes : BlockCodes) (symbol : Option Nat) (output : ByteArray) :
    Forward (element codes symbol output) := by
  unfold element
  split
  · exact forward_fail _
  · exact (forward_pure _).ite ((forward_pure _).ite
      ((forward_classValue _ _ _).bind fun _ ↦ (forward_repetition _ _ _).bind fun _ ↦
        forward_pure _))

set_option linter.unusedVariables false in
/-- Reads the words of a block up to its end, and yields the output with what they stand for. -/
def elements (codes : BlockCodes) (output : ByteArray) : BitAction ByteArray :=
  fun data position ↦
    match hsymbol : codes.literals.read data position with
    | .error fault => .error fault
    | .ok (symbol, middle) =>
      match helement : element codes symbol output data middle with
      | .error fault => .error fault
      | .ok (.ended whole, next) => .ok (whole, next)
      | .ok (.more longer, next) => elements codes longer data next
  termination_by data position => bitsLeft data position
  decreasing_by
    have hword := PrefixCode.lt_of_read_eq_ok hsymbol
    have hrest := forward_element codes symbol output _ _ _ _ helement
    unfold bitsLeft
    omega

theorem forward_elements (codes : BlockCodes) (output : ByteArray) :
    Forward (elements codes output) := by
  intro data position value next h
  induction hleft : bitsLeft data position using Nat.strongRecOn generalizing position output with
  | ind left ih =>
    unfold elements at h
    split at h
    · cases h
    · rename_i symbol middle hsymbol
      have hword := PrefixCode.lt_of_read_eq_ok hsymbol
      split at h
      · cases h
      · rename_i whole after helement
        have hrest := forward_element codes symbol output _ _ _ _ helement
        cases h
        omega
      · rename_i longer after helement
        have hrest := forward_element codes symbol output _ _ _ _ helement
        have hbelow : bitsLeft data after < left := by
          unfold bitsLeft at hleft ⊢
          omega
        have := ih _ hbelow longer after h rfl
        omega

/-- The codes of a block that brings none of its own. -/
def fixedCodes : BlockCodes where
  literals := .ofLengths (List.replicate 144 8 ++ List.replicate 112 9 ++ List.replicate 24 7
    ++ List.replicate 8 8)
  distances := .ofLengths (List.replicate 32 5)

end CompiledScript.Deflate
