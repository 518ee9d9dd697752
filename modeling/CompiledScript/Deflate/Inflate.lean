import CompiledScript.Deflate.Block

/-!
# Inflating a stream

A stream is a sequence of blocks, each behind a bit that marks the last block and two bits for the
kind of block: bytes stored as they are, a compressed block with the fixed codes, or one that
brings its own codes. Whatever follows the last block is not looked at.
-/

namespace CompiledScript.Deflate

/-- The order in which the lengths of the code for code lengths are stored. -/
def lengthOrder : List Nat :=
  [16, 17, 18, 0, 8, 7, 9, 6, 10, 5, 11, 4, 12, 3, 13, 2, 14, 1, 15]

def repeated {α : Type} (count : Nat) (action : BitAction α) : BitAction (List α) :=
  match count with
  | 0 => return []
  | count + 1 => do
    let first ← action
    let rest ← repeated count action
    return first :: rest

/-- The lengths in the order of their symbols, from those stored. A symbol whose length is not
stored has no word. -/
def storedLengths (stored : List Nat) : List Nat :=
  (List.range lengthOrder.length).map fun symbol ↦
    ((lengthOrder.zip stored).lookup symbol).getD 0

/-- The code for code lengths. It has to be complete. Without any words, each bit reads as the
length zero. -/
def lengthCode (lengths : List Nat) : BitAction PrefixCode :=
  if isEmpty lengths then return ⟨.symbol 0, .symbol 0⟩
  else if isComplete lengths then return .ofLengths lengths
  else fail .codeLengthsSet

/-- What a word of the code for code lengths stands for: a length, and how many more times it
follows. The last three symbols repeat the length before, or zero. -/
def lengthRun (symbol : Nat) (previous : Option Nat) : BitAction (Nat × Nat) :=
  if symbol < 16 then return (symbol, 0)
  else if symbol = 16 then do
    let more ← bits 2
    match previous with
    | some length => return (length, 2 + more)
    | none => fail .lengthRepeat
  else if symbol = 17 then return (0, 2 + (← bits 3))
  else return (0, 10 + (← bits 7))

/-- Reads code lengths up to the given number; `found` has those read so far, the last one first. -/
def codeLengths (code : PrefixCode) (total : Nat) (found : List Nat) : BitAction (List Nat) :=
  if found.length < total then do
    let symbol ← code.read
    let (length, more) ← lengthRun (symbol.getD 0) found.head?
    if found.length + more < total then
      codeLengths code total (List.replicate (more + 1) length ++ found)
    else fail .lengthRepeat
  else return found.reverse
  termination_by total - found.length
  decreasing_by
    simp only [List.length_append, List.length_replicate]
    omega

/-- Whether a code can be used for a block: every word has a symbol, or the code is a single word of
one bit, or it has no word at all and is not used. -/
def isUsable (lengths : List Nat) : Bool :=
  isComplete lengths || isSingleBit lengths || isEmpty lengths

def ownCodes : BitAction BlockCodes := do
  let literalCount := 257 + (← bits 5)
  let distanceCount := 1 + (← bits 5)
  let lengthCount := 4 + (← bits 4)
  if 286 < literalCount ∨ 30 < distanceCount then fail .tooManySymbols
  else do
    let stored ← repeated lengthCount (bits 3)
    let code ← lengthCode (storedLengths stored)
    let lengths ← codeLengths code (literalCount + distanceCount) []
    let literals := lengths.take literalCount
    let distances := lengths.drop literalCount
    if literals[endOfBlock]?.getD 0 = 0 then fail .missingEndOfBlock
    else if !isUsable literals then fail .literalSet
    else if !isUsable distances then fail .distanceSet
    else return ⟨.ofLengths literals, .ofLengths distances⟩

/-- Reads bytes that are stored as they are, behind their number and its complement. -/
def storedBlock (output : ByteArray) : BitAction ByteArray := do
  alignToByte
  let length ← bits 16
  let complement ← bits 16
  if length + complement = 0xFFFF then return output ++ (← wholeBytes length)
  else fail .storedLengths

def block (kind : Nat) (output : ByteArray) : BitAction ByteArray :=
  match kind with
  | 0 => storedBlock output
  | 1 => elements fixedCodes output
  | 2 => do elements (← ownCodes) output
  | _ => fail .blockType

/-- Reads a block with the bits in front of it. The result also says whether it is the last one. -/
def nextBlock (output : ByteArray) : BitAction (Bool × ByteArray) := do
  let isLast ← bit
  let kind ← bits 2
  return (isLast, ← block kind output)

theorem forward_repeated {α : Type} (count : Nat) {action : BitAction α} (haction : Forward action) :
    Forward (repeated count action) := by
  induction count with
  | zero => exact forward_pure []
  | succ count ih => exact haction.bind fun _ ↦ ih.bind fun _ ↦ forward_pure _

theorem forward_lengthCode (lengths : List Nat) : Forward (lengthCode lengths) :=
  (forward_pure _).ite ((forward_pure _).ite (forward_fail _))

theorem forward_lengthRun (symbol : Nat) (previous : Option Nat) :
    Forward (lengthRun symbol previous) := by
  refine (forward_pure _).ite (Forward.ite ((forward_bits 2).bind fun count ↦ ?_)
    (((forward_bits 3).bind fun _ ↦ forward_pure _).ite
      ((forward_bits 7).bind fun _ ↦ forward_pure _)))
  cases previous with
  | some length => exact forward_pure _
  | none => exact forward_fail _

theorem forward_codeLengths (code : PrefixCode) (total : Nat) (found : List Nat) :
    Forward (codeLengths code total found) := by
  induction hleft : total - found.length using Nat.strongRecOn generalizing found with
  | ind left ih =>
    unfold codeLengths
    split
    · refine code.forward_read.bind fun symbol ↦ (forward_lengthRun _ _).bind fun run ↦ ?_
      refine Forward.ite (ih _ ?_ _ rfl) (forward_fail _)
      simp only [List.length_append, List.length_replicate]
      omega
    · exact forward_pure _

theorem forward_ownCodes : Forward ownCodes :=
  (forward_bits 5).bind fun _ ↦ (forward_bits 5).bind fun _ ↦ (forward_bits 4).bind fun _ ↦
    (forward_fail _).ite <| (forward_repeated _ (forward_bits 3)).bind fun _ ↦
      (forward_lengthCode _).bind fun _ ↦ (forward_codeLengths _ _ _).bind fun _ ↦
        (forward_fail _).ite <| (forward_fail _).ite <| (forward_fail _).ite (forward_pure _)

theorem forward_storedBlock (output : ByteArray) : Forward (storedBlock output) :=
  forward_alignToByte.bind fun _ ↦ (forward_bits 16).bind fun _ ↦ (forward_bits 16).bind fun _ ↦
    ((forward_wholeBytes _).bind fun _ ↦ forward_pure _).ite (forward_fail _)

theorem forward_block (kind : Nat) (output : ByteArray) : Forward (block kind output) := by
  unfold block
  split
  · exact forward_storedBlock output
  · exact forward_elements fixedCodes output
  · exact forward_ownCodes.bind fun codes ↦ forward_elements codes output
  · exact forward_fail _

/-- A block takes at least one bit, which lies in the byte string. -/
theorem lt_of_nextBlock_eq_ok {output : ByteArray} {data : ByteArray} {position next : Nat}
    {value : Bool × ByteArray} (h : nextBlock output data position = .ok (value, next)) :
    position < 8 * data.size ∧ position < next := by
  obtain ⟨isLast, middle, hbit, hrest⟩ := bind_eq_ok.1 h
  have hfirst := bit_eq_ok hbit
  have hnext : middle ≤ next :=
    ((forward_bits 2).bind fun kind ↦ (forward_block kind output).bind fun _ ↦ forward_pure _)
      _ _ _ _ hrest
  omega

set_option linter.unusedVariables false in
def blocks (data : ByteArray) (position : Nat) (output : ByteArray) : Except Fault ByteArray :=
  match h : nextBlock output data position with
  | .error fault => .error fault
  | .ok ((true, whole), _) => .ok whole
  | .ok ((false, longer), next) => blocks data next longer
  termination_by bitsLeft data position
  decreasing_by
    have := lt_of_nextBlock_eq_ok h
    unfold bitsLeft
    omega

/-- The bytes that a stream stands for. -/
def inflate (data : ByteArray) : Except Fault ByteArray :=
  blocks data 0 ByteArray.empty

end CompiledScript.Deflate
