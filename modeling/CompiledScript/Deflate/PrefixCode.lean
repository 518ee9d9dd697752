import CompiledScript.Deflate.Bits

/-!
# Prefix codes

A prefix code is given by the length of the code word of each symbol, zero for a symbol without
one. Shorter words come before longer ones and words of equal length are in the order of their
symbols, which fixes all words. The code is kept as the tree of its words; words that belong to no
symbol end in an unused leaf.

The words fit together if the sum of `2 ^ -length` is at most one, and every bit sequence starts
with a word if it is one.
-/

namespace CompiledScript.Deflate

/-- The words of a code that start with the same bits. -/
inductive Words where
  | unused
  | symbol (value : Nat)
  | branch (zero one : Words)

/-- A code: the words that start with zero and those that start with one. -/
structure PrefixCode where
  zero : Words
  one : Words

namespace Words

/-- Follows the bits to a leaf. -/
def read : Words → BitAction (Option Nat)
  | .unused => return none
  | .symbol value => return some value
  | .branch zero one => do
    if ← bit then one.read else zero.read

theorem forward_read (words : Words) : Forward words.read := by
  induction words with
  | unused => exact forward_pure none
  | symbol value => exact forward_pure (some value)
  | branch zero one hzero hone => exact forward_bit.bind fun _ ↦ hone.ite hzero

def longest : Nat := 15

/-- Hangs the words of a list, in order, below a node, and yields the list that does not fit there.
The list has the length of each word with its symbol, shorter words first; `left` is the distance of
the node from the level of the longest words. -/
def hang : Nat → List (Nat × Nat) → Words × List (Nat × Nat)
  | _, [] => (.unused, [])
  | left, (length, value) :: rest =>
    if length + left = longest then (.symbol value, rest)
    else match left with
      | 0 => (.unused, (length, value) :: rest)
      | left + 1 =>
        let zero := hang left ((length, value) :: rest)
        let one := hang left zero.2
        (.branch zero.1 one.1, one.2)

end Words

/-- The symbols that have a word, each behind its length, in the order of the words. -/
def wordOrder (lengths : List Nat) : List (Nat × Nat) :=
  (List.range Words.longest).flatMap fun shorter ↦
    lengths.zipIdx.filter fun entry ↦ entry.1 = shorter + 1

/-- The sum of `2 ^ -length` over all words, in units of the longest words. -/
def occupied (lengths : List Nat) : Nat :=
  (lengths.filter (· ≠ 0)).foldr (fun length total ↦ Nat.pow 2 (Words.longest - length) + total) 0

/-- Whether every bit sequence starts with exactly one word. -/
def isComplete (lengths : List Nat) : Bool :=
  occupied lengths = Nat.pow 2 Words.longest

def isEmpty (lengths : List Nat) : Bool :=
  lengths.all (· = 0)

/-- Whether exactly one symbol has a word, and it is a single bit. -/
def isSingleBit (lengths : List Nat) : Bool :=
  lengths.filter (· ≠ 0) = [1]

namespace PrefixCode

def ofLengths (lengths : List Nat) : PrefixCode :=
  let zero := Words.hang (Words.longest - 1) (wordOrder lengths)
  let one := Words.hang (Words.longest - 1) zero.2
  ⟨zero.1, one.1⟩

/-- Reads a word, at least one bit of it, and yields its symbol if it has one. -/
def read (code : PrefixCode) : BitAction (Option Nat) := do
  if ← bit then code.one.read else code.zero.read

/-- A word takes at least one bit, which lies in the byte string. -/
theorem lt_of_read_eq_ok {code : PrefixCode} {data : ByteArray} {position next : Nat}
    {value : Option Nat} (h : code.read data position = .ok (value, next)) :
    position < 8 * data.size ∧ position < next := by
  obtain ⟨first, middle, hbit, hrest⟩ := bind_eq_ok.1 h
  have hfirst := bit_eq_ok hbit
  have hnext : middle ≤ next :=
    (Forward.ite (code.one.forward_read) (code.zero.forward_read)) _ _ _ _ hrest
  omega

theorem forward_read (code : PrefixCode) : Forward code.read :=
  forward_bit.bind fun _ ↦ code.one.forward_read.ite code.zero.forward_read

end PrefixCode
end CompiledScript.Deflate
