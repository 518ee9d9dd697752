import CompiledScript.Deflate.Fault

/-!
# Reading bits

The bits of a byte string are numbered from the least significant bit of its first byte on. An
action reads at a bit position, and yields a value and the position after it, or a fault. The only
fault of reading as such is that the byte string ends.

An action is *forward* if the position after it is never before the position it started from. The
decoders below are recursive with the bits that are left as their measure, and stay so because
everything they are made of is forward.
-/

namespace CompiledScript.Deflate

/-- A computation that reads bits from a position on. -/
abbrev BitAction := ReaderT ByteArray (StateT Nat (Except Fault))

def bitAt? (data : ByteArray) (position : Nat) : Option Bool :=
  data[position / 8]?.map fun byte ↦ byte.toNat.testBit (position % 8)

def bit : BitAction Bool := fun data position ↦
  match bitAt? data position with
  | some value => .ok (value, position + 1)
  | none => .error .truncated

/-- The next `count` bits as a number, least significant bit first. -/
def bits : Nat → BitAction Nat
  | 0 => return 0
  | count + 1 => do
    let low ← bit
    let high ← bits count
    return low.toNat + 2 * high

def alignToByte : BitAction Unit := fun _ position ↦
  .ok ((), (position + 7) / 8 * 8)

def wholeBytes (count : Nat) : BitAction ByteArray := fun data position ↦
  if position / 8 + count ≤ data.size then
    .ok (data.extract (position / 8) (position / 8 + count), position + 8 * count)
  else .error .truncated

def fail {α : Type} (fault : Fault) : BitAction α := fun _ _ ↦
  .error fault

/-- The number of bits after a position. -/
def bitsLeft (data : ByteArray) (position : Nat) : Nat :=
  8 * data.size - position

/-- Reading never goes back. -/
def Forward {α : Type} (action : BitAction α) : Prop :=
  ∀ data position value next, action data position = .ok (value, next) → position ≤ next

theorem forward_pure {α : Type} (value : α) : Forward (pure value : BitAction α) := by
  intro data position result next h
  cases h
  exact Nat.le_refl _

theorem bind_eq_ok {α β : Type} {action : BitAction α} {f : α → BitAction β} {data : ByteArray}
    {position : Nat} {result : β × Nat} :
    (action >>= f) data position = .ok result ↔
      ∃ value middle, action data position = .ok (value, middle) ∧
        f value data middle = .ok result := by
  show (action data position >>= fun p ↦ f p.1 data p.2) = .ok result ↔ _
  cases h : action data position with
  | error fault => simp [bind, Except.bind]
  | ok pair =>
    constructor
    · exact fun hsecond ↦ ⟨pair.1, pair.2, rfl, hsecond⟩
    · rintro ⟨value, middle, hpair, hsecond⟩
      cases hpair
      exact hsecond

theorem Forward.bind {α β : Type} {action : BitAction α} {f : α → BitAction β}
    (haction : Forward action) (hf : ∀ value, Forward (f value)) : Forward (action >>= f) := by
  intro data position result next h
  obtain ⟨value, middle, hfirst, hsecond⟩ := bind_eq_ok.1 h
  exact Nat.le_trans (haction _ _ _ _ hfirst) (hf _ _ _ _ _ hsecond)

theorem Forward.ite {α : Type} {condition : Prop} [Decidable condition] {first second : BitAction α}
    (hfirst : Forward first) (hsecond : Forward second) :
    Forward (if condition then first else second) := by
  split <;> assumption

theorem forward_fail {α : Type} (fault : Fault) : Forward (fail fault : BitAction α) := by
  intro data position value next h
  cases h

/-- A bit that was read lies in the byte string, and the position moves past it. -/
theorem bit_eq_ok {data : ByteArray} {position next : Nat} {value : Bool}
    (h : bit data position = .ok (value, next)) :
    position < 8 * data.size ∧ next = position + 1 := by
  unfold bit bitAt? at h
  by_cases hinside : position / 8 < data.size
  · simp [hinside] at h
    exact ⟨by omega, by omega⟩
  · simp [hinside] at h

theorem forward_bit : Forward bit := by
  intro data position value next h
  have := (bit_eq_ok h).2
  omega

theorem forward_bits (count : Nat) : Forward (bits count) := by
  induction count with
  | zero => exact forward_pure 0
  | succ count ih => exact forward_bit.bind fun _ ↦ ih.bind fun _ ↦ forward_pure _

theorem forward_alignToByte : Forward alignToByte := by
  intro data position value next h
  cases h
  omega

theorem forward_wholeBytes (count : Nat) : Forward (wholeBytes count) := by
  intro data position value next h
  unfold wholeBytes at h
  split at h
  · cases h
    omega
  · cases h

end CompiledScript.Deflate
