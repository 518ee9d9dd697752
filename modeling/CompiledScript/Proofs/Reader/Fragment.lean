import CompiledScript.Proofs.Reader.Reads

/-!
# Pieces of a format

A piece of a format may depend on the address at which it stands, because of alignment. Bytes that
no reader looks at come from a *filler*, which chooses them by their addresses: a statement about
every filler is one about every choice of them.
-/

namespace CompiledScript

open Bytes Number Reader

/-- A piece of a format, by the address at which it stands. -/
abbrev Fragment := Int → List UInt8

namespace Fragment

/-- Two pieces one after the other. -/
def followedBy (first second : Fragment) : Fragment := fun address ↦
  first address ++ second (address + (first address).length)

/-- A number in a field of the given width. -/
def number (width : Nat) (value : Int) : Fragment := fun _ ↦
  toLittleEndian width value

/-- A number of bytes that are passed over. -/
def unread (filler : Int → UInt8) (count : Nat) : Fragment := fun address ↦
  (List.range count).map fun step ↦ filler (address + step)

/-- The least number of bytes that leads from an address to a multiple of a boundary. -/
def gap (address boundary : Int) : Int :=
  -address % boundary

/-- The bytes up to the next multiple of a boundary. -/
def padding (filler : Int → UInt8) (boundary : Int) : Fragment := fun address ↦
  unread filler (gap address boundary).toNat address

/-- A number in a field that starts at a multiple of its width. -/
def aligned (filler : Int → UInt8) (width : Nat) (value : Int) : Fragment :=
  (padding filler width).followedBy (number width value)

section Length

variable (filler : Int → UInt8) (address : Int)

@[simp] theorem length_number (width : Nat) (value : Int) :
    (number width value address).length = width :=
  length_toLittleEndian width value

@[simp] theorem length_unread (count : Nat) : (unread filler count address).length = count := by
  simp [unread]

theorem gap_nonneg {boundary : Int} (hboundary : 0 < boundary) : 0 ≤ gap address boundary :=
  Int.emod_nonneg _ (by omega)

theorem length_padding {boundary : Int} (hboundary : 0 < boundary) :
    ((padding filler boundary address).length : Int) = gap address boundary := by
  rw [padding, length_unread]
  exact Int.toNat_of_nonneg (gap_nonneg address hboundary)

@[simp] theorem length_followedBy (first second : Fragment) :
    (first.followedBy second address).length =
      (first address).length + (second (address + (first address).length)).length := by
  simp [followedBy]

theorem followedBy_assoc (first second third : Fragment) :
    (first.followedBy second).followedBy third = first.followedBy (second.followedBy third) := by
  funext address
  simp only [followedBy, List.append_assoc, List.length_append]
  push_cast
  rw [Int.add_assoc]

theorem length_aligned (width : Nat) (value : Int) (hwidth : 0 < width) :
    ((aligned filler width value address).length : Int) = gap address width + width := by
  rw [aligned, length_followedBy, length_number]
  push_cast
  rw [length_padding filler address (by omega)]

end Length

variable {data : ByteArray} {filler : Int → UInt8} {address : Int}

theorem paddingTo_eq_gap {boundary : Int} (hboundary : 0 < boundary) :
    paddingTo address boundary = gap address boundary := by
  have hfloor : address.fmod boundary = address % boundary :=
    Int.fmod_eq_emod_of_nonneg address (by omega)
  unfold paddingTo gap
  rw [hfloor, Int.neg_emod]
  by_cases hmultiple : boundary ∣ address
  · rw [if_pos (Int.emod_eq_zero_of_dvd hmultiple), if_pos hmultiple]
  · have hrest : address % boundary ≠ 0 := fun hzero ↦ hmultiple (Int.dvd_of_emod_eq_zero hzero)
    rw [if_neg hrest, if_neg hmultiple, Int.natAbs_of_nonneg (by omega)]

theorem reads_padding {boundary : Int} (hboundary : 0 < boundary) :
    Reads data (align boundary) address (padding filler boundary address)
      (gap address boundary) := by
  rw [← paddingTo_eq_gap hboundary]
  apply reads_align hboundary
  rw [paddingTo_eq_gap hboundary, length_padding filler address hboundary]

theorem reads_unread (count : Nat) :
    Reads data (skip count) address (unread filler count address) () :=
  reads_skip (by rw [length_unread])

end Fragment
end CompiledScript
