import CompiledScript.Proofs.Bytes.BitwiseChecksum
import Mathlib.Data.Set.Basic
import Mathlib.Order.Nat

/-!
# The scan for a checksum is exact

The scan carries one running checksum from byte to byte and stops at the first hit. Measured against
the checksum of each run as a whole, it finds the least length of a nonempty run with the wanted
checksum that ends inside the data, and it fails if and only if there is no such run, in particular
for a start at or behind the end of the data.
-/

namespace CompiledScript.Script

open Bytes

/-- The lengths of the nonempty runs from a start on that have a checksum. -/
def runLengths (data : ByteArray) (start : Nat) (checksum : Int) : Set Nat :=
  {length | 1 ≤ length ∧ start + length ≤ data.size ∧
    ((Crc32.oneShot (data.extract start (start + length))).toNat : Int) = checksum}

variable {data : ByteArray} {start length : Nat} {checksum : Int}

theorem runChecksum_eq_oneShot (data : ByteArray) (start length : Nat) :
    runChecksum data start length =
      (Crc32.oneShot (data.extract start (start + length))).toNat := by
  rw [← Crc32.toBitVec_checksum]
  rfl

theorem isShortestRun_iff_isLeast :
    IsShortestRun data start checksum length ↔ IsLeast (runLengths data start checksum) length := by
  constructor
  · intro hrun
    have hchecksum := hrun.checksum_eq
    rw [runChecksum_eq_oneShot] at hchecksum
    refine ⟨⟨hrun.nonempty, hrun.inside, hchecksum⟩, ?_⟩
    rintro other ⟨hnonempty, _, hother⟩
    rw [← runChecksum_eq_oneShot] at hother
    by_contra hshorter
    exact hrun.shortest other hnonempty (Nat.lt_of_not_le hshorter) hother
  · rintro ⟨⟨hnonempty, hinside, hchecksum⟩, hleast⟩
    rw [← runChecksum_eq_oneShot] at hchecksum
    refine ⟨hnonempty, hinside, hchecksum, ?_⟩
    intro shorter hlow hhigh hother
    rw [runChecksum_eq_oneShot] at hother
    have hlength := hleast ⟨hlow, by omega, hother⟩
    omega

/-- The scan has no other way to fail than to run out of data. -/
theorem codeSize_eq_error {fault : Fault} (h : codeSize data start checksum = .error fault) :
    fault = .checksumUnmatched checksum start := by
  unfold codeSize at h
  dsimp only at h
  split at h <;> cases h
  rfl

/-- The scan for a checksum succeeds with the least length of a nonempty run that has the checksum
as a whole, and fails if there is none. -/
theorem codeSize_finds_least_run (data : ByteArray) (start : Nat) (checksum : Int) :
    (∀ size, codeSize data start checksum = .ok size ↔
      ∃ length : Nat, size = length ∧ IsLeast (runLengths data start checksum) length) ∧
    ∀ fault, codeSize data start checksum = .error fault ↔
      fault = .checksumUnmatched checksum start ∧ runLengths data start checksum = ∅ := by
  have hfound (size : Int) : codeSize data start checksum = .ok size ↔
      ∃ length : Nat, size = length ∧ IsLeast (runLengths data start checksum) length := by
    simp only [codeSize_eq_ok_iff, isShortestRun_iff_isLeast]
  refine ⟨hfound, fun fault ↦ ⟨fun herror ↦ ⟨codeSize_eq_error herror, ?_⟩, ?_⟩⟩
  · -- a run with the checksum would make the scan stop at the shortest one
    by_contra hnonempty
    classical
    have hleast := (Set.nonempty_iff_ne_empty.2 hnonempty).isLeast_natFind
    have hok := (hfound _).2 ⟨_, rfl, hleast⟩
    rw [herror] at hok
    cases hok
  · rintro ⟨rfl, hempty⟩
    cases hscan : codeSize data start checksum with
    | error fault => rw [codeSize_eq_error hscan]
    | ok size =>
      obtain ⟨length, _, hleast⟩ := (hfound size).1 hscan
      have hmember := hleast.1
      rw [hempty] at hmember
      cases hmember

end CompiledScript.Script
