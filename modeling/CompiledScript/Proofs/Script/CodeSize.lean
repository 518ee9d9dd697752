import CompiledScript.Script.Checksum
import Mathlib.Data.List.Basic

/-!
# The extent of a function is its shortest run with the stored checksum

The running checksum of the scan is the checksum of the run passed so far, so for a start inside the
data the scan finds the shortest nonempty run with the wanted checksum, and fails if there is none.
-/

namespace CompiledScript

namespace Bytes.Crc32

private theorem foldlM_loop_eq {β : Type} (f : β → UInt8 → Id β) (data : ByteArray) (value : β)
    (left position : Nat) (hleft : left + position = data.size) :
    ByteArray.foldlM.loop f data data.size (Nat.le_refl _) left position value =
      (data.data.toList.drop position).foldlM f value := by
  induction left generalizing position value with
  | zero =>
    have hend : data.data.toList.length ≤ position := by
      rw [Array.length_toList, ByteArray.size_data]
      omega
    rw [ByteArray.foldlM.loop, dif_neg (by omega), List.drop_of_length_le hend]
    rfl
  | succ left ih =>
    have hinside : position < data.data.toList.length := by
      rw [Array.length_toList, ByteArray.size_data]
      omega
    rw [ByteArray.foldlM.loop, dif_pos (by omega), List.drop_eq_getElem_cons hinside,
      List.foldlM_cons]
    exact congrArg (f value data.data.toList[position] >>= ·)
      (funext fun next ↦ ih next (position + 1) (by omega))

/-- The checksum takes in the bytes from the first to the last. -/
theorem checksum_eq_foldl (data : ByteArray) :
    checksum data = ~~~ data.data.toList.foldl absorb 0xFFFFFFFF := by
  unfold checksum ByteArray.foldl ByteArray.foldlM
  rw [dif_pos (Nat.le_refl _)]
  beta_reduce
  rw [foldlM_loop_eq _ _ _ _ _ (by omega), List.drop_zero, List.foldlM_pure]
  rfl

@[simp] theorem checksum_empty : checksum ByteArray.empty = 0 := by
  rw [checksum_eq_foldl]
  decide

/-- A checksum is carried on with a further byte. -/
theorem checksum_push (data : ByteArray) (byte : UInt8) :
    checksum (data.push byte) = extend (checksum data) byte := by
  simp only [checksum_eq_foldl, extend, ByteArray.data_push, Array.toList_push, List.foldl_append,
    List.foldl_cons, List.foldl_nil, UInt32.not_not]

end Bytes.Crc32

namespace Script

open Bytes

def runChecksum (data : ByteArray) (start length : Nat) : Nat :=
  (Crc32.checksum (data.extract start (start + length))).toNat

/-- The shortest nonempty run from a start on that has a checksum. -/
structure IsShortestRun (data : ByteArray) (start : Nat) (checksum : Int) (length : Nat) :
    Prop where
  nonempty : 1 ≤ length
  inside : start + length ≤ data.size
  checksum_eq : (runChecksum data start length : Int) = checksum
  shortest : ∀ shorter, 1 ≤ shorter → shorter < length →
    (runChecksum data start shorter : Int) ≠ checksum

variable {data : ByteArray} {start length : Nat} {wanted : Int}

theorem runByte?_of_lt {position : Nat} (h : position < data.size) :
    runByte? data position = some data[position] := by
  have hplace (offset : Nat) : place data.size (offset : Int) = offset := by
    unfold place
    rw [if_neg (by omega)]
    omega
  have hnext : (position : Int) + 1 = (position + 1 : Nat) := by push_cast; rfl
  unfold runByte? window
  rw [hnext, hplace, hplace, getElem?_pos _ _ (by rw [ByteArray.size_extract]; omega)]
  rw [ByteArray.getElem_extract]
  rfl

/-- One step of the scan takes the checksum of a run to that of the next longer run. -/
theorem extendChecksum_runChecksum (h : start + length < data.size) :
    (extendChecksum data (Crc32.checksum (data.extract start (start + length)))
      ((start + length : Nat) : Int)).toNat = runChecksum data start (length + 1) := by
  have hpush : data.extract start (start + (length + 1)) =
      (data.extract start (start + length)).push data[start + length] := by
    apply ByteArray.ext
    apply Array.toList_inj.1
    rw [ByteArray.data_push, ByteArray.data_extract, ByteArray.data_extract, Array.toList_push,
      Array.toList_extract, Array.toList_extract, List.extract_eq_take_drop,
      List.extract_eq_take_drop, show start + (length + 1) - start = length + 1 by omega,
      show start + length - start = length by omega]
    have hinside : length < (data.data.toList.drop start).length := by
      rw [List.length_drop, Array.length_toList, ByteArray.size_data]
      omega
    rw [List.take_succ_eq_append_getElem hinside, List.getElem_drop, Array.getElem_toList]
    rfl
  unfold extendChecksum runChecksum
  rw [runByte?_of_lt h, hpush, Crc32.checksum_push]

/-- The scan goes on from a run to the first longer one with the wanted checksum. -/
theorem lastPosition?_eq_some_iff {last : Int} (h : start + length ≤ data.size) :
    lastPosition? data wanted (Crc32.checksum (data.extract start (start + length)))
        ((start + length : Nat) : Int) = some last ↔
      ∃ longer, length < longer ∧ start + longer ≤ data.size ∧ last = start + longer - 1 ∧
        (runChecksum data start longer : Int) = wanted ∧
        ∀ other, length < other → other < longer →
          (runChecksum data start other : Int) ≠ wanted := by
  induction hleft : data.size - (start + length) generalizing length with
  | zero =>
    rw [lastPosition?, if_neg (by omega)]
    constructor
    · intro hnone
      cases hnone
    · rintro ⟨longer, hlonger, hinside, _⟩
      omega
  | succ left ih =>
    have hlt : start + length < data.size := by omega
    have hstep := extendChecksum_runChecksum hlt
    rw [lastPosition?, if_pos (by omega)]
    simp only [hstep]
    split
    · rename_i hfound
      constructor
      · intro hlast
        cases hlast
        refine ⟨length + 1, by omega, by omega, by push_cast; omega, hfound, ?_⟩
        intro other hlow hhigh
        omega
      · rintro ⟨longer, hlonger, hinside, rfl, hchecksum, hfirst⟩
        have hlength : longer = length + 1 := by
          by_contra hne
          exact hfirst (length + 1) (by omega) (by omega) hfound
        subst hlength
        apply congrArg some
        push_cast
        omega
    · rename_i hmissed
      have hnext : extendChecksum data (Crc32.checksum (data.extract start (start + length)))
          ((start + length : Nat) : Int) =
          Crc32.checksum (data.extract start (start + (length + 1))) :=
        UInt32.toNat.inj hstep
      have hposition : ((start + length : Nat) : Int) + 1 =
          ((start + (length + 1) : Nat) : Int) := by
        push_cast
        omega
      rw [hnext, hposition, ih (by omega) (by omega)]
      constructor
      · rintro ⟨longer, hlonger, hinside, hlast, hchecksum, hfirst⟩
        refine ⟨longer, by omega, hinside, hlast, hchecksum, ?_⟩
        intro other hlow hhigh
        by_cases hother : other = length + 1
        · subst hother
          exact hmissed
        · exact hfirst other (by omega) hhigh
      · rintro ⟨longer, hlonger, hinside, hlast, hchecksum, hfirst⟩
        have hne : longer ≠ length + 1 := by
          rintro rfl
          exact hmissed hchecksum
        exact ⟨longer, by omega, hinside, hlast, hchecksum, fun other hlow ↦
          hfirst other (by omega)⟩

/-- From the start on, the scan stops with the shortest run. -/
theorem lastPosition?_zero_eq_some_iff {last : Int} :
    lastPosition? data wanted 0 start = some last ↔
      ∃ length : Nat, last = start + length - 1 ∧ IsShortestRun data start wanted length := by
  by_cases hstart : start ≤ data.size
  · have hempty : Crc32.checksum (data.extract start (start + 0)) = 0 := by
      rw [Nat.add_zero, ByteArray.extract_same, Crc32.checksum_empty]
    rw [← hempty]
    apply (lastPosition?_eq_some_iff (by omega)).trans
    constructor
    · rintro ⟨length, hlength, hinside, hlast, hchecksum, hfirst⟩
      exact ⟨length, hlast, hlength, hinside, hchecksum, hfirst⟩
    · rintro ⟨length, hlast, hlength, hinside, hchecksum, hfirst⟩
      exact ⟨length, hlength, hinside, hlast, hchecksum, hfirst⟩
  · rw [lastPosition?, if_neg (by omega)]
    constructor
    · intro hnone
      cases hnone
    · rintro ⟨length, _, hrun⟩
      have hinside := hrun.inside
      omega

/-- For a start that is not negative, the size of a function is the length of its shortest run. -/
theorem codeSize_eq_ok_iff {size : Int} :
    codeSize data start wanted = .ok size ↔
      ∃ length : Nat, size = length ∧ IsShortestRun data start wanted length := by
  unfold codeSize
  rw [if_neg (by omega)]
  dsimp only
  cases hscan : lastPosition? data wanted 0 start with
  | none =>
    constructor
    · intro hfault
      cases hfault
    · rintro ⟨length, _, hrun⟩
      have hfound := lastPosition?_zero_eq_some_iff.2 ⟨length, rfl, hrun⟩
      rw [hscan] at hfound
      cases hfound
  | some last =>
    obtain ⟨length, rfl, hrun⟩ := lastPosition?_zero_eq_some_iff.1 hscan
    have hsize : (start : Int) + length - 1 - start + 1 = length := by omega
    dsimp only
    rw [hsize]
    constructor
    · intro hok
      cases hok
      exact ⟨length, rfl, hrun⟩
    · rintro ⟨other, rfl, hother⟩
      have hfound := lastPosition?_zero_eq_some_iff.2 ⟨other, rfl, hother⟩
      rw [hscan, Option.some.injEq] at hfound
      apply congrArg Except.ok
      omega

theorem bounds_of_lastPosition?_eq_some {running : UInt32} {position last : Int}
    (h : lastPosition? data wanted running position = some last) :
    position ≤ last ∧ last < data.size := by
  fun_induction lastPosition? data wanted running position with
  | case1 running position hinside next hfound =>
    cases h
    exact ⟨Int.le_refl _, hinside⟩
  | case2 running position hinside next hmissed ih =>
    have hbounds := ih h
    omega
  | case3 running position houtside => cases h

/-- Whatever the start is, a size that was found is positive and ends inside the data. -/
theorem bounds_of_codeSize_eq_ok {start size : Int} (h : codeSize data start wanted = .ok size) :
    1 ≤ size ∧ start + size ≤ data.size := by
  unfold codeSize at h
  dsimp only at h
  generalize hfirst : (if start < -data.size ∧ wanted ≠ 0 then -(data.size : Int) else start) =
    first at h
  have hstart : start ≤ first := by
    rw [← hfirst]
    split <;> omega
  cases hscan : lastPosition? data wanted 0 first with
  | none =>
    rw [hscan] at h
    cases h
  | some last =>
    rw [hscan] at h
    cases h
    have hbounds := bounds_of_lastPosition?_eq_some hscan
    omega

end Script
end CompiledScript
