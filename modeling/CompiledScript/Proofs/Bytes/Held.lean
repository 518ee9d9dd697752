import CompiledScript.Bytes.Window
import Mathlib.Data.List.Basic

/-!
# Runs of bytes in a buffer

A buffer holds a run at an offset if the run stands there, whatever is before and after it. Formats
are described by what a buffer holds at which offset, and a reader is then followed run by run: the
parts of a joined run are held one after the other.
-/

namespace CompiledScript.Bytes

theorem append_toArray_nil (data : ByteArray) : data ++ ⟨([] : List UInt8).toArray⟩ = data :=
  ByteArray.append_empty

theorem append_toArray_append (data : ByteArray) (first second : List UInt8) :
    data ++ ⟨first.toArray⟩ ++ ⟨second.toArray⟩ = data ++ ⟨(first ++ second).toArray⟩ := by
  apply ByteArray.ext
  apply Array.toList_inj.1
  simp

/-- The run of bytes stands in the buffer from the offset on. An empty run stands at every offset
from the start of the buffer up to its end. -/
def Holds (data : ByteArray) (offset : Int) (run : List UInt8) : Prop :=
  ∃ before after : List UInt8,
    data.data.toList = before ++ run ++ after ∧ (before.length : Int) = offset

variable {data : ByteArray} {offset : Int} {run first second : List UInt8}

theorem length_toList_data (data : ByteArray) : data.data.toList.length = data.size := by
  rw [Array.length_toList, ByteArray.size_data]

theorem window_of_nonneg {start stop : Int} (hstart : 0 ≤ start) (hstop : 0 ≤ stop) :
    window data start stop = data.extract start.toNat stop.toNat := by
  unfold window place
  rw [if_neg (by omega), if_neg (by omega)]

/-- A buffer starts with a run if and only if its first bytes, as many as the run has, are the
run. -/
theorem extract_zero_eq_iff_startsWith {data run : ByteArray} :
    (data.extract 0 run.size).data = run.data ↔ run.data.toList <+: data.data.toList := by
  rw [List.prefix_iff_eq_take, ← Array.toList_inj, ByteArray.data_extract, Array.toList_extract,
    List.extract_eq_take_drop, length_toList_data]
  exact eq_comm

/-- A run inside a list of bytes is held by the buffer that the list makes up. -/
theorem holds_of_append (before run after : List UInt8) :
    Holds ⟨(before ++ run ++ after).toArray⟩ before.length run :=
  ⟨before, after, by simp, rfl⟩

theorem holds_iff :
    Holds data offset run ↔
      0 ≤ offset ∧ offset ≤ data.size ∧ run <+: data.data.toList.drop offset.toNat := by
  rw [← length_toList_data]
  constructor
  · rintro ⟨before, after, hdata, rfl⟩
    refine ⟨by omega, ?_, after, ?_⟩
    · simp only [hdata, List.length_append]
      omega
    · simp [hdata]
  · rintro ⟨hnonneg, hinside, after, hdata⟩
    refine ⟨data.data.toList.take offset.toNat, after, ?_, ?_⟩
    · rw [List.append_assoc, hdata, List.take_append_drop]
    · rw [List.length_take]
      omega

instance (data : ByteArray) (offset : Int) (run : List UInt8) : Decidable (Holds data offset run) :=
  decidable_of_iff _ holds_iff.symm

namespace Holds

theorem offset_nonneg (h : Holds data offset run) : 0 ≤ offset := by
  obtain ⟨before, after, _, rfl⟩ := h
  omega

theorem stop_le_size (h : Holds data offset run) : offset + run.length ≤ data.size := by
  obtain ⟨before, after, hdata, rfl⟩ := h
  have hlength := congrArg List.length hdata
  rw [length_toList_data] at hlength
  simp only [List.length_append] at hlength
  omega

theorem offset_le_size (h : Holds data offset run) : offset ≤ data.size := by
  have hstop := h.stop_le_size
  omega

theorem left (h : Holds data offset (first ++ second)) : Holds data offset first := by
  obtain ⟨before, after, hdata, hoffset⟩ := h
  exact ⟨before, second ++ after, by rw [hdata]; simp only [List.append_assoc], hoffset⟩

theorem right (h : Holds data offset (first ++ second)) :
    Holds data (offset + first.length) second := by
  obtain ⟨before, after, hdata, rfl⟩ := h
  refine ⟨before ++ first, after, ?_, ?_⟩
  · rw [hdata]
    simp only [List.append_assoc]
  · rw [List.length_append]
    push_cast
    rfl

theorem stop (h : Holds data offset run) : Holds data (offset + run.length) [] := by
  rw [← List.append_nil run] at h
  exact h.right

/-- The bytes of a run are those that the buffer has from the offset on. -/
theorem extract_eq (h : Holds data offset run) :
    (data.extract offset.toNat (offset.toNat + run.length)).data.toList = run := by
  obtain ⟨before, after, hdata, rfl⟩ := h
  rw [ByteArray.data_extract, Array.toList_extract, hdata, List.extract_eq_take_drop]
  simp

theorem extract_eq_toArray (h : Holds data offset run) :
    data.extract offset.toNat (offset.toNat + run.length) = ⟨run.toArray⟩ := by
  apply ByteArray.ext
  apply Array.toList_inj.1
  exact h.extract_eq

theorem head_eq {byte : UInt8} {rest : List UInt8} (h : Holds data offset (byte :: rest)) :
    ∃ hinside : offset.toNat < data.size, data[offset.toNat] = byte := by
  obtain ⟨before, after, hdata, rfl⟩ := h
  have hinside : before.length < data.data.size := by
    rw [← Array.length_toList, hdata]
    simp
  refine ⟨hinside, ?_⟩
  change data.data[before.length] = byte
  rw [← Array.getElem_toList]
  simp [hdata]

theorem tail {byte : UInt8} {rest : List UInt8} (h : Holds data offset (byte :: rest)) :
    Holds data (offset + 1) rest := by
  rw [← List.singleton_append] at h
  exact h.right

end Holds

/-- The first occurrence of a byte is behind a run without it. -/
theorem findFrom?_eq_of_holds {byte : UInt8} (hrun : byte ∉ run)
    (h : Holds data offset (run ++ [byte])) :
    findFrom? data byte offset.toNat = some (offset.toNat + run.length) := by
  induction run generalizing offset with
  | nil =>
    obtain ⟨hinside, hbyte⟩ := h.head_eq
    rw [findFrom?, dif_pos hinside, if_pos hbyte]
    rfl
  | cons next rest ih =>
    obtain ⟨hinside, hbyte⟩ := h.head_eq
    have hother : data[offset.toNat] ≠ byte := by
      rw [hbyte]
      exact fun heq ↦ hrun (heq ▸ List.mem_cons_self)
    have hnext := ih (fun hmem ↦ hrun (List.mem_cons_of_mem _ hmem)) h.tail
    have hstep : (offset + 1).toNat = offset.toNat + 1 := by
      have hnonneg := h.offset_nonneg
      omega
    rw [findFrom?, dif_pos hinside, if_neg hother, ← hstep, hnext, hstep, List.length_cons]
    congr 1
    omega

theorem getElem_of_findFrom?_eq_some {byte : UInt8} {start stop : Nat}
    (h : findFrom? data byte start = some stop) (hstop : stop < data.size) : data[stop] = byte := by
  fun_induction findFrom? data byte start with
  | case1 start hstart hbyte =>
    cases h
    exact hbyte
  | case2 start hstart hbyte ih => exact ih h
  | case3 start hstart => cases h

/-- The bytes up to the first occurrence stand in the buffer, and the occurrence behind them. -/
theorem holds_of_findFrom?_eq_some {byte : UInt8} {start stop : Nat}
    (h : findFrom? data byte start = some stop) :
    Holds data start ((data.extract start stop).data.toList ++ [byte]) := by
  obtain ⟨hstart, hstop⟩ := bounds_of_findFrom?_eq_some h
  have hlast : stop - start < (data.data.toList.drop start).length := by
    rw [List.length_drop, length_toList_data]
    omega
  have hbyte : (data.data.toList.drop start)[stop - start] = byte := by
    rw [List.getElem_drop, Array.getElem_toList, ← getElem_of_findFrom?_eq_some h hstop]
    congr 1
    omega
  rw [holds_iff, ByteArray.data_extract, Array.toList_extract, List.extract_eq_take_drop]
  refine ⟨by omega, by omega, ?_⟩
  rw [← hbyte, Int.toNat_natCast, ← List.take_succ_eq_append_getElem hlast]
  exact List.take_prefix _ _

end CompiledScript.Bytes
