import CompiledScript.Proofs.Reader.Composed
import CompiledScript.Proofs.Reader.Reads

/-!
# Reading a part of a buffer

A part that is cut out of a buffer is read like the buffer itself, at offsets that are counted from
the start of the part. Numbers are the same as long as they lie in the part. A text that is found in
the part is the text that is found in the buffer, since its zero byte is the first one in both.
-/

namespace CompiledScript

theorem Bytes.findFrom?_of_extract {data : ByteArray} {byte : UInt8} {start stop offset place : Nat}
    (h : findFrom? (data.extract start stop) byte offset = some place) :
    findFrom? data byte (start + offset) = some (start + place) := by
  fun_induction findFrom? (data.extract start stop) byte offset with
  | case1 offset hoffset hbyte =>
    have hinside : start + offset < data.size := ByteArray.getElem_extract_aux hoffset
    rw [ByteArray.getElem_extract] at hbyte
    rw [findFrom?, dif_pos hinside, if_pos hbyte, Option.some.inj h]
  | case2 offset hoffset hbyte ih =>
    have hinside : start + offset < data.size := ByteArray.getElem_extract_aux hoffset
    rw [ByteArray.getElem_extract] at hbyte
    rw [findFrom?, dif_pos hinside, if_neg hbyte]
    exact ih h
  | case3 offset hoffset => cases h

namespace Reader

variable {data : ByteArray} {start stop width : Nat} {position : Int}

theorem unsignedAt_extract (hposition : 0 ≤ position) (hstop : start + position + width ≤ stop) :
    unsignedAt (data.extract start stop) width position =
      unsignedAt data width (start + position) := by
  have hstart : (start + position).toNat = start + position.toNat := by omega
  have hend : min (start + (position.toNat + width)) stop = start + position.toNat + width := by
    omega
  rw [unsignedAt, unsignedAt, ByteArray.extract_extract, hstart, hend]

theorem signedAt_extract (hposition : 0 ≤ position) (hstop : start + position + width ≤ stop) :
    signedAt (data.extract start stop) width position = signedAt data width (start + position) := by
  rw [signedAt, signedAt, unsignedAt_extract hposition hstop]

/-- A number in the lower half of the range is the same with and without a sign. -/
theorem signedAt_eq_unsignedAt (h : 2 * unsignedAt data width position < Nat.pow 256 width) :
    signedAt data width position = unsignedAt data width position := by
  rw [signedAt, Number.toSigned, if_pos h]

/-- The text at an offset of the buffer, if there is a zero byte behind it. -/
def storedText? (data : ByteArray) (offset : Int) : Option String :=
  if 0 ≤ offset then
    (Bytes.findFrom? data 0 offset.toNat).map fun stop ↦
      Text.Utf8.decodeLenient (data.extract offset.toNat stop).data.toList
  else none

theorem storedText?_of_extract {offset : Int} {text : String}
    (h : storedText? (data.extract start stop) offset = some text) :
    storedText? data (start + offset) = some text := by
  unfold storedText? at h ⊢
  split at h
  · rename_i hoffset
    obtain ⟨place, hfind, rfl⟩ := Option.map_eq_some_iff.1 h
    have hstart : (start + offset).toNat = start + offset.toNat := by omega
    have hplace : start + place ≤ stop := by
      have hbounds := (Bytes.bounds_of_findFrom?_eq_some hfind).2
      rw [ByteArray.size_extract] at hbounds
      omega
    rw [if_pos (by omega), hstart, Bytes.findFrom?_of_extract hfind, Option.map_some,
      ByteArray.extract_extract, Nat.min_eq_left hplace]
  · cases h

/-- Looking up a text yields the one that stands there. -/
theorem peekText_eq_ok {offset : Int} {text : String} {r r' : Reader} :
    peekText offset r = .ok text r' ↔
      ∃ data, r.contents = some data ∧ storedText? data offset = some text ∧ r' = r := by
  unfold peekText storedText?
  rw [bind_eq_ok]
  constructor
  · rintro ⟨found, middle, htext, hpure⟩
    obtain ⟨data, stop, hdata, hoffset, hfind, rfl, rfl⟩ := textAt_eq_ok.1 htext
    obtain ⟨rfl, rfl⟩ := EStateM.Result.ok.inj hpure
    refine ⟨data, hdata, ?_, rfl⟩
    rw [if_pos hoffset, hfind, Option.map_some]
  · rintro ⟨data, hdata, hstored, rfl⟩
    split at hstored
    · rename_i hoffset
      obtain ⟨stop, hfind, rfl⟩ := Option.map_eq_some_iff.1 hstored
      exact ⟨_, r', textAt_eq_ok.2 ⟨data, stop, hdata, hoffset, hfind, rfl, rfl⟩, rfl⟩
    · cases hstored

end Reader
end CompiledScript
