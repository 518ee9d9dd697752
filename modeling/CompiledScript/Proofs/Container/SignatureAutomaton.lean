import CompiledScript.Container.Signature
import CompiledScript.Proofs.Bytes.Held

/-!
# The automaton behind the signature scan

The automaton reads one byte after another and counts how many of the last bytes match the
beginning of the signature. The next byte of the signature raises the count, and the last one
completes a match, whose start is recorded; any other byte resets the count and is gone, so it is
never tried as the first byte of the signature.

The scan does not visit every byte: it jumps to the next byte that can start a match, compares from
there, and goes on behind the match or behind the byte that ended the attempt. Each of its jumps is
a run of the automaton, so both find the same offsets.
-/

namespace CompiledScript

namespace Container

/-- The automaton that looks for a signature: how many bytes it has read, how many of the last ones
match the beginning of the signature, and the starts of the matches so far. -/
structure Automaton where
  position : Nat := 0
  matched : Nat := 0
  found : List Nat := []

namespace Automaton

def read (signature : List UInt8) (state : Automaton) (byte : UInt8) : Automaton :=
  if signature[state.matched]? = some byte then
    if state.matched + 1 = signature.length then
      ⟨state.position + 1, 0, state.found ++ [state.position - state.matched]⟩
    else ⟨state.position + 1, state.matched + 1, state.found⟩
  else ⟨state.position + 1, 0, state.found⟩

def run (signature : List UInt8) (state : Automaton) (bytes : List UInt8) : Automaton :=
  bytes.foldl (read signature) state

section Read

variable {signature : List UInt8} {state : Automaton} {byte : UInt8}

theorem read_of_ne (h : signature[state.matched]? ≠ some byte) :
    state.read signature byte = ⟨state.position + 1, 0, state.found⟩ :=
  if_neg h

theorem read_of_last (h : signature[state.matched]? = some byte)
    (hlast : state.matched + 1 = signature.length) :
    state.read signature byte =
      ⟨state.position + 1, 0, state.found ++ [state.position - state.matched]⟩ :=
  (if_pos h).trans (if_pos hlast)

theorem read_of_more (h : signature[state.matched]? = some byte)
    (hmore : state.matched + 1 ≠ signature.length) :
    state.read signature byte = ⟨state.position + 1, state.matched + 1, state.found⟩ :=
  (if_pos h).trans (if_neg hmore)

@[simp] theorem position_read (signature : List UInt8) (state : Automaton) (byte : UInt8) :
    (state.read signature byte).position = state.position + 1 := by
  unfold read
  split
  · split <;> rfl
  · rfl

end Read

/-- The automaton at the end of the data, from a state that stands for the bytes read so far. -/
def finish (data signature : ByteArray) (state : Automaton) : Automaton :=
  state.run signature.data.toList (data.data.toList.drop state.position)

variable {data signature : ByteArray} {state : Automaton} {first : UInt8}
  {start offset matched : Nat} {found : List Nat}

theorem finish_of_le (h : data.size ≤ state.position) : state.finish data signature = state := by
  unfold finish
  rw [List.drop_of_length_le (by rwa [Bytes.length_toList_data])]
  rfl

theorem finish_of_lt (h : state.position < data.size) :
    state.finish data signature =
      (state.read signature.data.toList data[state.position]).finish data signature := by
  have hinside : state.position < data.data.toList.length := by rwa [Bytes.length_toList_data]
  unfold finish
  rw [List.drop_eq_getElem_cons hinside, position_read]
  rfl

theorem getElem?_toList_data (bytes : ByteArray) (place : Nat) :
    bytes.data.toList[place]? = bytes[place]? := by
  by_cases h : place < bytes.size
  · rw [getElem?_pos bytes place h, Array.getElem?_toList, getElem?_pos bytes.data place h]
    rfl
  · rw [getElem?_neg bytes place h, Array.getElem?_toList, getElem?_neg bytes.data place h]

/-- With the count at zero, nothing happens before the next byte that starts the signature. -/
theorem finish_of_zero (hfirst : signature[0]? = some first) :
    finish data signature ⟨start, 0, found⟩ =
      match Bytes.findFrom? data first start with
      | some offset => finish data signature ⟨offset, 0, found⟩
      | none => ⟨max start data.size, 0, found⟩ := by
  fun_induction Bytes.findFrom? data first start with
  | case1 start hstart hbyte => rfl
  | case2 start hstart hbyte ih =>
    have hother : signature.data.toList[0]? ≠ some data[start] := by
      rw [getElem?_toList_data, hfirst]
      exact fun heq ↦ hbyte (Option.some.inj heq).symm
    have hread : read signature.data.toList ⟨start, 0, found⟩ data[start] =
        ⟨start + 1, 0, found⟩ := read_of_ne hother
    rw [finish_of_lt hstart, hread, ih, Nat.max_eq_right hstart,
      Nat.max_eq_right (Nat.le_of_lt hstart)]
  | case3 start hstart =>
    rw [finish_of_le (Nat.le_of_not_lt hstart), Nat.max_eq_left (Nat.le_of_not_lt hstart)]

/-- An attempt at a match that has come to a count below the length of the signature ends with a
match, with the end of the data, or with a byte that is consumed by the reset. -/
theorem finish_attempt (hmatched : matched < signature.size) :
    finish data signature ⟨offset + matched, matched, found⟩ =
      if matchLength data signature offset matched = signature.size then
        finish data signature ⟨offset + signature.size, 0, found ++ [offset]⟩
      else if data.size ≤ offset + matchLength data signature offset matched then
        ⟨offset + matchLength data signature offset matched,
          matchLength data signature offset matched, found⟩
      else
        finish data signature
          ⟨offset + matchLength data signature offset matched + 1, 0, found⟩ := by
  fun_induction matchLength data signature offset matched with
  | case1 matched hbounds hsignature hdata hbyte ih =>
    have hnext : signature.data.toList[matched]? = some data[offset + matched] := by
      rw [getElem?_toList_data, getElem?_pos signature matched hsignature, hbyte]
    rw [finish_of_lt hdata]
    by_cases hlast : matched + 1 = signature.size
    · have hread : read signature.data.toList ⟨offset + matched, matched, found⟩
          data[offset + matched] = ⟨offset + signature.size, 0, found ++ [offset]⟩ := by
        rw [read_of_last hnext (by rwa [Bytes.length_toList_data]), ← hlast]
        simp only [Nat.add_sub_cancel, Nat.add_assoc]
      have hwhole : matchLength data signature offset (matched + 1) = signature.size := by
        rw [matchLength, dif_neg (by omega), hlast]
      rw [if_pos hwhole, ← hread]
    · have hread : read signature.data.toList ⟨offset + matched, matched, found⟩
          data[offset + matched] = ⟨offset + (matched + 1), matched + 1, found⟩ :=
        read_of_more hnext (by rwa [Bytes.length_toList_data])
      rw [← ih (by omega), ← hread]
  | case2 matched hbounds hsignature hdata hbyte =>
    have hother : signature.data.toList[matched]? ≠ some data[offset + matched] := by
      rw [getElem?_toList_data, getElem?_pos signature matched hsignature]
      exact fun heq ↦ hbyte (Option.some.inj heq).symm
    have hread : read signature.data.toList ⟨offset + matched, matched, found⟩
        data[offset + matched] = ⟨offset + matched + 1, 0, found⟩ := read_of_ne hother
    rw [if_neg (by omega), if_neg (by omega), finish_of_lt hdata, hread]
  | case3 matched hbounds =>
    have hend : data.size ≤ offset + matched := by omega
    rw [if_neg (by omega), if_pos hend, finish_of_le hend]

/-- One round of the scan, from the jump to the place where the next round starts. -/
theorem finish_of_findFrom?_eq_some (hfirst : signature[0]? = some first)
    (hfind : Bytes.findFrom? data first start = some offset) :
    finish data signature ⟨start, 0, found⟩ =
      if matchLength data signature offset 1 = signature.size then
        finish data signature ⟨offset + signature.size, 0, found ++ [offset]⟩
      else if data.size ≤ offset + matchLength data signature offset 1 then
        ⟨offset + matchLength data signature offset 1, matchLength data signature offset 1, found⟩
      else
        finish data signature ⟨offset + matchLength data signature offset 1 + 1, 0, found⟩ := by
  obtain ⟨hsize, hstarts⟩ := getElem?_eq_some_iff.1 hfirst
  have hoffset := (Bytes.bounds_of_findFrom?_eq_some hfind).2
  -- the scan has compared the first byte already
  have hcount : matchLength data signature offset 0 = matchLength data signature offset 1 := by
    rw [matchLength, dif_pos ⟨hsize, hoffset⟩]
    simp only [Nat.add_zero]
    rw [if_pos (by rw [Bytes.getElem_of_findFrom?_eq_some hfind hoffset, hstarts])]
  have hattempt : finish data signature ⟨offset + 0, 0, found⟩ = _ := finish_attempt hsize
  rw [finish_of_zero hfirst, hfind]
  rwa [hcount] at hattempt

/-- From a count of zero on, the automaton records what the scan finds from there on. -/
theorem found_finish (hfirst : signature[0]? = some first) (start : Nat) (found : List Nat) :
    (finish data signature ⟨start, 0, found⟩).found =
      found ++ occurrencesFrom data signature first start := by
  fun_induction occurrencesFrom data signature first start generalizing found with
  | case1 start hfind => rw [finish_of_zero hfirst, hfind, List.append_nil]
  | case2 start offset hfind matched hwhole ih =>
    rw [finish_of_findFrom?_eq_some hfirst hfind, if_pos hwhole, ← hwhole, ih, List.append_assoc]
    rfl
  | case3 start offset hfind matched hpart hend =>
    rw [finish_of_findFrom?_eq_some hfirst hfind, if_neg hpart, if_pos hend, List.append_nil]
  | case4 start offset hfind matched hpart hmore ih =>
    rw [finish_of_findFrom?_eq_some hfirst hfind, if_neg hpart, if_neg hmore, ih]

/-- The automaton never finds an empty signature. -/
theorem found_run_nil (state : Automaton) (bytes : List UInt8) :
    (state.run [] bytes).found = state.found := by
  induction bytes generalizing state with
  | nil => rfl
  | cons byte rest ih => exact ih _

/-- From the start to the end of the data, the automaton records what the scan finds. -/
theorem found_run (data : ByteArray) (hsize : 0 < signature.size) :
    (run signature.data.toList {} data.data.toList).found = occurrences data signature := by
  have hfirst : signature[0]? = some signature[0] := getElem?_pos signature 0 hsize
  unfold occurrences
  rw [hfirst]
  exact found_finish hfirst 0 []

end Automaton

/-- The signature scan finds exactly the offsets that the automaton records. -/
theorem occurrences_eq_found_run (data signature : ByteArray) :
    occurrences data signature =
      (Automaton.run signature.data.toList {} data.data.toList).found := by
  rcases Nat.eq_zero_or_pos signature.size with hempty | hsize
  · have hbytes : signature.data.toList = [] :=
      List.eq_nil_of_length_eq_zero ((Bytes.length_toList_data signature).trans hempty)
    have hnone : signature[0]? = none := getElem?_neg signature 0 (by omega)
    rw [hbytes, Automaton.found_run_nil, occurrences, hnone]
  · exact (Automaton.found_run data hsize).symm

end Container
end CompiledScript
