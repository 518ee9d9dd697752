import CompiledScript.Proofs.Container.SignatureAutomaton

/-!
# What the signature scan finds, and what it can miss

The bytes that the automaton has read end with as much of the signature as it has counted. So every
recorded offset is that of an occurrence, and no two of them overlap. Conversely, where an
occurrence starts, the count can be above zero only if the bytes in front of it are a beginning of
the signature; otherwise the automaton follows the occurrence to its end and records it. These
beginnings are the only thing that makes the scan miss an occurrence.
-/

namespace CompiledScript.Container

open Bytes

namespace Automaton

/-- What the automaton knows about the bytes that it has read. -/
structure Sound (signature bytes : List UInt8) (state : Automaton) : Prop where
  position_eq : state.position = bytes.length
  matched_lt : state.matched < signature.length
  counted : signature.take state.matched <:+ bytes
  /-- A recorded offset is that of an occurrence, which ends in front of the counted bytes. -/
  occurs : ∀ offset ∈ state.found, signature <+: bytes.drop offset ∧
    offset + signature.length + state.matched ≤ bytes.length
  apart : state.found.Pairwise fun first second ↦ first + signature.length ≤ second

variable {signature bytes : List UInt8} {state : Automaton}

theorem sound_start (h : 0 < signature.length) : Sound signature [] {} where
  position_eq := rfl
  matched_lt := h
  counted := List.nil_suffix
  occurs := by simp
  apart := List.Pairwise.nil

/-- The next byte of the signature makes the counted bytes one longer. -/
theorem Sound.counted_concat {byte : UInt8} (h : Sound signature bytes state)
    (hbyte : signature[state.matched]? = some byte) :
    signature.take (state.matched + 1) <:+ bytes ++ [byte] := by
  obtain ⟨before, hbytes⟩ := h.counted
  refine ⟨before, ?_⟩
  rw [List.take_add_one, hbyte, Option.toList_some, ← List.append_assoc, hbytes]

theorem Sound.occurs_concat {offset : Nat} (h : Sound signature bytes state) (byte : UInt8)
    (hoffset : offset ∈ state.found) :
    signature <+: (bytes ++ [byte]).drop offset ∧
      offset + signature.length + state.matched ≤ bytes.length := by
  obtain ⟨hoccurs, hend⟩ := h.occurs offset hoffset
  rw [List.drop_append_of_le_length (by omega)]
  exact ⟨hoccurs.trans (List.prefix_append _ _), hend⟩

/-- With the last byte of the signature, the bytes read end with all of it. -/
theorem Sound.completed {byte : UInt8} (h : Sound signature bytes state)
    (hbyte : signature[state.matched]? = some byte)
    (hlast : state.matched + 1 = signature.length) :
    ∃ before, bytes ++ [byte] = before ++ signature ∧
      before.length = state.position - state.matched ∧
      before.length + signature.length = bytes.length + 1 := by
  obtain ⟨before, hbytes⟩ := h.counted_concat hbyte
  rw [hlast, List.take_length] at hbytes
  have hlength := congrArg List.length hbytes
  simp only [List.length_append, List.length_singleton] at hlength
  have hposition := h.position_eq
  exact ⟨before, hbytes.symm, by omega, hlength⟩

/-- A byte that completes no match leaves what was recorded, whatever count it leads to. -/
theorem Sound.recount {byte : UInt8} {matched : Nat} (h : Sound signature bytes state)
    (hle : matched ≤ state.matched + 1) (hlt : matched < signature.length)
    (hcounted : signature.take matched <:+ bytes ++ [byte]) :
    Sound signature (bytes ++ [byte]) ⟨state.position + 1, matched, state.found⟩ where
  position_eq := by rw [h.position_eq, List.length_append, List.length_singleton]
  matched_lt := hlt
  counted := hcounted
  occurs := by
    intro offset hoffset
    obtain ⟨hoccurs, hend⟩ := h.occurs_concat byte hoffset
    rw [List.length_append, List.length_singleton]
    exact ⟨hoccurs, by dsimp only; omega⟩
  apart := h.apart

/-- What the automaton knows is carried on from byte to byte. -/
theorem Sound.read (h : Sound signature bytes state) (byte : UInt8) :
    Sound signature (bytes ++ [byte]) (state.read signature byte) := by
  have hmatched := h.matched_lt
  by_cases hbyte : signature[state.matched]? = some byte
  · by_cases hlast : state.matched + 1 = signature.length
    · obtain ⟨before, hbytes, hbefore, hend⟩ := h.completed hbyte hlast
      have hreset := h.recount (Nat.zero_le _) (by omega) (List.nil_suffix : [] <:+ bytes ++ [byte])
      rw [read_of_last hbyte hlast, ← hbefore]
      refine ⟨hreset.position_eq, hreset.matched_lt, hreset.counted, ?_, ?_⟩
      · intro offset hoffset
        rcases List.mem_append.1 hoffset with hearlier | hnew
        · exact hreset.occurs offset hearlier
        · cases List.mem_singleton.1 hnew
          rw [hbytes, List.drop_left, List.length_append]
          exact ⟨List.prefix_rfl, Nat.le_refl _⟩
      · refine List.pairwise_append.2 ⟨h.apart, List.pairwise_singleton _ _, ?_⟩
        intro earlier hearlier new hnew
        cases List.mem_singleton.1 hnew
        have hapart := (h.occurs earlier hearlier).2
        omega
    · rw [read_of_more hbyte hlast]
      exact h.recount (Nat.le_refl _) (by omega) (h.counted_concat hbyte)
  · rw [read_of_ne hbyte]
    exact h.recount (Nat.zero_le _) (by omega) List.nil_suffix

theorem Sound.run (h : Sound signature bytes state) (more : List UInt8) :
    Sound signature (bytes ++ more) (state.run signature more) := by
  induction more generalizing bytes state with
  | nil => rwa [List.append_nil]
  | cons byte rest ih =>
    rw [List.append_cons]
    exact ih (h.read byte)

theorem run_append (signature : List UInt8) (state : Automaton) (first second : List UInt8) :
    state.run signature (first ++ second) = (state.run signature first).run signature second :=
  List.foldl_append

/-- What was recorded stays recorded. -/
theorem found_subset_found_run (signature : List UInt8) (state : Automaton) (bytes : List UInt8) :
    state.found ⊆ (state.run signature bytes).found := by
  induction bytes generalizing state with
  | nil => exact List.Subset.refl _
  | cons byte rest ih =>
    refine List.Subset.trans ?_ (ih (state.read signature byte))
    unfold Automaton.read
    split
    · split
      · exact List.subset_append_left _ _
      · exact List.Subset.refl _
    · exact List.Subset.refl _

/-- With the rest of the signature, a count is completed to a match. -/
theorem run_drop (state : Automaton) (h : state.matched < signature.length) :
    state.run signature (signature.drop state.matched) =
      ⟨state.position + (signature.length - state.matched), 0,
        state.found ++ [state.position - state.matched]⟩ := by
  induction hleft : signature.length - state.matched generalizing state with
  | zero => omega
  | succ left ih =>
    have hbyte : signature[state.matched]? = some signature[state.matched] :=
      List.getElem?_eq_getElem h
    rw [List.drop_eq_getElem_cons h]
    change (state.read signature signature[state.matched]).run signature _ = _
    by_cases hlast : state.matched + 1 = signature.length
    · rw [read_of_last hbyte hlast, hlast, List.drop_length, show left = 0 by omega]
      rfl
    · have hnext := ih ⟨state.position + 1, state.matched + 1, state.found⟩
        (by dsimp only; omega) (by dsimp only; omega)
      rw [read_of_more hbyte hlast, hnext]
      dsimp only
      rw [Nat.add_sub_add_right, Nat.add_assoc, Nat.add_comm 1]

/-- An occurrence is recorded if none of the bytes in front of it are a beginning of the
signature. -/
theorem mem_found_run (hsize : 0 < signature.length) (before after : List UInt8)
    (hclear : ∀ count, 1 ≤ count → count < signature.length →
      ¬ signature.take count <:+ before) :
    before.length ∈ (run signature {} (before ++ signature ++ after)).found := by
  have hsound : Sound signature before (run signature {} before) := (sound_start hsize).run before
  have hzero : (run signature {} before).matched = 0 := by
    by_contra hcount
    exact hclear _ (Nat.pos_of_ne_zero hcount) hsound.matched_lt hsound.counted
  have hmatch := run_drop (run signature {} before) hsound.matched_lt
  rw [hzero, List.drop_zero, hsound.position_eq] at hmatch
  rw [run_append, run_append, hmatch]
  apply found_subset_found_run
  exact List.mem_append_right _ (List.mem_singleton_self _)

end Automaton

/-- Right in front of an offset stands a beginning of the signature, neither empty nor all of it. -/
def FollowsBeginning (data signature : ByteArray) (offset : Nat) : Prop :=
  ∃ count < signature.size, 1 ≤ count ∧
    Holds data ((offset : Int) - count) (signature.data.toList.take count)

instance (data signature : ByteArray) (offset : Nat) :
    Decidable (FollowsBeginning data signature offset) :=
  inferInstanceAs (Decidable (∃ count < signature.size, 1 ≤ count ∧ _))

/-- The scan finds occurrences that do not overlap, in order, and misses only such as follow a
beginning of the signature. -/
theorem occurrences_sound_and_complete (data signature : ByteArray) (hsize : 0 < signature.size) :
    (occurrences data signature).Pairwise (fun first second ↦
      first < second ∧ first + signature.size ≤ second) ∧
    (∀ offset ∈ occurrences data signature, Holds data offset signature.data.toList) ∧
    ∀ offset : Nat, Holds data offset signature.data.toList →
      ¬ FollowsBeginning data signature offset → offset ∈ occurrences data signature := by
  have hlength := length_toList_data signature
  have hsound : Automaton.Sound signature.data.toList data.data.toList
      (Automaton.run signature.data.toList {} data.data.toList) :=
    (Automaton.sound_start (by omega)).run data.data.toList
  rw [← Automaton.found_run data hsize]
  refine ⟨hsound.apart.imp (by omega), ?_, ?_⟩
  · intro offset hoffset
    obtain ⟨hoccurs, hend⟩ := hsound.occurs offset hoffset
    rw [hlength, length_toList_data] at hend
    exact holds_iff.2 ⟨by omega, by omega, hoccurs⟩
  · rintro offset ⟨before, after, hdata, hoffset⟩ hclear
    cases Int.ofNat.inj hoffset
    rw [hdata]
    refine Automaton.mem_found_run (by omega) before after ?_
    rintro count hlow hhigh ⟨earlier, hbefore⟩
    refine hclear ⟨count, by omega, hlow, earlier, signature.data.toList ++ after, ?_, ?_⟩
    · rw [hdata, hbefore, List.append_assoc]
    · have hcut := congrArg List.length hbefore
      rw [List.length_append, List.length_take] at hcut
      omega

/-- Data with three occurrences of a signature that overlaps itself. The first one follows a failed
attempt; the other two stand one behind the other, and in front of an attempt that the end cuts
short. -/
def repeatedSample : ByteArray :=
  ⟨#[1, 1, 1, 2, 0, 1, 1, 2, 1, 1, 2, 1, 1]⟩

def overlappingSample : ByteArray :=
  ⟨#[1, 1, 2]⟩

theorem run_repeatedSample :
    occurrences repeatedSample overlappingSample = [5, 8] ∧
      Holds repeatedSample (1 : Nat) overlappingSample.data.toList ∧
      FollowsBeginning repeatedSample overlappingSample 1 ∧
      Holds repeatedSample (8 : Nat) overlappingSample.data.toList ∧
      ¬ FollowsBeginning repeatedSample overlappingSample 8 := by
  decide +kernel

/-- Only the occurrence behind the failed attempt is missed. -/
theorem occurrences_repeatedSample :
    0 < overlappingSample.size ∧ 8 ∈ occurrences repeatedSample overlappingSample ∧
      Holds repeatedSample (1 : Nat) overlappingSample.data.toList ∧
      FollowsBeginning repeatedSample overlappingSample 1 ∧
      1 ∉ occurrences repeatedSample overlappingSample ∧
      (∀ offset ∈ occurrences repeatedSample overlappingSample,
        Holds repeatedSample offset overlappingSample.data.toList) ∧
      (occurrences repeatedSample overlappingSample).Pairwise (fun first second ↦
        first < second ∧ first + overlappingSample.size ≤ second) := by
  obtain ⟨hfound, hmissed, hfollows, hholds, hclear⟩ := run_repeatedSample
  obtain ⟨hapart, hsound, hcomplete⟩ :=
    occurrences_sound_and_complete repeatedSample overlappingSample (by decide)
  refine ⟨by decide, hcomplete 8 hholds hclear, hmissed, hfollows, ?_, hsound, hapart⟩
  rw [hfound]
  decide

end CompiledScript.Container
