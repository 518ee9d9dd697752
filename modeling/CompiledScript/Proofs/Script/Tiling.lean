import CompiledScript.Proofs.Script.Operands
import CompiledScript.Proofs.Script.Walk
import Mathlib.Data.List.Chain

/-!
# Instructions tile the code of a function

A function that was decoded is covered by its instructions: they lie end to end from the start of
the code on, each takes at least one byte, each starts in front of the end of the code, and the last
one reaches it without leaving the buffer. The start is an offset of the buffer as soon as there is
an instruction, since the decoder goes there before it reads.
-/

namespace CompiledScript

namespace Script

variable {ν : Type} {names : Symbol → ν}

open Reader

/-- An instruction that was decoded starts at an offset of the buffer, and the reader stands behind
it, inside the buffer. -/
theorem stop_of_instruction_eq_ok {index : StringIndex} {offset : Int} {r r' : Reader}
    {found : Instruction ν} (h : instruction names index offset r = .ok found r') :
    0 ≤ offset ∧ found.stop = r'.position ∧ r'.Inside := by
  obtain ⟨_, start, hseek, hrest⟩ := bind_eq_ok.1 h
  obtain ⟨data, hdata, hlow, hhigh, rfl⟩ := Reader.seek_eq_ok.1 hseek
  have hbefore : Reader.Inside { r with position := offset } := ⟨data, hdata, hlow, hhigh⟩
  obtain ⟨byte, behind, hbyte, hrest⟩ := bind_eq_ok.1 hrest
  have hbehind := (steady_unsigned 1 _ _ _ hbyte).inside hbefore
  cases hopcode : Opcode.ofByte? byte.toUInt8 with
  | none =>
    rw [hopcode] at hrest
    cases hrest
  | some opcode =>
    rw [hopcode] at hrest
    obtain ⟨values, after, hoperands, hrest⟩ := bind_eq_ok.1 hrest
    have hafter := ((composed_operands _ _ _).steady _ _ _ hoperands).inside hbehind
    obtain ⟨state, same, hget, hrest⟩ := bind_eq_ok.1 hrest
    cases hget
    cases hrest
    refine ⟨hlow, ?_, hafter⟩
    change offset + (r'.position - offset) = r'.position
    omega

end Script

/-- Instructions lie end to end from one address up to another or beyond it, but not beyond a
limit. -/
structure Tiles {ν : Type} (instructions : List (Instruction ν)) (start stop limit : Int) :
    Prop where
  nonempty : instructions ≠ []
  first : ∀ instruction ∈ instructions.head?, instruction.offset = start
  adjacent : instructions.IsChain fun instruction next ↦ next.offset = instruction.stop
  positive : ∀ instruction ∈ instructions, 1 ≤ instruction.size
  starts : ∀ instruction ∈ instructions, instruction.offset < stop
  last : ∀ instruction ∈ instructions.getLast?, stop ≤ instruction.stop ∧ instruction.stop ≤ limit

namespace Tiles

variable {ν μ : Type} {instructions : List (Instruction ν)} {start stop limit : Int}

theorem singleton {instruction : Instruction ν} (hsize : 1 ≤ instruction.size)
    (hstart : instruction.offset < stop) (hstop : stop ≤ instruction.stop)
    (hlimit : instruction.stop ≤ limit) : Tiles [instruction] instruction.offset stop limit where
  nonempty := List.cons_ne_nil _ _
  first := by simp
  adjacent := List.isChain_singleton _
  positive := by simpa using hsize
  starts := by simpa using hstart
  last := by simpa using ⟨hstop, hlimit⟩

theorem cons {instruction : Instruction ν} (hsize : 1 ≤ instruction.size)
    (hstart : instruction.offset < stop) (hrest : Tiles instructions instruction.stop stop limit) :
    Tiles (instruction :: instructions) instruction.offset stop limit where
  nonempty := List.cons_ne_nil _ _
  first := by simp
  adjacent := List.isChain_cons.2 ⟨hrest.first, hrest.adjacent⟩
  positive := List.forall_mem_cons.2 ⟨hsize, hrest.positive⟩
  starts := List.forall_mem_cons.2 ⟨hstart, hrest.starts⟩
  last := by
    rw [List.getLast?_cons_of_ne_nil hrest.nonempty]
    exact hrest.last

/-- Other names do not change where instructions lie. -/
theorem map (f : ν → μ) (h : Tiles instructions start stop limit) :
    Tiles (instructions.map (Instruction.map f)) start stop limit where
  nonempty := by simpa using h.nonempty
  first := by
    intro mapped hmapped
    rw [List.head?_map] at hmapped
    obtain ⟨instruction, hfirst, rfl⟩ := Option.map_eq_some_iff.1 hmapped
    exact h.first instruction hfirst
  adjacent := (List.isChain_map _).2 h.adjacent
  positive := List.forall_mem_map.2 h.positive
  starts := List.forall_mem_map.2 h.starts
  last := by
    intro mapped hmapped
    rw [List.getLast?_map] at hmapped
    obtain ⟨instruction, hlast, rfl⟩ := Option.map_eq_some_iff.1 hmapped
    exact h.last instruction hlast

end Tiles

namespace Script

variable {ν : Type} {names : Symbol → ν}

open Reader

/-- Instructions decoded from an address in front of the end of the code tile the rest of it. -/
theorem tiles_of_instructionsFrom_eq_ok {index : StringIndex} {stop offset : Int}
    {decoded all : Array (Instruction ν)} {data : ByteArray} {r r' : Reader}
    (hdata : r.contents = some data) (hoffset : offset < stop)
    (h : instructionsFrom names index stop offset decoded r = .ok all r') :
    ∃ found : List (Instruction ν), all = decoded ++ found.toArray ∧ 0 ≤ offset ∧
      Tiles found offset stop data.size ∧ Follows r r' := by
  induction hleft : (stop - offset).toNat using Nat.strongRecOn generalizing offset decoded r with
  | ind left ih =>
    cases hstep : instruction names index offset r with
    | error fault middle =>
      rw [instructionsFrom_of_error hoffset hstep] at h
      cases h
    | ok found middle =>
      obtain ⟨hstart, hsize⟩ := one_le_size hstep
      obtain ⟨hnonneg, hposition, hinside⟩ := stop_of_instruction_eq_ok hstep
      have hfollows := steady_instruction names index offset _ _ _ hstep
      have hcontents : middle.contents = some data := hfollows.contents.trans hdata
      have hlimit : found.stop ≤ data.size := by
        obtain ⟨same, hsame, _, hhigh⟩ := hinside
        rw [hcontents] at hsame
        cases hsame
        omega
      have hnext : found.stop = offset + found.size := by
        unfold Instruction.stop
        omega
      rw [instructionsFrom_of_ok hoffset hstep] at h
      by_cases hmore : found.stop < stop
      · obtain ⟨rest, rfl, _, htiles, hlater⟩ := ih _ (by omega) hcontents hmore h rfl
        refine ⟨found :: rest, by simp, hnonneg, ?_, hfollows.trans hlater⟩
        rw [← hstart]
        exact htiles.cons hsize (by omega)
      · rw [instructionsFrom_of_le (by omega)] at h
        cases h
        refine ⟨[found], by simp, hnonneg, ?_, hfollows⟩
        rw [← hstart]
        exact Tiles.singleton hsize (by omega) (by omega) hlimit

/-- A function with code that was decoded lies in the buffer and is tiled by its instructions. -/
theorem tiles_of_functionCode_eq_ok {index : StringIndex} {function : String} {offset size : Int}
    {found : Array (Instruction ν)} {data : ByteArray} {r r' : Reader}
    (hdata : r.contents = some data) (hsize : 1 ≤ size)
    (h : functionCode names index function offset size r = .ok found r') :
    0 ≤ offset ∧ Tiles found.toList offset (offset + size) data.size ∧ Follows r r' := by
  unfold functionCode at h
  rw [if_neg (by omega)] at h
  obtain ⟨all, rfl, hnonneg, htiles, hfollows⟩ :=
    tiles_of_instructionsFrom_eq_ok hdata (by omega) h
  exact ⟨hnonneg, by simpa using htiles, hfollows⟩

end Script
end CompiledScript
