import CompiledScript.Script.Instructions

/-!
# Steps of the walk through a function

The decoder of a function goes from one instruction to the next until the end of the code is
reached. These are the equations of one step, and the fact that the position at which the reader is
handed over does not matter, since every instruction is looked up by its address.
-/

namespace CompiledScript.Script

variable {ν : Type} {names : Symbol → ν} {index : StringIndex} {stop offset : Int}
  {decoded : Array (Instruction ν)} {r r' : Reader}

theorem instructionsFrom_of_le (h : stop ≤ offset) :
    instructionsFrom names index stop offset decoded r = .ok decoded r := by
  rw [instructionsFrom, if_neg (by omega)]

theorem instructionsFrom_of_ok {found : Instruction ν} (hoffset : offset < stop)
    (h : instruction names index offset r = .ok found r') :
    instructionsFrom names index stop offset decoded r =
      instructionsFrom names index stop found.stop (decoded.push found) r' := by
  rw [instructionsFrom, if_pos hoffset]
  split
  · rename_i hfault
    rw [h] at hfault
    cases hfault
  · rename_i hfound
    rw [h] at hfound
    cases hfound
    rfl

theorem instructionsFrom_of_error {fault : Fault} (hoffset : offset < stop)
    (h : instruction names index offset r = .error fault r') :
    instructionsFrom names index stop offset decoded r = .error ⟨fault, decoded⟩ r' := by
  rw [instructionsFrom, if_pos hoffset]
  split
  · rename_i hfault
    rw [h] at hfault
    cases hfault
    rfl
  · rename_i hfound
    rw [h] at hfound
    cases hfound

theorem instruction_of_ok_elsewhere {found : Instruction ν} (position : Int)
    (h : instruction names index offset r = .ok found r') :
    instruction names index offset { r with position := position } = .ok found r' := by
  obtain ⟨_, start, hseek, hrest⟩ := bind_eq_ok.1 h
  obtain ⟨data, hdata, hnonneg, hinside, rfl⟩ := Reader.seek_eq_ok.1 hseek
  apply bind_eq_ok.2
  exact ⟨(), _, Reader.seek_eq_ok.2 ⟨data, hdata, hnonneg, hinside, rfl⟩, hrest⟩

/-- A function with any code is decoded in the same way from every position of the reader. -/
theorem functionCode_of_ok_elsewhere {function : String} {size : Int}
    {found : Array (Instruction ν)} (position : Int) (hsize : 0 < size)
    (h : functionCode names index function offset size r = .ok found r') :
    functionCode names index function offset size { r with position := position } =
      .ok found r' := by
  unfold functionCode at h ⊢
  rw [if_neg (by omega)] at h ⊢
  cases hfirst : instruction names index offset r with
  | ok first middle =>
    rw [instructionsFrom_of_ok (by omega) hfirst] at h
    rw [instructionsFrom_of_ok (by omega) (instruction_of_ok_elsewhere position hfirst)]
    exact h
  | error fault middle =>
    rw [instructionsFrom_of_error (by omega) hfirst] at h
    cases h

end CompiledScript.Script
